import GuestXml.Guest.Console
import GuestXml.Guest.Controller
import GuestXml.Guest.Disk
import GuestXml.Guest.Interface

/-!
# Devices

All devices of a guest.
-/

namespace GuestXml

/-- A kind of memory balloon. -/
inductive BalloonModel where
  | virtio
  | xen
  | absent
  deriving DecidableEq, Inhabited

instance : Enumeration BalloonModel where
  name := "EMemBalloonModel"
  first := .virtio
  others := [.xen, .absent]
  spelling
    | .virtio => "virtio"
    | .xen => "xen"
    | .absent => "none"
  complete := by intro a; cases a <;> decide
  nodup_spellings := by decide

/-- How often a balloon reports. -/
structure MemBalloonStats where
  period : UnsignedInt := default
  deriving DecidableEq, Inhabited

/-- A device that takes memory back from the guest. -/
structure MemBalloon where
  model : BalloonModel := default
  stats : Option MemBalloonStats := none
  address : Option DeviceAddress := none
  deriving DecidableEq, Inhabited

/-- The devices of a guest, sorted by kind. -/
structure Devices where
  emulator : Option String := none
  disks : List Disk := []
  controllers : List Controller := []
  interfaces : List Interface := []
  serials : List CharDevice := []
  consoles : List CharDevice := []
  channels : List CharDevice := []
  inputs : List Input := []
  graphics : List Graphics := []
  videos : List Video := []
  memballoon : Option MemBalloon := none
  deriving DecidableEq, Inhabited

end GuestXml
