import GuestXml.Guest.Domain
import GuestXml.Time.Instant

/-!
# Snapshots

The state of a guest at some time: its memory, its disks and its definition.
-/

namespace GuestXml

/-- The state a guest was in. -/
inductive SnapshotState where
  | running
  | blocked
  | paused
  | shutdown
  | shutoff
  | crashed
  | pmsuspended
  | diskSnapshot
  deriving DecidableEq, Inhabited

instance : Enumeration SnapshotState where
  name := "ESnapshotState"
  first := .running
  others := [.blocked, .paused, .shutdown, .shutoff, .crashed, .pmsuspended, .diskSnapshot]
  spelling
    | .running => "running"
    | .blocked => "blocked"
    | .paused => "paused"
    | .shutdown => "shutdown"
    | .shutoff => "shutoff"
    | .crashed => "crashed"
    | .pmsuspended => "pmsuspended"
    | .diskSnapshot => "disk-snapshot"
  complete := by intro a; cases a <;> decide
  nodup_spellings := by decide

/-- How memory or a disk is captured. -/
inductive SnapshotMode where
  | omit
  | internal
  | external
  | manual
  deriving DecidableEq, Inhabited

instance : Enumeration SnapshotMode where
  name := "ESnapshotMode"
  first := .omit
  others := [.internal, .external, .manual]
  spelling
    | .omit => "no"
    | .internal => "internal"
    | .external => "external"
    | .manual => "manual"
  complete := by intro a; cases a <;> decide
  nodup_spellings := by decide

/-- The snapshot another one was taken after. -/
structure SnapshotParent where
  name : String := ""
  deriving DecidableEq, Inhabited

/-- How memory was captured. -/
structure SnapshotMemory where
  snapshot : SnapshotMode := default
  file : Option String := none
  deriving DecidableEq, Inhabited

/-- How one disk was captured. -/
structure SnapshotDisk where
  name : String := ""
  snapshot : Option SnapshotMode := none
  kind : Option DiskType := none
  driver : Option DiskDriver := none
  source : Option DiskSource := none
  deriving DecidableEq, Inhabited

/-- How disks were captured. -/
structure SnapshotDisks where
  disks : List SnapshotDisk := []
  deriving DecidableEq, Inhabited

/-- The state of a guest at some time. -/
structure DomainSnapshot where
  name : Option String := none
  description : Option String := none
  state : Option SnapshotState := none
  parent : Option SnapshotParent := none
  creationTime : Option Time.Instant := none
  memory : Option SnapshotMemory := none
  disks : Option SnapshotDisks := none
  domain : Option Domain := none
  active : Option UnsignedByte := none
  deriving DecidableEq, Inhabited

/-- Whether a snapshot was taken after another. -/
def DomainSnapshot.hasParent (s : DomainSnapshot) : Bool :=
  s.parent.isSome

end GuestXml
