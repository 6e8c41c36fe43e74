import GuestXml.Guest.Address

/-!
# Controllers

Controllers, which other devices are attached to.
-/

namespace GuestXml

/-- What a controller is for. -/
inductive ControllerType where
  | pci
  | ide
  | scsi
  | sata
  | usb
  | virtioSerial
  | fdc
  | ccid
  deriving DecidableEq, Inhabited

instance : Enumeration ControllerType where
  name := "EControllerType"
  first := .pci
  others := [.ide, .scsi, .sata, .usb, .virtioSerial, .fdc, .ccid]
  spelling
    | .pci => "pci"
    | .ide => "ide"
    | .scsi => "scsi"
    | .sata => "sata"
    | .usb => "usb"
    | .virtioSerial => "virtio-serial"
    | .fdc => "fdc"
    | .ccid => "ccid"
  complete := by intro a; cases a <;> decide
  nodup_spellings := by decide

/-- The model of a controller. -/
structure ControllerModel where
  name : String := ""
  deriving DecidableEq, Inhabited

/-- Where a controller appears in the guest. -/
structure ControllerTarget where
  chassis : Option UnsignedInt := none
  port : Option HexOrUnsigned := none
  deriving DecidableEq, Inhabited

/-- A controller. -/
structure Controller where
  kind : ControllerType := default
  index : UnsignedInt := default
  model : Option String := none
  modelName : Option ControllerModel := none
  target : Option ControllerTarget := none
  address : Option DeviceAddress := none
  deriving DecidableEq, Inhabited

end GuestXml
