import GuestXml.Guest.Quantity
import GuestXml.Value.HexOrDecimal

/-!
# Device addresses

Where devices sit in the guest, as the guest sees it.
-/

namespace GuestXml

/-- An address on a PCI bus. -/
structure PciAddress where
  domain : Option PciDomain := none
  bus : PciBus := default
  slot : PciSlot := default
  function : Option PciFunction := none
  multifunction : Option OnOff := none
  deriving DecidableEq, Inhabited

/-- An address on a controller of drives. -/
structure DriveAddress where
  controller : Option UnsignedInt := none
  bus : Option UnsignedInt := none
  target : Option UnsignedInt := none
  unit : Option UnsignedInt := none
  deriving DecidableEq, Inhabited

/-- A port of a serial controller. -/
structure VirtioSerialAddress where
  controller : Option UnsignedInt := none
  bus : Option UnsignedInt := none
  port : Option UnsignedInt := none
  deriving DecidableEq, Inhabited

/-- A port of a USB bus. -/
structure UsbAddress where
  bus : UnsignedInt := default
  port : String := ""
  deriving DecidableEq, Inhabited

/-- Where a device sits in the guest, which goes by the type of the address. -/
inductive DeviceAddress where
  | pci (content : PciAddress)
  | drive (content : DriveAddress)
  | virtioSerial (content : VirtioSerialAddress)
  | usb (content : UsbAddress)
  deriving DecidableEq, Inhabited

end GuestXml
