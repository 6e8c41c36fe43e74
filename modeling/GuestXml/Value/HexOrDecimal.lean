import GuestXml.Value.Ranged
import GuestXml.Value.Restricted

/-!
# Numbers in hexadecimal or decimal

The parts of a device's address on a bus may be written in hexadecimal behind `0x`, which
is kept as it was written, or in decimal.
-/

namespace GuestXml

/-- A text without the marks `0x` at its front. -/
def withoutMarks : List Char → List Char
  | '0' :: 'x' :: cs => withoutMarks cs
  | cs => cs

/-- The number that hexadecimal digits behind `0x` denote. Texts that fit no pattern may also
lack the mark, repeat it or have a plus sign behind it. -/
def hexValue? (s : String) : Option Nat :=
  match withoutMarks s.toList with
  | '+' :: ds => Number.numeral? 16 ds
  | ds => Number.numeral? 16 ds

/-- A number in hexadecimal behind `0x`, with at least so many digits. -/
def hexText (width n : Nat) : String :=
  String.ofList ('0' :: 'x' :: Number.padded 16 width n)

/-- An unsigned number. -/
inductive HexOrUnsigned where
  | hex (t : Restricted .hexUnsigned)
  | decimal (n : UnsignedInt)
  deriving DecidableEq, Inhabited

/-- The domain of a PCI address. -/
inductive PciDomain where
  | hex (t : Restricted .hexPciDomain)
  | decimal (n : UnsignedShort)
  deriving DecidableEq, Inhabited

/-- The bus of a PCI address. -/
inductive PciBus where
  | hex (t : Restricted .hexPciBus)
  | decimal (n : UnsignedByte)
  deriving DecidableEq, Inhabited

/-- The slot of a PCI address. -/
inductive PciSlot where
  | hex (t : Restricted .hexPciSlot)
  | decimal (n : Ranged .pciSlot)
  deriving DecidableEq, Inhabited

/-- The function of a PCI address. -/
inductive PciFunction where
  | hex (t : Restricted .hexPciFunction)
  | decimal (n : Ranged .pciFunction)
  deriving DecidableEq, Inhabited

namespace HexOrUnsigned

/-- A number in hexadecimal. -/
def ofNumber (n : UnsignedInt) : HexOrUnsigned :=
  hex ⟨hexText 1 n.val.toNat⟩

/-- The number, if it is one of 32 bits. -/
def number? : HexOrUnsigned → Option UnsignedInt
  | hex t => (hexValue? t.text).bind fun n => Number.Bounded.ofInt? _ _ n
  | decimal n => some n

end HexOrUnsigned

/-- A domain in hexadecimal, in four digits at least. -/
def PciDomain.ofNumber (n : UnsignedShort) : PciDomain :=
  hex ⟨hexText 4 n.val.toNat⟩

/-- A bus in hexadecimal, in two digits at least. -/
def PciBus.ofNumber (n : UnsignedByte) : PciBus :=
  hex ⟨hexText 2 n.val.toNat⟩

namespace PciSlot

/-- A slot in hexadecimal, in two digits at least; there are 32 slots. -/
def ofNumber? (n : UnsignedByte) : Option PciSlot :=
  (Ranged.of? (k := .pciSlot) n).map fun _ => hex ⟨hexText 2 n.val.toNat⟩

/-- The number of a slot. -/
def number? : PciSlot → Option UnsignedByte
  | hex t => (hexValue? t.text).bind fun n => Number.Bounded.ofInt? _ _ n
  | decimal n => some n.val

end PciSlot

/-- A function in hexadecimal; there are 8 functions. -/
def PciFunction.ofNumber? (n : UnsignedByte) : Option PciFunction :=
  (Ranged.of? (k := .pciFunction) n).map fun _ => hex ⟨hexText 1 n.val.toNat⟩

end GuestXml
