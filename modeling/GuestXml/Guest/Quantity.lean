import GuestXml.Value.Integer
import GuestXml.Value.Restricted

/-!
# Switches and sizes

Settings that are yes or no, on or off, and sizes in units of decimal or binary multiples.
-/

namespace GuestXml

/-- A choice between yes and no. -/
inductive YesNo where
  | yes
  | no
  deriving DecidableEq, Inhabited

instance : Enumeration YesNo where
  name := "EYesNo"
  first := .yes
  others := [.no]
  spelling
    | .yes => "yes"
    | .no => "no"
  complete := by intro a; cases a <;> decide
  nodup_spellings := by decide

/-- A switch. -/
inductive OnOff where
  | on
  | off
  deriving DecidableEq, Inhabited

instance : Enumeration OnOff where
  name := "EOnOff"
  first := .on
  others := [.off]
  spelling
    | .on => "on"
    | .off => "off"
  complete := by intro a; cases a <;> decide
  nodup_spellings := by decide

/-- The unit of a scaled integer. The first one is meant where none is given. -/
inductive SizeUnit where
  | kib
  | b
  | bytes
  | kb
  | k
  | mb
  | m
  | mib
  | gb
  | g
  | gib
  | tb
  | t
  | tib
  deriving DecidableEq, Inhabited

instance : Enumeration SizeUnit where
  name := "EUnit"
  first := .kib
  others := [.b, .bytes, .kb, .k, .mb, .m, .mib, .gb, .g, .gib, .tb, .t, .tib]
  spelling
    | .kib => "KiB"
    | .b => "B"
    | .bytes => "bytes"
    | .kb => "KB"
    | .k => "K"
    | .mb => "MB"
    | .m => "M"
    | .mib => "MiB"
    | .gb => "GB"
    | .g => "G"
    | .gib => "GiB"
    | .tb => "TB"
    | .t => "T"
    | .tib => "TiB"
  complete := by intro a; cases a <;> decide
  nodup_spellings := by decide

/-- A size in some unit, such as the 4096 MiB of `<memory unit="MiB">4096</memory>`. -/
structure ScaledInteger where
  unit : Option SizeUnit := none
  value : UnsignedLong := default
  deriving DecidableEq, Inhabited

/-- Yes for true. -/
def YesNo.ofBool (b : Bool) : YesNo :=
  if b then .yes else .no

/-- The number of bytes of a unit. -/
def SizeUnit.size : SizeUnit → Nat
  | .b | .bytes => 1
  | .kb => 1000
  | .k | .kib => 1024
  | .mb => 1000 * 1000
  | .m | .mib => 1024 * 1024
  | .gb => 1000 * 1000 * 1000
  | .g | .gib => 1024 * 1024 * 1024
  | .tb => 1000 * 1000 * 1000 * 1000
  | .t | .tib => 1024 * 1024 * 1024 * 1024

namespace ScaledInteger

/-- A size in MiB. -/
def ofMib (n : UnsignedLong) : ScaledInteger :=
  { unit := some .mib, value := n }

/-- The size in bytes, if that is a number of 64 bits. -/
def toBytes? (s : ScaledInteger) : Option UnsignedLong :=
  Number.Bounded.ofInt? _ _ (s.value.val * (s.unit.getD .kib).size)

end ScaledInteger

end GuestXml
