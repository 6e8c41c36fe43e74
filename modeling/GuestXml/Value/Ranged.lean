import GuestXml.Value.Integer

/-!
# Ranged numbers

Some numbers are narrower than the integer type they are read as. A ranged number may lie
outside its range until it is checked; checked ones are made by `Ranged.of?`, and neither
loading nor saving lets others pass. The least number of the range is the default.
-/

namespace GuestXml

/-- A range within an integer type. -/
inductive RangedKind where
  /-- A TCP port, or -1 to have one picked. -/
  | portNumber
  /-- A scheduling period in microseconds. -/
  | cpuPeriod
  /-- A scheduling quota in microseconds, or -1 for no limit. -/
  | cpuQuota
  | filterPriority
  | pciSlot
  | pciFunction
  deriving DecidableEq, Repr

namespace RangedKind

/-- The name in messages. -/
def name : RangedKind → String
  | portNumber => "PPortNumber"
  | cpuPeriod => "PCpuperiod"
  | cpuQuota => "PCpuquota"
  | filterPriority => "PFilterPriority"
  | pciSlot => "PPciSlot"
  | pciFunction => "PPciFunction"

/-- The integer type the numbers are read as. -/
@[reducible] def inner : RangedKind → IntegerKind
  | portNumber => .int
  | cpuPeriod => .unsignedLong
  | cpuQuota => .long
  | filterPriority => .int
  | pciSlot => .unsignedByte
  | pciFunction => .unsignedByte

/-- The least number of the range. -/
def min : (k : RangedKind) → k.inner.Carrier
  | portNumber => .lit (-1)
  | cpuPeriod => .lit 1000
  | cpuQuota => .lit (-1)
  | filterPriority => .lit (-1000)
  | pciSlot => .lit 0
  | pciFunction => .lit 0

/-- The greatest number of the range. -/
def max : (k : RangedKind) → k.inner.Carrier
  | portNumber => .lit 65535
  | cpuPeriod => .lit 1000000
  | cpuQuota => .lit 18446744073709551
  | filterPriority => .lit 1000
  | pciSlot => .lit 31
  | pciFunction => .lit 7

/-- All ranges. -/
def all : List RangedKind :=
  [portNumber, cpuPeriod, cpuQuota, filterPriority, pciSlot, pciFunction]

end RangedKind

/-- A number that is meant to lie in a range. -/
structure Ranged (k : RangedKind) where
  val : k.inner.Carrier
  deriving DecidableEq

namespace Ranged

variable {k : RangedKind}

/-- Whether a number lies in its range. -/
def isValid (n : Ranged k) : Bool :=
  k.min.val ≤ n.val.val && n.val.val ≤ k.max.val

/-- A number of the range. -/
def of? (n : k.inner.Carrier) : Option (Ranged k) :=
  if isValid (k := k) ⟨n⟩ then some ⟨n⟩ else none

instance : Inhabited (Ranged k) := ⟨⟨k.min⟩⟩

end Ranged

/-- A TCP port, or -1 to have one picked. -/
abbrev PortNumber : Type := Ranged .portNumber

namespace PortNumber

/-- Asks for a port to be picked. -/
def auto : PortNumber := ⟨.lit (-1)⟩

/-- Whether a port is to be picked. -/
def isAuto (p : PortNumber) : Bool :=
  p.val.val == -1

end PortNumber

end GuestXml
