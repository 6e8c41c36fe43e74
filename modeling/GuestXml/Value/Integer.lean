import GuestXml.Number.Bounded

/-!
# Integer types

The eight integer types of the schema: unsigned and signed numbers of 8, 16, 32 and 64
bits, under the names that schemas use for them.
-/

namespace GuestXml

/-- An integer type. -/
inductive IntegerKind where
  | unsignedByte
  | unsignedShort
  | unsignedInt
  | unsignedLong
  | byte
  | short
  | int
  | long
  deriving DecidableEq, Repr

namespace IntegerKind

/-- The name in messages. -/
def name : IntegerKind → String
  | unsignedByte => "unsignedByte"
  | unsignedShort => "unsignedShort"
  | unsignedInt => "unsignedInt"
  | unsignedLong => "unsignedLong"
  | byte => "byte"
  | short => "short"
  | int => "int"
  | long => "long"

/-- The least number. -/
@[reducible] def min : IntegerKind → Int
  | unsignedByte | unsignedShort | unsignedInt | unsignedLong => 0
  | byte => -128
  | short => -32768
  | int => -2147483648
  | long => -9223372036854775808

/-- The greatest number. -/
@[reducible] def max : IntegerKind → Int
  | unsignedByte => 255
  | unsignedShort => 65535
  | unsignedInt => 4294967295
  | unsignedLong => 18446744073709551615
  | byte => 127
  | short => 32767
  | int => 2147483647
  | long => 9223372036854775807

/-- The numbers of the type. -/
abbrev Carrier (k : IntegerKind) : Type :=
  Number.Bounded k.min k.max

/-- Every type has zero. -/
def zero : (k : IntegerKind) → k.Carrier
  | unsignedByte | unsignedShort | unsignedInt | unsignedLong => .lit 0
  | byte | short | int | long => .lit 0

/-- All integer types. -/
def all : List IntegerKind :=
  [unsignedByte, unsignedShort, unsignedInt, unsignedLong, byte, short, int, long]

end IntegerKind

/-- Numbers of 8 bits. -/
abbrev UnsignedByte : Type := IntegerKind.unsignedByte.Carrier

/-- Numbers of 16 bits. -/
abbrev UnsignedShort : Type := IntegerKind.unsignedShort.Carrier

/-- Numbers of 32 bits. -/
abbrev UnsignedInt : Type := IntegerKind.unsignedInt.Carrier

/-- Numbers of 64 bits. -/
abbrev UnsignedLong : Type := IntegerKind.unsignedLong.Carrier

/-- Numbers of 32 bits with a sign. -/
abbrev SignedInt : Type := IntegerKind.int.Carrier

instance (k : IntegerKind) : Inhabited k.Carrier := ⟨k.zero⟩
instance : Inhabited UnsignedByte := ⟨.lit 0⟩
instance : Inhabited UnsignedShort := ⟨.lit 0⟩
instance : Inhabited UnsignedInt := ⟨.lit 0⟩
instance : Inhabited UnsignedLong := ⟨.lit 0⟩
instance : Inhabited SignedInt := ⟨.lit 0⟩

/-- The last 32 bits of a number. -/
def UnsignedInt.ofNat (n : Nat) : UnsignedInt :=
  ⟨(n % 4294967296 : Nat), Int.natCast_nonneg _, by show _ ≤ (4294967295 : Int); omega⟩

/-- The product of numbers of 32 bits, if it is one of them. -/
def UnsignedInt.product? (ns : List UnsignedInt) : Option UnsignedInt :=
  ns.foldlM (fun n m => Number.Bounded.ofInt? _ _ (n.val * m.val)) (.lit 1)

end GuestXml
