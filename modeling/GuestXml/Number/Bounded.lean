/-!
# Whole numbers between bounds

A bounded number is written in decimal, with a minus sign if it is negative. Reading also
takes a plus sign and zeros in front, and takes a minus sign only where the bounds admit
negative numbers.
-/

namespace GuestXml.Number

/-! ### Digits

Numerals in a base up to sixteen: the digits of a number, padded with zeros to a least
length, and the number that digits denote. Only ASCII digits count, letters in either case. -/

/-- The value of a digit in a base up to sixteen. -/
def digitValue? (base : Nat) (c : Char) : Option Nat :=
  let n :=
    if '0' ≤ c ∧ c ≤ '9' then c.toNat - '0'.toNat
    else if 'a' ≤ c ∧ c ≤ 'f' then c.toNat - 'a'.toNat + 10
    else if 'A' ≤ c ∧ c ≤ 'F' then c.toNat - 'A'.toNat + 10
    else base
  if n < base then some n else none

/-- The number a list of digits denotes; the empty list denotes zero. -/
def digitsValue? (base : Nat) (cs : List Char) : Option Nat :=
  cs.foldlM (fun n c => (digitValue? base c).map (n * base + ·)) 0

/-- The number a numeral denotes, which has at least one digit. -/
def numeral? (base : Nat) (cs : List Char) : Option Nat :=
  if cs.isEmpty then none else digitsValue? base cs

/-- The digits of a number in a base, with zeros in front up to a width. -/
def padded (base width n : Nat) : List Char :=
  let ds := Nat.toDigits base n
  List.replicate (width - ds.length) '0' ++ ds

/-! ### Bounded numbers -/

/-- A whole number between two bounds, both included. -/
structure Bounded (lo hi : Int) where
  val : Int
  lo_le : lo ≤ val
  le_hi : val ≤ hi
  deriving DecidableEq, Repr

/-- The whole number an optional sign and decimal digits denote. -/
def integer? (signed : Bool) : List Char → Option Int
  | '+' :: ds => (numeral? 10 ds).map Int.ofNat
  | '-' :: ds => if signed then (numeral? 10 ds).map fun n => -(n : Int) else none
  | ds => (numeral? 10 ds).map Int.ofNat

namespace Bounded

variable {lo hi : Int}

/-- A number, if it is within the bounds. -/
def ofInt? (lo hi n : Int) : Option (Bounded lo hi) :=
  if h : lo ≤ n ∧ n ≤ hi then some ⟨n, h.1, h.2⟩ else none

/-- A number whose bounds are settled where it is written. -/
def lit (n : Int) (h : lo ≤ n ∧ n ≤ hi := by decide) : Bounded lo hi :=
  ⟨n, h.1, h.2⟩

/-- The number in decimal. -/
def toText (n : Bounded lo hi) : String :=
  toString n.val

/-- Reads a decimal number between the bounds. -/
def ofText? (lo hi : Int) (cs : List Char) : Option (Bounded lo hi) :=
  (integer? (lo < 0) cs).bind (ofInt? lo hi)

theorem ofInt?_eq_some_iff {n : Int} {b : Bounded lo hi} :
    ofInt? lo hi n = some b ↔ b.val = n := by
  unfold ofInt?
  split
  · rename_i h
    cases b
    simp only [Option.some.injEq, Bounded.mk.injEq]
    exact eq_comm
  · rename_i h
    simp only [reduceCtorEq, false_iff]
    rintro rfl
    exact h ⟨b.lo_le, b.le_hi⟩

@[simp] theorem ofInt?_val (b : Bounded lo hi) : ofInt? lo hi b.val = some b :=
  ofInt?_eq_some_iff.mpr rfl

end Bounded

end GuestXml.Number
