import GuestXml.Number.Bounded

/-!
# Binary floating point

A finite double is a sign and a significand times a power of two. A decimal text is rounded
to the nearest double, and to the even significand half way between two of them. A double
is written with the fewest digits that read back, always positionally and without a point
if there is nothing behind it. All of this is exact arithmetic on whole numbers.
-/

namespace GuestXml.Number

/-- A double-precision number. -/
inductive Double where
  | nan
  | infinite (negative : Bool)
  /-- The significand times two to the exponent. -/
  | finite (negative : Bool) (significand : Nat) (exponent : Int)
  deriving DecidableEq, Repr

namespace Double

/-- The least exponent. -/
def minExponent : Int := -1074

/-- The greatest exponent. -/
def maxExponent : Int := 971

/-! ### Rounding -/

/-- A quotient rounded to the nearest whole number, and to the even one of two. -/
def roundQuotient (num den : Nat) : Nat :=
  let q := num / den
  let r := num % den
  if 2 * r < den then q
  else if den < 2 * r then q + 1
  else if q % 2 = 0 then q else q + 1

/-- A quotient times a power of two, as a quotient. -/
def scaled (num den : Nat) (exponent : Int) : Nat × Nat :=
  (num * Nat.pow 2 exponent.toNat, den * Nat.pow 2 (-exponent).toNat)

/-- The double nearest to a positive quotient. -/
def ofQuotient (negative : Bool) (num den : Nat) : Double :=
  let guess := max ((num.log2 : Int) - den.log2 - 53) minExponent
  let (n₀, d₀) := scaled num den (-guess)
  let exponent := if Nat.pow 2 53 ≤ n₀ / d₀ then guess + 1 else guess
  let (n, d) := scaled num den (-exponent)
  let significand := roundQuotient n d
  let (significand, exponent) :=
    if significand = Nat.pow 2 53 then (Nat.pow 2 52, exponent + 1) else (significand, exponent)
  if maxExponent < exponent then .infinite negative else .finite negative significand exponent

/-- The double nearest to digits times a power of ten. Magnitudes far out of range are
settled without computing the power. -/
def ofDecimal (negative : Bool) (digits : Nat) (exponent : Int) : Double :=
  let leading : Int := (Nat.toDigits 10 digits).length + exponent
  if digits = 0 ∨ leading < -330 then .finite negative 0 minExponent
  else if 310 < leading then .infinite negative
  else ofQuotient negative (digits * Nat.pow 10 exponent.toNat) (Nat.pow 10 (-exponent).toNat)

/-! ### Reading -/

/-- A sign in front of a text, and what follows it. -/
def splitSign : List Char → Bool × List Char
  | '-' :: r => (true, r)
  | '+' :: r => (false, r)
  | r => (false, r)

/-- The exponent that follows the digits, zero if there is none. -/
def exponent? : List Char → Option Int
  | [] => some 0
  | e :: r =>
    if e = 'e' ∨ e = 'E' then
      let (negative, ds) := splitSign r
      (numeral? 10 ds).map fun n => if negative then -(n : Int) else n
    else none

/-- Digits with an optional point among them, and an optional exponent. -/
def decimal? (negative : Bool) (cs : List Char) : Option Double :=
  let whole := cs.takeWhile Char.isDigit
  let (fraction, rest) := match cs.dropWhile Char.isDigit with
    | '.' :: r => (r.takeWhile Char.isDigit, r.dropWhile Char.isDigit)
    | r => ([], r)
  match numeral? 10 (whole ++ fraction), exponent? rest with
  | some digits, some e => some (ofDecimal negative digits (e - fraction.length))
  | _, _ => none

/-- Reads a number: a decimal, or a word for infinity or for no number. -/
def ofText? (cs : List Char) : Option Double :=
  let (negative, r) := splitSign cs
  let word := String.ofList (r.map Char.toLower)
  if word = "inf" ∨ word = "infinity" then some (.infinite negative)
  else if word = "nan" then some .nan
  else decimal? negative r

/-! ### Writing -/

/-- Whether digits times a power of ten read back as significand times a power of two: they
lie between the middles to the two neighbours, which belong to an even significand. -/
def readsBack (significand : Nat) (exponent : Int) (digits : Nat) (tens : Int) : Bool :=
  let low := if significand = Nat.pow 2 52 ∧ minExponent < exponent then 4 * significand - 1
    else 4 * significand - 2
  let high := 4 * significand + 2
  let shift := exponent - 2
  let number := digits * Nat.pow 10 tens.toNat * Nat.pow 2 (-shift).toNat
  let unit := Nat.pow 2 shift.toNat * Nat.pow 10 (-tens).toNat
  if significand % 2 = 0 then low * unit ≤ number && number ≤ high * unit
  else low * unit < number && number < high * unit

/-- On the grid of a power of ten, the neighbour of a number that reads back as it: the
nearer of the two if both do, and the upper one if they are equally near. -/
def onGrid? (significand : Nat) (exponent : Int) (tens : Int) : Option Nat :=
  let num := significand * Nat.pow 2 exponent.toNat * Nat.pow 10 (-tens).toNat
  let den := Nat.pow 2 (-exponent).toNat * Nat.pow 10 tens.toNat
  let below := num / den
  let nearer := if 2 * (num % den) < den then below else below + 1
  let further := if nearer = below then below + 1 else below
  if nearer ≠ 0 ∧ readsBack significand exponent nearer tens then some nearer
  else if further ≠ 0 ∧ readsBack significand exponent further tens then some further
  else none

/-- Whether a number is less than a power of ten. -/
def isBelowPower (significand : Nat) (exponent tens : Int) : Bool :=
  significand * Nat.pow 2 exponent.toNat * Nat.pow 10 (-tens).toNat <
    Nat.pow 2 (-exponent).toNat * Nat.pow 10 tens.toNat

/-- The fewest digits that read back, and their power of ten. The grids are tried from the
one above the number's leading digit, to which that digit may be rounded up. -/
def shortest (significand : Nat) (exponent : Int) : Nat × Int :=
  let grids := (List.range 660).map fun (i : Nat) => 310 - (i : Int)
  let fine := (grids.dropWhile fun k => isBelowPower significand exponent (k - 1)).take 25
  (fine.findSome? fun k => (onGrid? significand exponent k).map (·, k)).getD (0, 0)

/-- Digits times a power of ten, positionally. -/
def positional (digits : Nat) (tens : Int) : List Char :=
  let ds := Nat.toDigits 10 digits
  if 0 ≤ tens then ds ++ List.replicate tens.toNat '0'
  else
    let places := (-tens).toNat
    if places < ds.length then
      ds.take (ds.length - places) ++ '.' :: ds.drop (ds.length - places)
    else ['0', '.'] ++ List.replicate (places - ds.length) '0' ++ ds

/-- The written form. -/
def toText : Double → String
  | nan => "NaN"
  | infinite negative => if negative then "-inf" else "inf"
  | finite negative significand exponent =>
    let magnitude :=
      if significand = 0 then ['0']
      else
        let (digits, tens) := shortest significand exponent
        positional digits tens
    String.ofList (if negative then '-' :: magnitude else magnitude)

/-- Neither infinite nor no number. -/
def isFinite : Double → Bool
  | finite .. => true
  | _ => false

end Double

end GuestXml.Number
