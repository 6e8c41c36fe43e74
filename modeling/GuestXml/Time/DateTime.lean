import GuestXml.Number.Bounded
import GuestXml.Text.Character

/-!
# Dates and times of day

A date in the Gregorian calendar, carried on in both directions, with a time of day down to
nanoseconds and no time zone. The sixtieth second is admitted as a leap second. It is
written as `2024-02-29T12:30:00`, with three, six or nine places of a fraction if there is
one, and with a sign if the year is not one of four digits.
-/

namespace GuestXml.Time

/-- Whether a year has a 29th of February. -/
def isLeapYear (year : Int) : Bool :=
  year % 4 == 0 && (year % 100 != 0 || year % 400 == 0)

/-- The number of days of a month. -/
def daysInMonth (year : Int) (month : Nat) : Nat :=
  if month = 2 then if isLeapYear year then 29 else 28
  else if month = 4 ∨ month = 6 ∨ month = 9 ∨ month = 11 then 30
  else 31

/-- The first and the last year. -/
def yearRange : Int × Int := (-262143, 262142)

/-- A date and a time of day that exist. -/
structure DateTime where
  year : Int
  month : Nat
  day : Nat
  hour : Nat
  minute : Nat
  second : Nat
  nanosecond : Nat
  year_mem : yearRange.1 ≤ year ∧ year ≤ yearRange.2
  month_mem : 1 ≤ month ∧ month ≤ 12
  day_mem : 1 ≤ day ∧ day ≤ daysInMonth year month
  hour_lt : hour < 24
  minute_lt : minute < 60
  second_le : second ≤ 60
  nanosecond_lt : nanosecond < 1000000000
  deriving DecidableEq, Repr

namespace DateTime

/-- The date and time with given parts, if it exists. -/
def of? (year : Int) (month day hour minute second nanosecond : Nat) : Option DateTime :=
  if h : (yearRange.1 ≤ year ∧ year ≤ yearRange.2) ∧ (1 ≤ month ∧ month ≤ 12) ∧
      (1 ≤ day ∧ day ≤ daysInMonth year month) ∧ hour < 24 ∧ minute < 60 ∧ second ≤ 60 ∧
      nanosecond < 1000000000 then
    some ⟨year, month, day, hour, minute, second, nanosecond,
      h.1, h.2.1, h.2.2.1, h.2.2.2.1, h.2.2.2.2.1, h.2.2.2.2.2.1, h.2.2.2.2.2.2⟩
  else none

/-- The start of the year 1970. -/
def epoch : DateTime :=
  ⟨1970, 1, 1, 0, 0, 0, 0, by decide, by decide, by decide, by decide, by decide, by decide,
    by decide⟩

/-! ### Writing -/

/-- The year in four digits, or with a sign in at least four. -/
def writtenYear (year : Int) : List Char :=
  if 0 ≤ year ∧ year ≤ 9999 then Number.padded 10 4 year.toNat
  else (if year < 0 then '-' else '+') :: Number.padded 10 4 year.natAbs

/-- The fraction of a second in three, six or nine places; nothing if it is zero. -/
def writtenFraction (nanosecond : Nat) : List Char :=
  if nanosecond = 0 then []
  else if nanosecond % 1000000 = 0 then '.' :: Number.padded 10 3 (nanosecond / 1000000)
  else if nanosecond % 1000 = 0 then '.' :: Number.padded 10 6 (nanosecond / 1000)
  else '.' :: Number.padded 10 9 nanosecond

/-- The written form. -/
def toText (t : DateTime) : String :=
  String.ofList <|
    writtenYear t.year ++ '-' :: Number.padded 10 2 t.month ++ '-' :: Number.padded 10 2 t.day ++
      'T' :: Number.padded 10 2 t.hour ++ ':' :: Number.padded 10 2 t.minute ++
      ':' :: Number.padded 10 2 t.second ++ writtenFraction t.nanosecond

/-! ### Reading -/

/-- A number of one digit at least and some digits at most, and what follows it. -/
def takeNumber? (most : Nat) (cs : List Char) : Option (Nat × List Char) :=
  let ds := (cs.takeWhile Char.isDigit).take most
  (Number.numeral? 10 ds).map (·, cs.drop ds.length)

/-- A year, which has four digits at most unless it has a sign. -/
def takeYear? (cs : List Char) : Option (Int × List Char) :=
  match cs.dropWhile Text.isBlank with
  | '-' :: r => (takeNumber? r.length r).map fun (n, rest) => (-(n : Int), rest)
  | '+' :: r => (takeNumber? r.length r).map fun (n, rest) => ((n : Int), rest)
  | r => (takeNumber? 4 r).map fun (n, rest) => ((n : Int), rest)

/-- Any other part, which has one or two digits and may have blanks in front. -/
def takePart? (cs : List Char) : Option (Nat × List Char) :=
  takeNumber? 2 (cs.dropWhile Text.isBlank)

/-- What follows a character that has to come next. -/
def skip? (c : Char) : List Char → Option (List Char)
  | d :: r => if d = c then some r else none
  | [] => none

/-- The nanoseconds of a fraction; places behind the ninth are left out. -/
def fraction? : List Char → Option Nat
  | [] => some 0
  | '.' :: ds =>
    if ds.all Char.isDigit then
      let places := ds.take 9
      (Number.numeral? 10 places).map (· * Nat.pow 10 (9 - places.length))
    else none
  | _ => none

/-- Reads a date and time. -/
def ofText? (cs : List Char) : Option DateTime := do
  let (year, cs) ← takeYear? cs
  let (month, cs) ← takePart? (← skip? '-' cs)
  let (day, cs) ← takePart? (← skip? '-' cs)
  let (hour, cs) ← takePart? (← skip? 'T' cs)
  let (minute, cs) ← takePart? (← skip? ':' cs)
  let (second, cs) ← takePart? (← skip? ':' cs)
  of? year month day hour minute second (← fraction? cs)

end DateTime

end GuestXml.Time
