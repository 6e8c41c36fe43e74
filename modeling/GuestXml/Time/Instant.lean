import GuestXml.Number.Bounded
import GuestXml.Time.DateTime

/-!
# Instants

A point in time counted in whole seconds from the start of 1970 in universal time, as far
as the calendar of `DateTime` reaches. It is written as that count; for people it is also
shown as a date and time.
-/

namespace GuestXml.Time

/-- The first and the last second that can be counted. -/
def secondRange : Int × Int := (-8334601228800, 8210266876799)

/-- Seconds since the start of 1970. -/
abbrev Instant : Type :=
  Number.Bounded secondRange.1 secondRange.2

namespace Instant

/-- The start of 1970. -/
def epoch : Instant := Number.Bounded.lit 0

/-- The instant a number of seconds after the start of 1970, if it can be counted. -/
def ofSeconds? (n : Int) : Option Instant :=
  Number.Bounded.ofInt? _ _ n

/-- The date a number of days after the start of 1970. The count goes by eras of 400 years
of 146097 days, and by years that begin in March, so that a leap day comes last. -/
def dateOfDays (days : Int) : Int × Nat × Nat :=
  let shifted := days + 719468
  let era := Int.fdiv shifted 146097
  let dayOfEra := (Int.fmod shifted 146097).toNat
  let yearOfEra :=
    (dayOfEra - dayOfEra / 1460 + dayOfEra / 36524 - dayOfEra / 146096) / 365
  let dayOfYear := dayOfEra - (365 * yearOfEra + yearOfEra / 4 - yearOfEra / 100)
  let marchMonth := (5 * dayOfYear + 2) / 153
  let day := dayOfYear - (153 * marchMonth + 2) / 5 + 1
  let month := if marchMonth < 10 then marchMonth + 3 else marchMonth - 9
  let year := era * 400 + yearOfEra + (if month ≤ 2 then 1 else 0)
  (year, month, day)

/-- The instant as a date and time in universal time. -/
def toCalendar (t : Instant) : String :=
  let (year, month, day) := dateOfDays (Int.fdiv t.val 86400)
  let second := (Int.fmod t.val 86400).toNat
  String.ofList <|
    DateTime.writtenYear year ++ '-' :: Number.padded 10 2 month ++ '-' :: Number.padded 10 2 day ++
      'T' :: Number.padded 10 2 (second / 3600) ++ ':' :: Number.padded 10 2 (second / 60 % 60) ++
      ':' :: Number.padded 10 2 (second % 60) ++ ['Z']

end Instant

end GuestXml.Time
