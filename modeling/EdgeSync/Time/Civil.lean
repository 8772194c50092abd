/-!
# Civil Time

The proleptic Gregorian calendar in universal time. Dates are counted in days
from the beginning of 1970; within an era of 400 years the years begin in March,
so that the leap day is the last day of its year.

## Main definitions

- `isLeap`, `monthLength`: the lengths of years and months
- `dayNumber`, `dateOfDay`: dates as counted days
- `Moment`: a date with a time of day
- `weekday`: the day of the week, 1 for Sunday
-/

namespace EdgeSync.Time

/-! ## Dates -/

/-- A leap year is divisible by four, and by 400 if it ends a century. -/
def isLeap (year : Int) : Bool :=
  year % 4 == 0 && (year % 100 != 0 || year % 400 == 0)

/-- The number of days in a month. -/
def monthLength (year : Int) (month : Nat) : Nat :=
  if month = 2 then (if isLeap year then 29 else 28)
  else if month = 4 ∨ month = 6 ∨ month = 9 ∨ month = 11 then 30
  else 31

/-- The number of a date, zero for the first of January 1970. -/
def dayNumber (year : Int) (month day : Nat) : Int :=
  let y : Int := if month ≤ 2 then year - 1 else year
  let era := y / 400
  let yearOfEra := y % 400
  let monthFromMarch : Int := if month ≤ 2 then (month : Int) + 9 else (month : Int) - 3
  let dayOfYear := (153 * monthFromMarch + 2) / 5 + day - 1
  let dayOfEra := yearOfEra * 365 + yearOfEra / 4 - yearOfEra / 100 + dayOfYear
  era * 146097 + dayOfEra - 719468

/-- The year, month and day with a given number. -/
def dateOfDay (number : Int) : Int × Nat × Nat :=
  let z := number + 719468
  let era := z / 146097
  let dayOfEra := z % 146097
  let yearOfEra :=
    (dayOfEra - dayOfEra / 1460 + dayOfEra / 36524 - dayOfEra / 146096) / 365
  let dayOfYear := dayOfEra - (365 * yearOfEra + yearOfEra / 4 - yearOfEra / 100)
  let monthFromMarch := (5 * dayOfYear + 2) / 153
  let day := dayOfYear - (153 * monthFromMarch + 2) / 5 + 1
  let month := if monthFromMarch < 10 then monthFromMarch + 3 else monthFromMarch - 9
  let year := yearOfEra + era * 400 + (if month ≤ 2 then 1 else 0)
  (year, month.toNat, day.toNat)

/-- The day of the week, from 1 for Sunday to 7 for Saturday. -/
def weekday (year : Int) (month day : Nat) : Nat :=
  ((dayNumber year month day + 4) % 7).toNat + 1

/-! ## Moments -/

/-- A whole second of civil time. -/
structure Moment where
  year : Int
  month : Nat
  day : Nat
  hour : Nat
  minute : Nat
  second : Nat
  deriving DecidableEq, Repr

namespace Moment

/-- Seconds from the beginning of 1970. -/
def toUnix (m : Moment) : Int :=
  dayNumber m.year m.month m.day * 86400 + (m.hour * 3600 + m.minute * 60 + m.second : Nat)

/-- The moment some seconds from the beginning of 1970. -/
def ofUnix (seconds : Int) : Moment :=
  let date := dateOfDay (seconds / 86400)
  let rest := (seconds % 86400).toNat
  ⟨date.1, date.2.1, date.2.2, rest / 3600, rest % 3600 / 60, rest % 60⟩

/-- The day of the week of a moment. -/
def weekday (m : Moment) : Nat :=
  Time.weekday m.year m.month m.day

end Moment

end EdgeSync.Time
