import EdgeSync.Schedule.Field
import EdgeSync.Time.Civil

/-!
# Calendar Schedules

A calendar schedule allows some values of each unit of civil time. The search for
the next occurrence goes through years, months, days, hours, minutes and seconds
in ascending order. The first value tried of a unit is that of the starting
moment as long as no larger unit has moved on, and the least value afterwards;
`Pins` records which units still start there.

## Main definitions

- `Calendar`: the values allowed for each unit
- `Calendar.read?`: read a calendar expression of six fields or seven
- `Calendar.nextFrom?`: the first occurrence from a moment on
-/

namespace EdgeSync.Schedule

open EdgeSync.Time

/-- The values allowed for each unit, each list in ascending order. An absent
list of years allows every year of the unit. -/
structure Calendar where
  seconds : List Nat
  minutes : List Nat
  hours : List Nat
  days : List Nat
  months : List Nat
  weekdays : List Nat
  years : Option (List Nat)
  deriving DecidableEq, Repr

namespace Calendar

/-! ## Reading -/

/-- One field together with its values. -/
def readValues (u : TimeUnit) : Reader (Option (List Nat)) := fun cs =>
  (readField u cs).map fun r => (fieldValues? u r.1, r.2)

/-- Read a whole expression: six fields and optionally the years. -/
def read? (cs : List Char) : Option Calendar := do
  let (seconds, cs) ← readValues .second cs
  let (minutes, cs) ← readValues .minute cs
  let (hours, cs) ← readValues .hour cs
  let (days, cs) ← readValues .day cs
  let (months, cs) ← readValues .month cs
  let (weekdays, cs) ← readValues .weekday cs
  let (years, cs) := match readValues .year cs with
    | some (years, rest) => (some years, rest)
    | none => (none, cs)
  if cs ≠ [] then none
  else
    let years ← match years with
      | none => some none
      | some years => years.map some
    return ⟨← seconds, ← minutes, ← hours, ← days, ← months, ← weekdays, years⟩

/-- The years of the search, in ascending order. -/
def yearValues (c : Calendar) : List Nat :=
  c.years.getD TimeUnit.year.values

/-- Whether a moment has an allowed value in every unit. -/
def allows (c : Calendar) (m : Moment) : Bool :=
  c.seconds.contains m.second && c.minutes.contains m.minute && c.hours.contains m.hour &&
    c.days.contains m.day && c.months.contains m.month && c.weekdays.contains m.weekday &&
    c.yearValues.any fun y => (y : Int) == m.year

/-! ## Searching -/

/-- The units whose first value is still taken from the starting moment. -/
structure Pins where
  month : Bool
  day : Bool
  hour : Bool
  minute : Bool
  second : Bool
  deriving DecidableEq, Repr

/-- Every unit starts at the starting moment. -/
def Pins.all : Pins := ⟨true, true, true, true, true⟩

/-- The result of looking through a list of candidates. -/
inductive Search where
  | found (m : Moment)
  | wrongDay
  | exhausted
  deriving DecidableEq, Repr

/-- Visit candidates in order until one of them gives a result. -/
def sweep (visit : Nat → Pins → Search × Pins) : List Nat → Pins → Search × Pins
  | [], pins => (.exhausted, pins)
  | n :: rest, pins =>
    match visit n pins with
    | (.exhausted, pins) => sweep visit rest pins
    | answer => answer

/-- Visit days in order; a day of the wrong weekday gives way to the next one. -/
def sweepDays (visit : Nat → Pins → Search × Pins) : List Nat → Pins → Search × Pins
  | [], pins => (.exhausted, pins)
  | n :: rest, pins =>
    match visit n pins with
    | (.found m, pins) => (.found m, pins)
    | (_, pins) => sweepDays visit rest pins

/-- The candidates not below a bound. -/
def candidates (values : List Nat) (bound : Nat) : List Nat :=
  values.filter (bound ≤ ·)

/-- Seconds of one minute. -/
def searchSeconds (c : Calendar) (q : Moment) (at_ : Moment) (pins : Pins) : Search × Pins :=
  let bound := if pins.second then q.second else TimeUnit.second.least
  let pins := { pins with second := false }
  sweep
    (fun second pins =>
      let m := { at_ with second }
      (if c.weekdays.contains m.weekday then .found m else .wrongDay, pins))
    (candidates c.seconds bound) pins

/-- Minutes of one hour. -/
def searchMinutes (c : Calendar) (q : Moment) (at_ : Moment) (pins : Pins) : Search × Pins :=
  let bound := if pins.minute then q.minute else TimeUnit.minute.least
  let pins := { pins with minute := false }
  -- If the minute has to move on, the seconds begin with the least one.
  let pins := if c.minutes.contains bound then pins else { pins with second := false }
  sweep
    (fun minute pins =>
      match searchSeconds c q { at_ with minute } pins with
      | (.exhausted, pins) => (.exhausted, { pins with minute := false, second := false })
      | answer => answer)
    (candidates c.minutes bound) pins

/-- Hours of one day. -/
def searchHours (c : Calendar) (q : Moment) (at_ : Moment) (pins : Pins) : Search × Pins :=
  let bound := if pins.hour then q.hour else TimeUnit.hour.least
  let pins := { pins with hour := false }
  let pins := if c.hours.contains bound then pins
    else { pins with minute := false, second := false }
  sweep
    (fun hour pins =>
      match searchMinutes c q { at_ with hour } pins with
      | (.exhausted, pins) =>
        (.exhausted, { pins with hour := false, minute := false, second := false })
      | answer => answer)
    (candidates c.hours bound) pins

/-- Days of one month. -/
def searchDays (c : Calendar) (q : Moment) (at_ : Moment) (pins : Pins) : Search × Pins :=
  let bound := if pins.day then q.day else TimeUnit.day.least
  let pins := { pins with day := false }
  let pins := if c.days.contains bound then pins
    else { pins with hour := false, minute := false, second := false }
  -- A month that is too short for the bound is left by way of its last day.
  let last := monthLength at_.year at_.month
  sweepDays
    (fun day pins =>
      match searchHours c q { at_ with day } pins with
      | (.exhausted, pins) => (.exhausted, ⟨pins.month, false, false, false, false⟩)
      | answer => answer)
    ((candidates c.days (min bound last)).filter (· ≤ last)) pins

/-- Months of one year. -/
def searchMonths (c : Calendar) (q : Moment) (year : Int) (pins : Pins) : Search × Pins :=
  let bound := if pins.month then q.month else TimeUnit.month.least
  let pins := { pins with month := false }
  let pins := if c.months.contains bound then pins else ⟨false, false, false, false, false⟩
  sweep
    (fun month pins =>
      match searchDays c q ⟨year, month, 1, 0, 0, 0⟩ pins with
      | (.exhausted, _) => (.exhausted, ⟨false, false, false, false, false⟩)
      | answer => answer)
    (candidates c.months bound) pins

/-- The first occurrence from a moment on. A moment in a negative year has none. -/
def nextFrom? (c : Calendar) (q : Moment) : Option Moment :=
  if q.year < 0 then none
  else
    let answer := sweep (fun year pins => searchMonths c q year pins)
      (candidates c.yearValues q.year.toNat) Pins.all
    match answer.1 with
    | .found m => some m
    | _ => none

end Calendar

end EdgeSync.Schedule
