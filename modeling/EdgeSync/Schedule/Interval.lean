import EdgeSync.Number.Binary64
import EdgeSync.Text.Quoted
import EdgeSync.Time.Instant

/-!
# Intervals

An interval is written as segments, each a decimal number and a unit, such as
`1h2m3s`. A number is read as a binary64 number, multiplied by the length of its
unit in seconds and rounded to whole nanoseconds. The interval is the sum of its
segments.

## Main definitions

- `IntervalFault`: why a text is no interval
- `unitScale?`: the length of a unit in seconds
- `segmentSpan?`: the length of one segment
- `readInterval`: read an interval
-/

namespace EdgeSync.Schedule

open EdgeSync.Number EdgeSync.Text EdgeSync.Time

/-! ## Faults -/

/-- Why a text is no interval. -/
inductive IntervalFault where
  | missing
  | noNumber (text : String)
  | badNumber (text : String)
  | noUnit (text : String)
  | unknownUnit (unit text : String)
  | outOfRange (text : String)
  | notPositive
  deriving DecidableEq, Repr

/-- The wording of a fault. -/
def IntervalFault.message : IntervalFault → String
  | missing => "missing duration after @every"
  | noNumber text => "invalid duration " ++ quoted text
  | badNumber text => "invalid number in duration " ++ quoted text
  | noUnit text => "missing unit in duration " ++ quoted text
  | unknownUnit unit text =>
    "unknown unit " ++ quoted unit ++ " in duration " ++ quoted text
  | outOfRange text => "duration out of range " ++ quoted text
  | notPositive => "interval must be positive"

/-! ## Numbers and units -/

/-- The characters of a number: decimal digits and points. -/
def isNumeral (c : Char) : Bool :=
  c.isDigit || c == '.'

/-- Whether a run of digits and points has at least one digit and at most one point. -/
def isDecimal (cs : List Char) : Bool :=
  cs.any Char.isDigit && cs.count '.' ≤ 1

/-- The value of a number with a point as a quotient. -/
def decimalValue (cs : List Char) : Nat × Nat :=
  let whole := cs.takeWhile Char.isDigit
  let fraction := (cs.dropWhile Char.isDigit).filter Char.isDigit
  let value := (whole ++ fraction).foldl (fun n c => 10 * n + (c.toNat - '0'.toNat)) 0
  (value, Nat.pow 10 fraction.length)

/-- The length of a unit in seconds, as a quotient. -/
def unitScale? (unit : List Char) : Option (Nat × Nat) :=
  if unit = ['h'] then some (3600, 1)
  else if unit = ['m'] then some (60, 1)
  else if unit = ['s'] then some (1, 1)
  else if unit = ['m', 's'] then some (1, 1000)
  else if unit = ['u', 's'] ∨ unit = ['\u00b5', 's'] then some (1, 1000000)
  else if unit = ['n', 's'] then some (1, 1000000000)
  else none

/-! ## Segments -/

/-- The nearest whole number of nanoseconds to a number of seconds, a tie going
to the even one; too long from `2 ^ 64` seconds on. -/
def spanOfSeconds? (x : Binary64) : Option Span :=
  let r := x.toRatio
  if Span.secondsLimit * r.2 ≤ r.1 then none
  else some ⟨roundDiv (r.1 * nanosPerSecond) r.2⟩

/-- The length of one segment. -/
def segmentSpan? (number : List Char) (scale : Nat × Nat) : Option Span := do
  let value ← Binary64.ofRatio (decimalValue number).1 (decimalValue number).2
  let unit ← Binary64.ofRatio scale.1 scale.2
  spanOfSeconds? (← value.mul unit)

/-- Add the segments of `cs` to a total. Each round takes a number and a unit
from the front, so `fuel` rounds are enough for a text of that length. -/
def addSegments (text : String) : Nat → Span → List Char → Except IntervalFault Span
  | _, total, [] => .ok total
  | 0, _, _ => .error (.noNumber text)
  | fuel + 1, total, cs =>
    let number := cs.takeWhile isNumeral
    let afterNumber := cs.dropWhile isNumeral
    let unit := afterNumber.takeWhile fun c => !isNumeral c
    let rest := afterNumber.dropWhile fun c => !isNumeral c
    if number.isEmpty then .error (.noNumber text)
    else if !isDecimal number then .error (.badNumber text)
    else if unit.isEmpty then .error (.noUnit text)
    else
      match unitScale? unit with
      | none => .error (.unknownUnit (String.ofList unit) text)
      | some scale =>
        match (segmentSpan? number scale).bind total.add? with
        | none => .error (.outOfRange text)
        | some total => addSegments text fuel total rest

/-- Read an interval. -/
def readInterval (cs : List Char) : Except IntervalFault Span :=
  if cs.isEmpty then .error .missing
  else
    match addSegments (String.ofList cs) cs.length .zero cs with
    | .error fault => .error fault
    | .ok total => if total.nanos = 0 then .error .notPositive else .ok total

end EdgeSync.Schedule
