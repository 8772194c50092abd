import EdgeSync.Schedule.Calendar
import EdgeSync.Schedule.Interval
import EdgeSync.Text.Blank

/-!
# Schedule Expressions

A schedule is a fixed interval or a calendar schedule. It is written as `@every`
with an interval, as one of a few descriptors, or as a calendar expression of
five to seven fields, where five fields stand for whole minutes.

## Main definitions

- `Schedule`, `Schedule.parse`: schedules and the expressions for them
- `ExpressionFault`, `invalidExpression`: why an expression is refused
- `Schedule.nextDelay`: the span until the next trigger
-/

namespace EdgeSync.Schedule

open EdgeSync.Text EdgeSync.Time

/-! ## Faults -/

/-- Why an expression is refused. -/
inductive ExpressionFault where
  | empty
  | interval (fault : IntervalFault)
  | unknownDescriptor (text : String)
  | fieldCount (count : Nat)
  | malformed
  deriving DecidableEq, Repr

/-- The wording of a fault. -/
def ExpressionFault.message : ExpressionFault → String
  | empty => "empty expression"
  | interval fault => fault.message
  | unknownDescriptor text => "unknown descriptor " ++ text
  | fieldCount count => "expected 5 to 7 fields, found " ++ toString count
  | malformed => "Invalid expression: Invalid cron expression."

/-- The message that names a refused expression. -/
def invalidExpression (expression : String) (fault : ExpressionFault) : String :=
  "invalid cron expression '" ++ expression ++ "': " ++ fault.message

end EdgeSync.Schedule

namespace EdgeSync

open EdgeSync.Schedule EdgeSync.Text EdgeSync.Time

/-! ## Schedules -/

/-- When a task is triggered. -/
inductive Schedule where
  | every (interval : Span)
  | calendar (allowed : Calendar)
  deriving DecidableEq, Repr

namespace Schedule

/-- The word before an interval. -/
def everyWord : List Char := ['@', 'e', 'v', 'e', 'r', 'y']

/-- The six fields that a descriptor stands for. -/
def descriptor? (text : String) : Option String :=
  match text with
  | "@yearly" | "@annually" => some "0 0 0 1 1 *"
  | "@monthly" => some "0 0 0 1 * *"
  | "@weekly" => some "0 0 0 * * Sun"
  | "@daily" | "@midnight" => some "0 0 0 * * *"
  | "@hourly" => some "0 0 * * * *"
  | _ => none

/-- The fields of an expression, seconds first. -/
def fields (cs : List Char) : Except ExpressionFault (List Char) :=
  if cs.head? = some '@' then
    match descriptor? (String.ofList cs) with
    | some text => .ok text.toList
    | none => .error (.unknownDescriptor (String.ofList cs))
  else
    match (words cs).length with
    | 5 => .ok ('0' :: ' ' :: cs)
    | 6 => .ok cs
    | 7 => .ok cs
    | n => .error (.fieldCount n)

/-- Read an expression. -/
def parse (expression : String) : Except ExpressionFault Schedule :=
  let cs := trimChars expression.toList
  if cs.isEmpty then .error .empty
  else if everyWord.isPrefixOf cs then
    match readInterval (trimChars (cs.drop everyWord.length)) with
    | .error fault => .error (.interval fault)
    | .ok interval => .ok (.every interval)
  else
    match fields cs with
    | .error fault => .error fault
    | .ok text =>
      match Calendar.read? text with
      | none => .error .malformed
      | some allowed => .ok (.calendar allowed)

/-! ## Triggers -/

/-- The span until the next trigger, if there is one: the interval, or the time
to the first occurrence that lies at least a part of a second ahead. -/
def nextDelay (s : Schedule) (now : Instant) : Option Span :=
  match s with
  | every interval => some interval
  | calendar c =>
    (c.nextFrom? (Moment.ofUnix (now.seconds + 1))).map fun m =>
      now.spanTo (Instant.ofUnix m.toUnix 0)

/-- The delays met on the way from one trigger to the next, at most `count` of
them; the last entry is absent if the triggers end. -/
def delays (s : Schedule) : Nat → Instant → List (Option Span)
  | 0, _ => []
  | count + 1, now =>
    match s.nextDelay now with
    | none => [none]
    | some delay => some delay :: delays s count (now.after delay)

end Schedule

end EdgeSync
