import EdgeSync.Task.Tick

/-!
# Traces

A trace tells what has happened to tasks at which time.

## Main definitions

- `Happening`, `TraceEntry`: what happens to a task, and when
- `sortTrace`: a trace in the order of time and name
-/

namespace EdgeSync

/-- What happens to a task. -/
inductive Happening where
  | started
  | completed
  | terminated
  | failed (fault : TaskFault)
  | busy (phase : Phase)
  | notReady (reason : String)
  | aborted (millis : Nat)
  | noTrigger
  deriving DecidableEq, Repr

namespace Happening

/-- The name of what happens. -/
def kind : Happening → String
  | started => "start"
  | completed => "completed"
  | terminated => "terminated"
  | failed _ => "failed"
  | busy _ => "busy"
  | notReady _ => "precondition"
  | aborted _ => "aborted"
  | noTrigger => "no_trigger"

/-- What there is to say about it. -/
def detail : Happening → String
  | failed fault => fault.message
  | busy phase => phase.name
  | notReady reason => reason
  | aborted millis => (TaskFault.timedOut millis).message
  | _ => ""

/-- What a refused tick shows. -/
def ofRefusal : Refusal → Option Happening
  | .busy phase => some (busy phase)
  | .notReady reason => some (notReady reason)
  | .canceled => none

/-- What the end of an execution shows. -/
def ofOutcome : Outcome → Happening
  | .done .continue => completed
  | .done .terminated => terminated
  | .failed fault => failed fault

end Happening

/-- What happened to a task at some time. -/
structure TraceEntry where
  millis : Nat
  task : String
  happening : Happening
  deriving DecidableEq, Repr

/-- Whether an entry may stand before another one. -/
def TraceEntry.isBefore (a b : TraceEntry) : Bool :=
  a.millis < b.millis || (a.millis == b.millis && decide (a.task ≤ b.task))

/-- A trace in the order of time and name; other entries keep their order. -/
def sortTrace (trace : List TraceEntry) : List TraceEntry :=
  trace.mergeSort TraceEntry.isBefore

end EdgeSync
