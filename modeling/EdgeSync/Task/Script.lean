import EdgeSync.Task.Tick

/-!
# Scripted Tasks

A scripted task does nothing but take time and end in the ways that it is told,
one run after the other; the last one is repeated. It serves to rehearse what the
scheduler does with a task.

## Main definitions

- `Run`, `Script`: the runs of a task
- `ScriptedTask`: a script with its handle
- `ScriptedTask.trigger`: a tick that may take no time
-/

namespace EdgeSync

/-! ## Scripts -/

/-- How a run ends: with an outcome, or by breaking down. -/
inductive Ending where
  | outcome (outcome : Outcome)
  | breakdown
  deriving DecidableEq, Repr

/-- One run: whether it triggers its own task first, how long it takes, whether it
ends when it is canceled, and how it ends. -/
structure Run where
  reenters : Bool
  hangs : Bool
  millis : Nat
  honorsCancel : Bool
  ending : Ending
  deriving DecidableEq, Repr

/-- The run that completes at once. -/
def Run.plain : Run := ⟨false, false, 0, false, .outcome (.done .continue)⟩

/-- Whether a run ends as soon as it has begun. -/
def Run.isInstant (r : Run) : Bool :=
  !r.hangs && r.millis == 0

/-- The name, the schedule and the runs of a task. -/
structure Script where
  name : String
  schedule : String
  runs : List Run
  deriving DecidableEq, Repr

/-- The run of a given number; the last one is repeated. -/
def Script.run (s : Script) (number : Nat) : Run :=
  (s.runs[min number (s.runs.length - 1)]?).getD .plain

/-! ## Tasks -/

/-- A scripted task. `obstacle` says why it is not ready, and `started` counts the
executions begun. -/
structure ScriptedTask where
  script : Script
  obstacle : Option String
  handle : TaskHandle
  started : Nat
  deriving DecidableEq, Repr

namespace ScriptedTask

/-- A new task. -/
def new (script : Script) (obstacle : Option String) : ScriptedTask :=
  ⟨script, obstacle, .new, 0⟩

/-- A tick up to the execution, with the run that is then begun. -/
def enter (t : ScriptedTask) (isCanceled : Bool) : Except Refusal (Run × ScriptedTask) :=
  match t.handle.enter t.obstacle isCanceled with
  | .error refusal => .error refusal
  | .ok handle => .ok (t.script.run t.started, { t with handle, started := t.started + 1 })

/-- The end of the run in hand, with the outcome if there is one. -/
def leave (t : ScriptedTask) : Ending → Option Outcome × ScriptedTask
  | .outcome outcome => (some outcome, { t with handle := (t.handle.leave outcome).2 })
  | .breakdown => (none, { t with handle := t.handle.abandon })

/-- What the tick inside a run comes to: the task is not idle then. -/
def nested (t : ScriptedTask) (r : Run) : Option Refusal :=
  if r.reenters then some (.busy t.handle.phase) else none

/-- What a single look at a tick finds: its end if it takes no time. Otherwise the
execution is dropped. -/
structure Triggered where
  tick : Option Tick
  nested : Option Tick
  deriving DecidableEq, Repr

/-- Trigger a task and look at it once. -/
def trigger (t : ScriptedTask) (isCanceled : Bool) : Triggered × ScriptedTask :=
  match t.enter isCanceled with
  | .error refusal => (⟨some refusal.tick, none⟩, t)
  | .ok (run, running) =>
    let nested := (running.nested run).map Refusal.tick
    if run.isInstant then
      let (outcome, ended) := running.leave run.ending
      (⟨outcome.map Tick.ofOutcome, nested⟩, ended)
    else (⟨none, nested⟩, { running with handle := running.handle.abandon })

end ScriptedTask

end EdgeSync
