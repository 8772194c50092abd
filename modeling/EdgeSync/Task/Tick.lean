import EdgeSync.Task.Handle

/-!
# Ticks

A tick tries to run a task once. It is skipped if the task is not idle or cannot
do anything useful now; it fails at once if its scope has been canceled. Else the
task executes, and the tick ends as the execution does.

## Main definitions

- `TaskFault`: why an execution failed
- `Tick`: how a tick ends
- `TaskHandle.enter`: the tick up to the execution
- `TaskHandle.leave`: the tick after the execution
- `TaskHandle.trigger`: a whole tick
-/

namespace EdgeSync

/-- Why an execution failed. -/
inductive TaskFault where
  | failed (reason : String)
  | canceled
  | timedOut (millis : Nat)
  deriving DecidableEq, Repr

/-- The wording of a fault. -/
def TaskFault.message : TaskFault → String
  | failed reason => reason
  | canceled => "canceled"
  | timedOut millis => "timed out after " ++ toString millis ++ "ms"

/-- How an execution ends. -/
inductive Outcome where
  | done (completion : Completion)
  | failed (fault : TaskFault)
  deriving DecidableEq, Repr

/-- How a tick ends. -/
inductive Tick where
  | skipped (reason : String)
  | completed
  | terminated
  | failed (fault : TaskFault)
  deriving DecidableEq, Repr

/-- Why a tick does not come to an execution. -/
inductive Refusal where
  | busy (phase : Phase)
  | notReady (reason : String)
  | canceled
  deriving DecidableEq, Repr

/-- How a refused tick ends. -/
def Refusal.tick : Refusal → Tick
  | busy phase => .skipped ("task is " ++ phase.name)
  | notReady reason => .skipped reason
  | canceled => .failed .canceled

/-- How a tick ends after an execution. -/
def Tick.ofOutcome : Outcome → Tick
  | .done .continue => .completed
  | .done .terminated => .terminated
  | .failed fault => .failed fault

/-- What a task wants after an execution; a failed one is tried again. -/
def Outcome.completion : Outcome → Completion
  | done c => c
  | failed _ => .continue

namespace TaskHandle

/-- A tick up to the execution: begin a run, then check whether the task is ready
(`obstacle` says why it is not) and whether the scope is canceled. A refused tick
leaves the task as it was; a task that executes is running. -/
def enter (h : TaskHandle) (obstacle : Option String) (isCanceled : Bool) :
    Except Refusal TaskHandle :=
  match h.begin with
  | .error phase => .error (.busy phase)
  | .ok running =>
    match obstacle with
    | some reason => .error (.notReady reason)
    | none => if isCanceled then .error .canceled else .ok running

/-- A tick after the execution. -/
def leave (h : TaskHandle) (outcome : Outcome) : Tick × TaskHandle :=
  (.ofOutcome outcome, h.release outcome.completion)

/-- The execution is dropped before it ends. -/
def abandon (h : TaskHandle) : TaskHandle :=
  h.release .continue

/-- A whole tick, with an execution that changes `s`. -/
def trigger {σ : Type} (h : TaskHandle) (obstacle : Option String) (isCanceled : Bool)
    (execute : σ → Outcome × σ) (s : σ) : Tick × TaskHandle × σ :=
  match h.enter obstacle isCanceled with
  | .error refusal => (refusal.tick, h, s)
  | .ok running =>
    let (outcome, s) := execute s
    let (tick, ended) := running.leave outcome
    (tick, ended, s)

end TaskHandle

end EdgeSync
