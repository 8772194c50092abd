import EdgeSync.Model.Enrollment

/-!
# Task Handles

A task is idle, running or terminated. Whoever moves it from idle to running holds
the run: nobody else can begin one before it is released. A run that is finished
as terminated is the last one; a run that ends in any other way, even by being
dropped, leaves the task idle.

## Main definitions

- `Phase`, `TaskHandle`: the phase and the number of a task
- `TaskHandle.begin`: begin a run
- `TaskHandle.release`: end the run in hand
- `GuardedHandle`: a handle with the one run that somebody may hold
-/

namespace EdgeSync

/-! ## Phases -/

/-- Where a task stands. -/
inductive Phase where
  | idle
  | running
  | terminated
  deriving DecidableEq, Repr

/-- The name of a phase. -/
def Phase.name : Phase → String
  | idle => "Idle"
  | running => "Running"
  | terminated => "Terminated"

/-- What a task wants after a successful run: further runs, or none. -/
inductive Completion where
  | continue
  | terminated
  deriving DecidableEq, Repr

/-- The phase after a run. -/
def Completion.phase : Completion → Phase
  | .continue => .idle
  | .terminated => .terminated

/-! ## Handles -/

/-- The phase of a task and the number under which it is scheduled. -/
structure TaskHandle where
  phase : Phase
  id : Option TaskId
  deriving DecidableEq, Repr

namespace TaskHandle

/-- The handle of a new task. -/
def new : TaskHandle := ⟨.idle, none⟩

/-- Store the number of a task. -/
def setId (h : TaskHandle) (id : TaskId) : TaskHandle :=
  { h with id := some id }

/-- Begin a run, unless the task is not idle. -/
def begin (h : TaskHandle) : Except Phase TaskHandle :=
  match h.phase with
  | .idle => .ok { h with phase := .running }
  | phase => .error phase

/-- End the run in hand. -/
def release (h : TaskHandle) (c : Completion) : TaskHandle :=
  { h with phase := c.phase }

end TaskHandle

/-! ## Guards -/

/-- A handle together with whether somebody holds its run. -/
structure GuardedHandle where
  handle : TaskHandle
  isHeld : Bool
  deriving DecidableEq, Repr

namespace GuardedHandle

/-- The handle of a new task, held by nobody. -/
def new : GuardedHandle := ⟨.new, false⟩

/-- Begin a run and hold it. -/
def begin (g : GuardedHandle) : Option Phase × GuardedHandle :=
  match g.handle.begin with
  | .ok h => (none, ⟨h, true⟩)
  | .error phase => (some phase, g)

/-- Finish the run that is held; the answer says whether there is one. -/
def finish (g : GuardedHandle) (c : Completion) : Bool × GuardedHandle :=
  if g.isHeld then (true, ⟨g.handle.release c, false⟩) else (false, g)

/-- Drop the run that is held; the answer says whether there is one. -/
def drop (g : GuardedHandle) : Bool × GuardedHandle :=
  g.finish .continue

end GuardedHandle

end EdgeSync
