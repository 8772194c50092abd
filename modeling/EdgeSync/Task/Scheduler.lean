import EdgeSync.Event.Event
import EdgeSync.Schedule.Expression

/-!
# The Scheduler

The scheduler holds an entry for each scheduled task and a tick loop that waits
for its next tick. An entry is removed, and its loop stops, when it is unscheduled
by whatever way; removing it again changes nothing. A loop also ends when its
schedule has no further trigger, and all loops end when the scheduler is canceled.

Numbers are given out one after the other, beginning with one, and only to tasks
that are scheduled.

## Main definitions

- `Clock`: the time that ticks are measured in
- `Scheduler`, `TickLoop`: entries and loops
- `Scheduler.schedule`, `Scheduler.unschedule`, `Scheduler.cancel`,
  `Scheduler.shutdown`: the operations
- `Scheduler.isScheduled`, `Scheduler.scheduled`: what is scheduled
- `Scheduler.due`, `Scheduler.rearm`: ticks
-/

namespace EdgeSync

open EdgeSync.Schedule EdgeSync.Time

/-! ## Time -/

/-- The milliseconds that have passed, and the instant that calendar schedules look
at. -/
structure Clock where
  millis : Nat
  wall : Instant
  deriving DecidableEq, Repr

/-- The clock some milliseconds later. -/
def Clock.after (c : Clock) (millis : Nat) : Clock :=
  { c with millis := c.millis + millis }

/-- The time of the next tick, if there is one. -/
def Clock.nextTick? (c : Clock) (s : Schedule) : Option Nat :=
  (s.nextDelay c.wall).map fun delay => c.millis + delay.ceilMillis

/-! ## Entries and loops -/

/-- A loop waits until a time to tick a task. -/
structure TickLoop where
  id : TaskId
  task : Nat
  schedule : Schedule
  due : Nat
  deriving DecidableEq, Repr

/-- The scheduled tasks by their numbers, and the loops that tick them. -/
structure Scheduler where
  entries : List (TaskId × String)
  loops : List TickLoop
  issued : Nat
  isCanceled : Bool
  deriving DecidableEq, Repr

/-- Why a task cannot be scheduled. -/
inductive ScheduleFault where
  | badExpression (expression : String) (fault : ExpressionFault)
  | closed
  deriving DecidableEq, Repr

/-- The wording of a fault. -/
def ScheduleFault.message : ScheduleFault → String
  | badExpression expression fault => invalidExpression expression fault
  | closed => "scheduler is shut down"

namespace Scheduler

/-- The scheduler before any task. -/
def empty : Scheduler := ⟨[], [], 0, false⟩

/-! ## Looking up -/

/-- Whether a number belongs to a scheduled task. -/
def isScheduled (s : Scheduler) (id : TaskId) : Bool :=
  s.entries.any fun entry => entry.1 == id

/-- The numbers and names of the scheduled tasks, ordered by number. -/
def scheduled (s : Scheduler) : List (TaskId × String) :=
  s.entries.mergeSort fun a b => decide (a.1.number ≤ b.1.number)

/-- Whether a loop waits for the next tick of a number. -/
def hasLoop (s : Scheduler) (id : TaskId) : Bool :=
  s.loops.any fun l => l.id == id

/-! ## Scheduling -/

/-- The loop of a task from a given time on, if there is a tick to come. -/
def loopFrom (clock : Clock) (id : TaskId) (task : Nat) (schedule : Schedule) : List TickLoop :=
  (clock.nextTick? schedule).toList.map fun due => ⟨id, task, schedule, due⟩

/-- Schedule a task under the next number. -/
def schedule (s : Scheduler) (clock : Clock) (task : Nat) (name expression : String) :
    Except ScheduleFault (TaskId × Scheduler) :=
  if s.isCanceled then .error .closed
  else
    match Schedule.parse expression with
    | .error fault => .error (.badExpression expression fault)
    | .ok schedule =>
      let id : TaskId := ⟨UInt64.ofNat (s.issued + 1)⟩
      .ok (id,
        { s with
          entries := s.entries ++ [(id, name)]
          loops := s.loops ++ loopFrom clock id task schedule
          issued := s.issued + 1 })

/-- Remove a task; the answer says whether it was scheduled. -/
def unschedule (s : Scheduler) (id : TaskId) : Bool × Scheduler :=
  if s.isScheduled id then
    (true,
      { s with
        entries := s.entries.filter fun entry => entry.1 != id
        loops := s.loops.filter fun l => l.id != id })
  else (false, s)

/-- End all loops; the entries stay. -/
def cancel (s : Scheduler) : Scheduler :=
  { s with loops := [], isCanceled := true }

/-- End all loops and remove all entries. -/
def shutdown (s : Scheduler) : Scheduler :=
  { s.cancel with entries := [] }

/-- Do what events ask for: remove the tasks that are to be stopped. -/
def heed (s : Scheduler) (events : List Event) : Scheduler :=
  events.foldl (fun s e =>
    match e.payload with
    | .stop request => (s.unschedule request.id).2
    | _ => s) s

/-! ## Ticks -/

/-- The loops whose tick is due. -/
def due (s : Scheduler) (clock : Clock) : List TickLoop :=
  s.loops.filter fun l => l.due ≤ clock.millis

/-- Wait for the tick after the one that a loop has just made. -/
def rearm (s : Scheduler) (clock : Clock) (made : TickLoop) : Scheduler :=
  { s with
    loops := s.loops.flatMap fun l =>
      if l.id == made.id then loopFrom clock l.id l.task l.schedule else [l] }

end Scheduler

end EdgeSync
