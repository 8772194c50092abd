import EdgeSync.Event.Follower
import EdgeSync.Task.Scheduler
import EdgeSync.Task.Script
import EdgeSync.Task.Trace

/-!
# Rehearsals

A rehearsal lets the scheduler tick scripted tasks on a clock that moves only when
it is told to. Between two movements everything that can happen does happen: stop
events are heeded, executions end that have taken their time, those that have run
for too long are aborted, and ticks are made that are due.

## Main definitions

- `Execution`: an execution that is under way
- `Rehearsal`: scheduler, tasks, executions, and the trace so far
- `Rehearsal.schedule`, `Rehearsal.publish`, `Rehearsal.cancel`,
  `Rehearsal.shutdown`, `Rehearsal.drop`: the operations
- `Rehearsal.sleep`: let time pass
-/

namespace EdgeSync

/-- An execution that is under way: its task, the number that ticked it, the run,
the time when it ends by itself and the time when it is aborted. -/
structure Execution where
  task : Nat
  id : TaskId
  run : Run
  ends : Option Nat
  deadline : Option Nat
  deriving DecidableEq, Repr

/-- A scheduler with scripted tasks. `limit` is the longest time that an execution
may take. -/
structure Rehearsal where
  clock : Clock
  limit : Option Nat
  scheduler : Scheduler
  isDropped : Bool
  broker : Broker
  listener : Follower
  tasks : List ScriptedTask
  executions : List Execution
  trace : List TraceEntry
  deriving DecidableEq, Repr

namespace Rehearsal

/-- The beginning of a rehearsal: the scheduler listens to requests to stop. -/
def start (wall : Time.Instant) (limit : Option Nat) : Rehearsal :=
  let (listener, broker) := Follower.start (.new Broker.defaultCapacity) [Topic.stop]
  ⟨⟨0, wall⟩, limit, .empty, false, broker, listener, [], [], []⟩

/-! ## Tasks and the trace -/

/-- Add an entry to the trace. -/
def note (r : Rehearsal) (task : Nat) (h : Happening) : Rehearsal :=
  match r.tasks[task]? with
  | none => r
  | some t => { r with trace := r.trace ++ [⟨r.clock.millis, t.script.name, h⟩] }

/-- Replace a task. -/
def putTask (r : Rehearsal) (task : Nat) (t : ScriptedTask) : Rehearsal :=
  { r with tasks := r.tasks.set task t }

/-- The trace so far, which then begins anew. -/
def takeTrace (r : Rehearsal) : List TraceEntry × Rehearsal :=
  (sortTrace r.trace, { r with trace := [] })

/-! ## Executions -/

/-- An execution ends. A task that is done for good is unscheduled, if the scheduler
is still there. -/
def conclude (r : Rehearsal) (e : Execution) (ending : Ending) : Rehearsal :=
  match r.tasks[e.task]? with
  | none => r
  | some t =>
    match t.leave ending with
    | (none, t) => r.putTask e.task t
    | (some outcome, t) =>
      let r := (r.putTask e.task t).note e.task (.ofOutcome outcome)
      if outcome = .done .terminated then
        if r.isDropped then r else { r with scheduler := (r.scheduler.unschedule e.id).2 }
      else r

/-- An execution is aborted after the longest time that it may take. -/
def abort (r : Rehearsal) (e : Execution) : Rehearsal :=
  match r.tasks[e.task]? with
  | none => r
  | some t =>
    (r.putTask e.task { t with handle := t.handle.abandon }).note e.task
      (.aborted (r.limit.getD 0))

/-- The execution of a run that begins now. -/
def executionOf (r : Rehearsal) (l : TickLoop) (run : Run) : Execution where
  task := l.task
  id := l.id
  run := run
  ends := if run.hangs then none else some (r.clock.millis + run.millis)
  deadline := r.limit.map fun limit => r.clock.millis + limit

/-- End or abort the executions whose time has come. -/
def settleExecutions (r : Rehearsal) : Rehearsal :=
  let now := r.clock.millis
  let isOver (time : Option Nat) := time.any fun t => decide (t ≤ now)
  -- An execution that ends by itself is not aborted at the same time.
  let ended := r.executions.filter fun e => isOver e.ends
  let aborted := r.executions.filter fun e => !isOver e.ends && isOver e.deadline
  let r := { r with
    executions := r.executions.filter fun e => !isOver e.ends && !isOver e.deadline }
  let r := ended.foldl (fun r e => r.conclude e e.run.ending) r
  aborted.foldl abort r

/-- Make a tick: the task begins a run, or its tick is refused. -/
def attempt (r : Rehearsal) (l : TickLoop) : Rehearsal :=
  match r.tasks[l.task]? with
  | none => r
  | some t =>
    match t.enter r.scheduler.isCanceled with
    | .error refusal => (Happening.ofRefusal refusal).elim r (r.note l.task)
    | .ok (run, t) =>
      let r := (r.putTask l.task t).note l.task .started
      let r := ((t.nested run).bind Happening.ofRefusal).elim r (r.note l.task)
      let e := r.executionOf l run
      if run.isInstant then r.conclude e run.ending
      else settleExecutions { r with executions := r.executions ++ [e] }

/-- Make the tick of a loop. -/
def tick (r : Rehearsal) (l : TickLoop) : Rehearsal :=
  -- The loop waits for its next tick whatever becomes of this one.
  let r := { r with scheduler := r.scheduler.rearm r.clock l }
  let r := if r.scheduler.hasLoop l.id then r else r.note l.task .noTrigger
  r.attempt l

/-! ## Time -/

/-- Let one millisecond pass. -/
def pass (r : Rehearsal) : Rehearsal :=
  let r := settleExecutions { r with clock := r.clock.after 1 }
  (r.scheduler.due r.clock).foldl tick r

/-- Let some milliseconds pass. -/
def sleep : Nat → Rehearsal → Rehearsal
  | 0, r => r
  | millis + 1, r => sleep millis r.pass

/-! ## Operations -/

/-- Schedule a task that is there. -/
def scheduleAgain (r : Rehearsal) (task : Nat) : Except ScheduleFault TaskId × Rehearsal :=
  match r.tasks[task]? with
  | none => (.error .closed, r)
  | some t =>
    match r.scheduler.schedule r.clock task t.script.name t.script.schedule with
    | .error fault => (.error fault, r)
    | .ok (id, scheduler) =>
      let r := { r with scheduler }.putTask task { t with handle := t.handle.setId id }
      (.ok id, if scheduler.hasLoop id then r else r.note task .noTrigger)

/-- Schedule a new task. -/
def schedule (r : Rehearsal) (t : ScriptedTask) : Except ScheduleFault TaskId × Rehearsal :=
  scheduleAgain { r with tasks := r.tasks ++ [t] } r.tasks.length

/-- Remove a task. -/
def unschedule (r : Rehearsal) (id : TaskId) : Bool × Rehearsal :=
  let (removed, scheduler) := r.scheduler.unschedule id
  (removed, { r with scheduler })

/-- Let the scheduler take the events that are there. If it is gone, the listener
learns it from the first event. -/
def listen (r : Rehearsal) : Rehearsal :=
  let (deliveries, listener, broker) := r.listener.drain r.broker
  if r.isDropped && !deliveries.isEmpty then
    let (listener, broker) := listener.stop broker
    { r with listener, broker }
  else
    { r with
      listener, broker
      scheduler := r.scheduler.heed (deliveries.map Delivery.event) }

/-- Publish an event. -/
def publish (r : Rehearsal) (e : Event) : Except TopicMismatch Nat × Rehearsal :=
  let (answer, broker) := r.broker.publish e
  (answer, listen { r with broker })

/-- Say why a task is not ready, or that it is. -/
def setObstacle (r : Rehearsal) (task : Nat) (obstacle : Option String) : Rehearsal :=
  match r.tasks[task]? with
  | none => r
  | some t => r.putTask task { t with obstacle }

/-- Whether an execution ends when it is canceled. -/
def heedsCancel (e : Execution) : Bool :=
  e.run.honorsCancel && !e.run.hangs

/-- Cancel the scope of the scheduler: ticks stop, the listener ends, and so do the
executions that heed it. -/
def cancel (r : Rehearsal) : Rehearsal :=
  let (listener, broker) := r.listener.stop r.broker
  let canceled := r.executions.filter heedsCancel
  let r := { r with
    scheduler := r.scheduler.cancel
    listener, broker
    executions := r.executions.filter fun e => !heedsCancel e }
  canceled.foldl (fun r e => r.conclude e (.outcome (.failed .canceled))) r

/-- Shut the scheduler down. -/
def shutdown (r : Rehearsal) : Rehearsal :=
  let r := r.cancel
  { r with scheduler := r.scheduler.shutdown }

/-- Drop the scheduler: its loops stop, but nothing is canceled. -/
def drop (r : Rehearsal) : Rehearsal :=
  { r with isDropped := true, scheduler := { r.scheduler with loops := [] } }

end Rehearsal

end EdgeSync
