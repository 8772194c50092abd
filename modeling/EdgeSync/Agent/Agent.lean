import EdgeSync.Observe.Journal
import EdgeSync.Store.ConfigStore
import EdgeSync.Sync.Reconciliation
import EdgeSync.Sync.Refresh
import EdgeSync.Sync.Registration
import EdgeSync.Task.Scheduler
import EdgeSync.Task.Trace

/-!
# The Agent

The agent schedules three tasks: registration, reconciliation and refresh. The
journal logs all events, and the reconciler follows those that concern it. If a
task cannot be scheduled, whatever has begun is ended again.

The agent runs on a clock that moves only when it is told to. After each movement
the ticks that are due are made, and all events are followed that they publish.

## Main definitions

- `AgentTask`: the three tasks
- `Agent`, `Agent.start`: a running agent
- `Agent.advance`, `Agent.publish`, `Agent.shutdown`: the operations
- `AgentFault`: why an agent does not start
-/

namespace EdgeSync

/-! ## Tasks -/

/-- The tasks of an agent, in the order in which they are scheduled. -/
inductive AgentTask where
  | registration
  | reconciliation
  | refresh
  deriving DecidableEq, Repr

namespace AgentTask

/-- All tasks in the order in which they are scheduled. -/
def all : List AgentTask := [registration, reconciliation, refresh]

/-- The name of a task. -/
def name : AgentTask → String
  | registration => Registration.name
  | reconciliation => Reconciler.name
  | refresh => Refresh.name

/-- The job whose schedule a task follows. -/
def job : AgentTask → String
  | registration => Job.registerSatellite
  | reconciliation => Job.replicateState
  | refresh => Job.updateConfig

/-- The number of a task for the scheduler. -/
def number (t : AgentTask) : Nat :=
  all.idxOf t

/-- The schedule of a task: that of the configuration, or else the default one. -/
def schedule (store : ConfigStore) (t : AgentTask) : String :=
  (((store.jobSchedule? t.job).or (Job.defaultSchedule? t.job))).getD ""

end AgentTask

/-- The credentials in a configuration. -/
def ConfigStore.credentials (s : ConfigStore) : Credentials where
  username := s.config.enrollment.auth.name
  password := s.config.enrollment.auth.secret
  sourceRegistry := registryAddress s.config.enrollment.auth.registry
  destination := s.localRegistryUrl
  useUnsecure := s.config.settings.useUnsecure

/-- Why an agent does not start: a task cannot be scheduled. -/
structure AgentFault where
  task : AgentTask
  fault : ScheduleFault
  deriving DecidableEq, Repr

/-- The wording of a fault. -/
def AgentFault.message (f : AgentFault) : String :=
  "failed to schedule " ++ f.task.name ++ ": " ++ f.fault.message

/-! ## Agents -/

/-- The phases and numbers of the three tasks. -/
structure AgentHandles where
  registration : TaskHandle
  reconciliation : TaskHandle
  refresh : TaskHandle
  deriving DecidableEq, Repr

namespace AgentHandles

/-- The handles of new tasks. -/
def new : AgentHandles := ⟨.new, .new, .new⟩

/-- The handle of a task. -/
def get (h : AgentHandles) : AgentTask → TaskHandle
  | .registration => h.registration
  | .reconciliation => h.reconciliation
  | .refresh => h.refresh

/-- Replace the handle of a task. -/
def put (h : AgentHandles) (t : AgentTask) (handle : TaskHandle) : AgentHandles :=
  match t with
  | .registration => { h with registration := handle }
  | .reconciliation => { h with reconciliation := handle }
  | .refresh => { h with refresh := handle }

end AgentHandles

/-- An agent: the scene of the reconciliation, the refresh, the handles, the scheduler
with its clock, the three followers, and what has been logged and has happened since
it was last taken. -/
structure Agent where
  scene : Scene
  refresh : Refresh
  handles : AgentHandles
  scheduler : Scheduler
  clock : Clock
  journal : Follower
  reconcileListener : Follower
  stopListener : Follower
  records : List LogRecord
  trace : List TraceEntry

namespace Agent

/-- The broker of an agent. -/
def broker (a : Agent) : Broker :=
  a.scene.site.broker

/-- Replace the broker. -/
def putBroker (a : Agent) (b : Broker) : Agent :=
  { a with scene := { a.scene with site := { a.scene.site with broker := b } } }

/-- The numbers of subscriptions to the three topics. -/
def subscribers (b : Broker) : List Nat :=
  Journal.topics.map b.count

/-- Add an entry to the trace. -/
def note (a : Agent) (t : AgentTask) (h : Happening) : Agent :=
  { a with trace := a.trace ++ [⟨a.clock.millis, t.name, h⟩] }

/-! ## Events -/

/-- Let all followers take the events that are there. -/
def settle (a : Agent) : Agent :=
  -- Each follower has subscriptions of its own, so their order does not matter.
  let (records, journal, b) := Journal.run a.journal a.broker
  let (reconcileListener, scene) := (a.putBroker b).scene.listen a.reconcileListener
  let (deliveries, stopListener, b) := a.stopListener.drain scene.site.broker
  { a with
    scene := { scene with site := { scene.site with broker := b } }
    scheduler := a.scheduler.heed (deliveries.map Delivery.event)
    journal, reconcileListener, stopListener
    records := a.records ++ records }

/-- Publish an event. -/
def publish (a : Agent) (e : Event) : Agent :=
  (a.putBroker (a.broker.publish e).2).settle

/-! ## Ticks -/

/-- Why a task is not ready. -/
def obstacle? (a : Agent) : AgentTask → Option String
  | .registration => Registration.obstacle? a.scene.site.store
  | .reconciliation => a.scene.reconciler.obstacle?
  | .refresh => none

/-- Execute a task. -/
def execute (a : Agent) : AgentTask → Outcome × Agent
  | .registration =>
    let (outcome, site) :=
      Registration.execute a.scene.site a.handles.registration.id a.scene.isCanceled
    (outcome, { a with scene := { a.scene with site } })
  | .reconciliation =>
    let (outcome, scene) := a.scene.execute
    (outcome, { a with scene })
  | .refresh =>
    let (outcome, refresh, site) := a.refresh.execute a.scene.site a.scene.isCanceled
    (outcome, { a with refresh, scene := { a.scene with site } })

/-- Tick a task under its number. A task that is done for good is unscheduled. -/
def tickTask (a : Agent) (id : TaskId) (t : AgentTask) : Agent :=
  match (a.handles.get t).enter (a.obstacle? t) a.scene.isCanceled with
  | .error refusal => (Happening.ofRefusal refusal).elim a (a.note t)
  | .ok handle =>
    let a := { a with handles := a.handles.put t handle }.note t .started
    let (outcome, a) := a.execute t
    let handle := ((a.handles.get t).leave outcome).2
    let a := { a with handles := a.handles.put t handle }.note t (.ofOutcome outcome)
    if outcome = .done .terminated then
      { a with scheduler := (a.scheduler.unschedule id).2 }
    else a

/-- Make the tick of a loop, and follow the events that it publishes. -/
def tick (a : Agent) (l : TickLoop) : Agent :=
  match AgentTask.all[l.task]? with
  | none => a
  | some t =>
    -- The loop waits for its next tick whatever becomes of this one.
    let a := { a with scheduler := a.scheduler.rearm a.clock l }
    let a := if a.scheduler.hasLoop l.id then a else a.note t .noTrigger
    (a.tickTask l.id t).settle

/-- Let some milliseconds pass at once. -/
def pass (a : Agent) (millis : Nat) : Agent :=
  let a := { a with clock := a.clock.after millis }
  (a.scheduler.due a.clock).foldl tick a

/-- Let time pass in a number of equal strides. -/
def stride (millis : Nat) : Nat → Agent → Agent
  | 0, a => a
  | strides + 1, a => stride millis strides (a.pass millis)

/-- Let time pass in strides, and then what is left of it. -/
def advance (a : Agent) (millis step : Nat) : Agent :=
  let a := stride step (millis / step) a
  if millis % step = 0 then a else a.pass (millis % step)

/-! ## Start and end -/

/-- Schedule one more task. -/
def scheduleTask (a : Agent) (t : AgentTask) : Except AgentFault Agent :=
  match a.scheduler.schedule a.clock t.number t.name (t.schedule a.scene.site.store) with
  | .error fault => .error ⟨t, fault⟩
  | .ok (id, scheduler) =>
    let handles := a.handles.put t ((a.handles.get t).setId id)
    let a := { a with scheduler, handles }
    .ok (if scheduler.hasLoop id then a else a.note t .noTrigger)

/-- An agent with its followers, before any task is scheduled. -/
def prepare (site : Site) (source : UpdateSource) (wall : Time.Instant) : Agent :=
  let store := site.store
  let reconciler := Reconciler.new store.credentials store.config.enrollment.states
  let (journal, b) := Journal.start site.broker
  let (reconcileListener, b) := Follower.start b Reconciler.topics
  let (stopListener, b) := Follower.start b [Topic.stop]
  { scene := .new { site with broker := b } reconciler
    refresh := .new source
    handles := .new
    scheduler := .empty
    clock := ⟨0, wall⟩
    journal, reconcileListener, stopListener
    records := []
    trace := [] }

/-- End all followers. -/
def stopFollowers (a : Agent) : Agent :=
  let (journal, b) := a.journal.stop a.broker
  let (reconcileListener, b) := a.reconcileListener.stop b
  let (stopListener, b) := a.stopListener.stop b
  { a with journal, reconcileListener, stopListener }.putBroker b

/-- Cancel the scope of the agent, wait for the followers, and shut the scheduler
down. -/
def shutdown (a : Agent) : Agent :=
  let a := a.stopFollowers
  { a with scheduler := a.scheduler.shutdown, scene := { a.scene with isCanceled := true } }

/-- Start an agent at a site. If a task cannot be scheduled, what has begun is ended
again, and the broker is given back. -/
def start (site : Site) (source : UpdateSource) (wall : Time.Instant) :
    Except (AgentFault × Broker) Agent :=
  let prepared := prepare site source wall
  match AgentTask.all.foldlM scheduleTask prepared with
  | .ok a => .ok a
  | .error fault => .error (fault, prepared.shutdown.broker)

/-! ## Taking what has happened -/

/-- The records, the calls of the replica, the requests and the trace since they were
last taken. -/
structure News where
  records : List LogRecord
  calls : List ReplicaCall
  requests : List Web.Request
  trace : List TraceEntry

/-- Take what has happened, which then begins anew. -/
def takeNews (a : Agent) : News × Agent :=
  let site := a.scene.site
  (⟨a.records, a.scene.calls, site.network.requests, sortTrace a.trace⟩,
    { a with
      records := []
      trace := []
      scene := { a.scene with
        calls := []
        site := { site with network := { site.network with requests := [] } } } })

end Agent

end EdgeSync
