import EdgeSync.Agent.Agent
import EdgeSync.Proofs.Event.History
import EdgeSync.Proofs.Event.Patrol
import EdgeSync.Proofs.Task.Attempts
import Mathlib.Logic.Function.Basic

/-!
# The Workshop of an Agent

An agent is at work in several places at once. The journal, the listener of the reconciler and
the listener to stop events go round their subscriptions; the loops of the scheduler wait for
their ticks; each tick is an errand of its own; somebody starts the agent, others schedule tasks
or remove them, and there may be somebody who shuts the agent down and waits for it. All of them
run side by side, so what one of them does is cut into turns wherever another one could see a
difference, and the turns of all come in any order.

In particular there is a turn between a look at a scope and what follows from it. A loop finds
that it is time for its tick, and then makes it. An errand begins its run, sees whether the task
is ready, looks at the scope, and then executes the task. A call that schedules a task looks at
the scope and gets a number, and then enters the task. Starting an agent is one such call after
the other, and each of them leaves a loop that makes ticks from then on.

Who is told to stop does not stop at once. A follower ends when it looks at the scope at the
beginning of a round; a loop ends when it is its turn, and until then the workshop knows it as
one that is stopping; and the cancellation of a scope comes to the scopes below it one by one,
while whoever cancels it waits.

An execution may do anything that the executions of the three tasks do: publish events, remember
snapshots, and replace the store, the files and the network. In which order and how often does
not matter here.

## Main definitions

- `Errand`, `Call`: ticks and calls under way
- `Starting`, `Closing`: how far the start and the shutdown have come
- `Workshop`, `Workshop.vacant`, `Workshop.of`: an agent at work, one that is still to start, and
  one where nothing is under way
- `Workshop.Turn`, `Workshop.turn`, `Workshop.after`: what comes next, and what comes of it

## Main results

- `Workshop.schedule_eq`: a call to schedule a task without anything in between
- `Workshop.starting_turn`, `Workshop.closing_turn`: who brings the start and the shutdown on
-/

namespace EdgeSync

/-! ## Errands and Calls -/

/-- A tick that a loop has made, with the number of the loop and the task, and where it stands. -/
structure Errand where
  id : TaskId
  task : Nat
  attempt : Attempt
  deriving DecidableEq, Repr

/-- The tick of a loop. -/
def TickLoop.errand (l : TickLoop) : Errand := ⟨l.id, l.task, .called⟩

/-- What an errand can do: its look shows what the scope is, and it is dropped only while it
executes its task, by a deadline. -/
def Move.Fits (isCanceled : Bool) (a : Attempt) : Move → Prop
  | .look answer => answer = isCanceled
  | .abandon => a.isExecuting = true
  | _ => True

instance (isCanceled : Bool) (a : Attempt) : (move : Move) → Decidable (move.Fits isCanceled a)
  | .look answer => inferInstanceAs (Decidable (answer = isCanceled))
  | .abandon => inferInstanceAs (Decidable (a.isExecuting = true))
  | .begin | .check _ | .start | .finish _ | .release | .drop => inferInstanceAs (Decidable True)

/-- What an execution can do. -/
inductive Work where
  | publish (event : Event)
  | commit (locator : String) (snapshot : Snapshot)
  | keep (store : ConfigStore)
  | write (files : FileTree)
  | request (network : Web.Network)

/-- A call that schedules a task. It has found the scope open and the expression in order, and has
been given a number; it is still to enter the task. -/
structure Call where
  id : TaskId
  task : Nat
  name : String
  schedule : Schedule
  deriving DecidableEq, Repr

/-- The entry that it makes. -/
def Call.entry (c : Call) : TaskId × String := (c.id, c.name)

/-! ## Start and Shutdown -/

/-- How far the start of an agent has come. The journal begins next, or the listener, or the
listener to stop events; then tasks are scheduled, some of which have their numbers already, by one
call after the other. If one of them fails, those before it are unscheduled, the scope is canceled,
and the start leaves the scheduler; else the agent has started. -/
inductive Starting where
  | journal (rest : List (AgentTask × String))
  | listener (rest : List (AgentTask × String))
  | stops (rest : List (AgentTask × String))
  | tasks (rest : List (AgentTask × String)) (ids : List TaskId)
  | entering (call : Call) (rest : List (AgentTask × String)) (ids : List TaskId)
  | unscheduling (fault : AgentFault) (ids : List TaskId)
  | canceling (fault : AgentFault)
  | leaving (fault : AgentFault)
  | failed (fault : AgentFault)
  | done
  deriving DecidableEq

/-- The call that the start is in the middle of. -/
def Starting.call? : Starting → Option Call
  | entering call _ _ => some call
  | _ => none

/-- The start cancels the scope of the agent. -/
def Starting.isCanceling : Starting → Bool
  | canceling _ => true
  | _ => false

/-- How far a shutdown has come: nobody has asked for it; it cancels the scope; it waits for the
journal, for the listener, or for the loops of the tasks that it has removed; or it is over. -/
inductive Closing where
  | unasked
  | canceling
  | journal
  | listener
  | loops (ids : List TaskId)
  | done (ids : List TaskId)
  deriving DecidableEq, Repr

/-- The shutdown is over. -/
def Closing.isOver : Closing → Bool
  | done _ => true
  | _ => false

/-- The scopes of an agent: its own one, that of its scheduler below it, and those of the loops. -/
inductive Scope where
  | agent
  | scheduler
  | loop (l : TickLoop)
  deriving DecidableEq

/-! ## Workshops -/

/-- An agent at work. `awake` are the loops that have found that it is time for their ticks and
are still to make them; `stopping` are the loops that have been told to stop and have not ended;
`calls` are those of others under way; `isDropped` says that nobody holds the scheduler any
more. -/
structure Workshop where
  site : Site
  reconciler : Reconciler
  handles : Nat → TaskHandle
  scheduler : Scheduler
  awake : List TickLoop
  stopping : List TickLoop
  errands : List Errand
  calls : List Call
  clock : Clock
  journal : Patrol
  listener : Patrol
  stopListener : Patrol
  records : List LogRecord
  isCanceled : Bool
  isDropped : Bool
  starting : Starting
  closing : Closing

/-- A follower that has not begun. -/
def Patrol.idle : Patrol := .of ⟨[], false⟩

namespace Workshop

/-- The handles of the tasks by their numbers. -/
def handlesOf (h : AgentHandles) (task : Nat) : TaskHandle :=
  (AgentTask.all[task]?).elim .new h.get

/-- The tasks with their schedules, as the start of an agent reads them. -/
def plan (store : ConfigStore) : List (AgentTask × String) :=
  AgentTask.all.map fun t => (t, t.schedule store)

/-- An agent that is still to start at a site. -/
def vacant (site : Site) (wall : Time.Instant) : Workshop where
  site
  reconciler := .new site.store.credentials site.store.config.enrollment.states
  handles := handlesOf .new
  scheduler := .empty
  awake := []
  stopping := []
  errands := []
  calls := []
  clock := ⟨0, wall⟩
  journal := .idle
  listener := .idle
  stopListener := .idle
  records := []
  isCanceled := false
  isDropped := false
  starting := .journal (plan site.store)
  closing := .unasked

/-- An agent that has started, of which nothing is under way. -/
def of (a : Agent) : Workshop where
  site := a.scene.site
  reconciler := a.scene.reconciler
  handles := handlesOf a.handles
  scheduler := a.scheduler
  awake := []
  stopping := []
  errands := []
  calls := []
  clock := a.clock
  journal := .of a.journal
  listener := .of a.reconcileListener
  stopListener := .of a.stopListener
  records := a.records
  isCanceled := a.scene.isCanceled
  isDropped := false
  starting := .done
  closing := .unasked

/-- The calls under way, with that of the start. -/
def pending (w : Workshop) : List Call :=
  w.calls ++ w.starting.call?.toList

/-- Replace the broker. -/
def putBroker (w : Workshop) (broker : Broker) : Workshop :=
  { w with site := { w.site with broker } }

/-- Replace the scheduler by one with fewer loops; the others are told to stop. -/
def dismiss (w : Workshop) (scheduler : Scheduler) : Workshop :=
  { w with
    scheduler
    stopping := w.stopping ++ w.scheduler.loops.filter fun l => l ∉ scheduler.loops }

/-- Let an errand go on. -/
def proceed (w : Workshop) (i : Nat) (e : Errand) (attempt : Attempt) : Workshop :=
  { w with errands := w.errands.set i { e with attempt } }

/-- Replace the handle of a task. -/
def putHandle (w : Workshop) (task : Nat) (handle : TaskHandle) : Workshop :=
  { w with handles := Function.update w.handles task handle }

/-! ## Turns of Followers -/

/-- The journal logs what it has found. -/
def log (w : Workshop) (found : List Delivery) (journal : Patrol) (broker : Broker) : Workshop :=
  { w.putBroker broker with journal, records := w.records ++ found.flatMap Delivery.records }

/-- The journal looks at its scope or at a subscription. -/
def runJournal (w : Workshop) : Workshop :=
  let (found, journal, broker) := w.journal.poll w.isCanceled w.site.broker
  w.log found.toList journal broker

/-- The reconciler follows what the listener has found. -/
def follow (w : Workshop) (found : List Delivery) (listener : Patrol) (broker : Broker) :
    Workshop :=
  { w.putBroker broker with
    listener
    reconciler := (found.map Delivery.event).foldl Reconciler.heed w.reconciler }

/-- The listener looks at its scope or at a subscription. -/
def runListener (w : Workshop) : Workshop :=
  let (found, listener, broker) := w.listener.poll w.isCanceled w.site.broker
  w.follow found.toList listener broker

/-- The listener to stop events ends. -/
def endStops (w : Workshop) : Workshop :=
  let (stopListener, broker) := w.stopListener.stop w.site.broker
  { w.putBroker broker with stopListener }

/-- The listener to stop events looks at its scope or at its subscription, whichever it may be
first. It ends if the scheduler is no longer there. -/
def runStops (w : Workshop) (eventFirst : Bool) : Workshop :=
  if w.stopListener.follower.isRunning then
    if w.scheduler.isCanceled && !eventFirst then w.endStops
    else
      let (found, stopListener, broker) := w.stopListener.look w.site.broker
      let w := { w.putBroker broker with stopListener }
      match found with
      | some d =>
        if w.isDropped then w.endStops
        else w.dismiss (w.scheduler.heed [d.event])
      | none => if w.scheduler.isCanceled then w.endStops else w
  else w

/-! ## Turns of Loops -/

/-- A loop finds that its tick is due, and that it has not been told to stop. -/
def wake (w : Workshop) (l : TickLoop) : Workshop :=
  if l ∈ w.scheduler.due w.clock ∧ l ∉ w.awake then { w with awake := w.awake ++ [l] } else w

/-- A loop that has found this makes its tick, whatever it has been told since. Then it waits for
the next one, unless it has been told to stop. -/
def tick (w : Workshop) (l : TickLoop) : Workshop :=
  if l ∈ w.awake then
    { w with
      scheduler := w.scheduler.rearm w.clock l
      awake := w.awake.erase l
      errands := w.errands ++ [l.errand] }
  else w

/-- A loop that has been told to stop ends. -/
def leave (w : Workshop) (l : TickLoop) : Workshop :=
  if l ∈ w.awake then w else { w with stopping := w.stopping.filter fun m => m ≠ l }

/-! ## Turns of Errands -/

/-- An errand takes a step. -/
def step (w : Workshop) (i : Nat) (move : Move) : Workshop :=
  match w.errands[i]? with
  | none => w
  | some e =>
    if move.Fits w.scheduler.isCanceled e.attempt then
      match e.attempt.step (w.handles e.task) move with
      | none => w
      | some (handle, attempt) => (w.proceed i e attempt).putHandle e.task handle
    else w

/-- What an execution does. -/
def doWork (w : Workshop) : Work → Workshop
  | .publish e => w.putBroker (w.site.broker.publish e).2
  | .commit locator snapshot =>
    { w with reconciler := w.reconciler.commit locator snapshot }
  | .keep store => { w with site := { w.site with store } }
  | .write files => { w with site := { w.site with files } }
  | .request network => { w with site := { w.site with network } }

/-- An errand executes its task. -/
def executes (w : Workshop) (i : Nat) : Bool :=
  w.errands[i]?.any fun e => e.attempt.isExecuting

/-- An errand that executes its task does something. -/
def work (w : Workshop) (i : Nat) (deed : Work) : Workshop :=
  if w.executes i then w.doWork deed else w

/-- Some numbers are unscheduled. -/
def unschedule (w : Workshop) (id : TaskId) : Workshop :=
  w.dismiss (w.scheduler.unschedule id).2

/-- When a tick has ended its task for good, the task is unscheduled. To do so again changes
nothing. -/
def retire (w : Workshop) (i : Nat) : Workshop :=
  match w.errands[i]? with
  | none => w
  | some e =>
    if e.attempt = .left (some .terminated) ∧ w.isDropped = false then w.unschedule e.id else w

/-! ## Turns of Calls -/

/-- A call that schedules a task looks at the scope. If this is open and the expression can be
read, it gets a number, which is stored with the task. -/
def ask (w : Workshop) (task : Nat) (name expression : String) :
    Except ScheduleFault Call × Workshop :=
  if w.scheduler.isCanceled then (.error .closed, w)
  else
    match Schedule.parse expression with
    | .error fault => (.error (.badExpression expression fault), w)
    | .ok schedule =>
      let id : TaskId := ⟨UInt64.ofNat (w.scheduler.issued + 1)⟩
      (.ok ⟨id, task, name, schedule⟩,
        { w.putHandle task ((w.handles task).setId id) with
          scheduler := { w.scheduler with issued := w.scheduler.issued + 1 } })

/-- A call enters its task, whatever has become of the scope. Its loop begins; in a canceled scope
it has been told to stop already. -/
def enter (w : Workshop) (c : Call) : Workshop :=
  let entries := w.scheduler.entries ++ [c.entry]
  let loops := Scheduler.loopFrom w.clock c.id c.task c.schedule
  if w.scheduler.isCanceled then
    { w with scheduler := { w.scheduler with entries }, stopping := w.stopping ++ loops }
  else { w with scheduler := { w.scheduler with entries, loops := w.scheduler.loops ++ loops } }

/-- A call without anything in between. -/
theorem schedule_eq (w : Workshop) (task : Nat) (name expression : String) :
    w.scheduler.schedule w.clock task name expression =
      (w.ask task name expression).1.map fun c =>
        (c.id, ((w.ask task name expression).2.enter c).scheduler) := by
  unfold Scheduler.schedule ask
  cases hscope : w.scheduler.isCanceled with
  | true => rfl
  | false =>
    cases hparse : Schedule.parse expression with
    | error fault => rfl
    | ok schedule => simp [Except.map, enter, putHandle, hscope, Call.entry]

/-! ## Turns of Those Who Cancel -/

/-- A cancellation comes to a scope. -/
def reach (w : Workshop) : Scope → Workshop
  | .agent => { w with isCanceled := true }
  | .scheduler => { w with scheduler := { w.scheduler with isCanceled := true } }
  | .loop l => w.dismiss { w.scheduler with loops := w.scheduler.loops.filter fun m => m ≠ l }

/-- The start or the shutdown cancels the scope of the agent. -/
def isCanceling (w : Workshop) : Bool :=
  w.starting.isCanceling || w.closing = .canceling

/-- Who may cancel a scope: the start and the shutdown all of them, and others, who may hold the
scheduler of an agent that has started, those of the scheduler. -/
def mayCancel (w : Workshop) : Scope → Bool
  | .agent => w.isCanceling
  | .scheduler | .loop _ => w.isCanceling || w.starting = .done

/-- The scope of the agent has been canceled with all those below it. -/
def cancel (w : Workshop) : Workshop :=
  { w.dismiss w.scheduler.cancel with isCanceled := true }

/-- Others who have canceled the scheduler remove all entries. -/
def drain (w : Workshop) : Workshop :=
  if w.starting = .done ∧ w.scheduler.isCanceled ∧ w.scheduler.loops = [] then
    { w with scheduler := { w.scheduler with entries := [] } }
  else w

/-! ## Turns of the Start -/

/-- The start goes on. -/
def start (w : Workshop) : Workshop :=
  match w.starting with
  | .journal rest =>
    let (journal, broker) := Journal.start w.site.broker
    { w.putBroker broker with journal := .of journal, starting := .listener rest }
  | .listener rest =>
    let (listener, broker) := Follower.start w.site.broker Reconciler.topics
    { w.putBroker broker with listener := .of listener, starting := .stops rest }
  | .stops rest =>
    let (stopListener, broker) := Follower.start w.site.broker [Topic.stop]
    { w.putBroker broker with stopListener := .of stopListener, starting := .tasks rest [] }
  | .tasks [] _ => { w with starting := .done }
  | .tasks ((t, expression) :: rest) ids =>
    match w.ask t.number t.name expression with
    | (.error fault, w) => { w with starting := .unscheduling ⟨t, fault⟩ ids }
    | (.ok call, w) => { w with starting := .entering call rest ids }
  | .entering call rest ids => { w.enter call with starting := .tasks rest (ids ++ [call.id]) }
  | .unscheduling fault [] => { w with starting := .canceling fault }
  | .unscheduling fault (id :: ids) =>
    { w.unschedule id with starting := .unscheduling fault ids }
  | .canceling fault => { w.cancel with starting := .leaving fault }
  | .leaving fault => { w with isDropped := true, starting := .failed fault }
  | .failed _ | .done => w

/-! ## Turns of the Shutdown -/

/-- Somebody asks for the shutdown of an agent that has started. -/
def close (w : Workshop) : Workshop :=
  if w.starting = .done ∧ w.closing = .unasked then { w with closing := .canceling } else w

/-- The shutdown goes on if what it waits for has ended. -/
def await (w : Workshop) : Workshop :=
  match w.closing with
  | .canceling => { w.cancel with closing := .journal }
  | .journal => if w.journal.follower.isRunning then w else { w with closing := .listener }
  | .listener =>
    if w.listener.follower.isRunning then w
    else
      let ids := w.scheduler.entries.map Prod.fst
      { w.dismiss w.scheduler.shutdown with closing := .loops ids }
  | .loops ids =>
    if (w.stopping ++ w.awake).any fun l => ids.contains l.id then w
    else { w with closing := .done ids }
  | .unasked | .done _ => w

/-- Whoever holds the scheduler after the shutdown lets it go. -/
def drop (w : Workshop) : Workshop :=
  if w.closing.isOver ∧ w.calls = [] then { w with isDropped := true } else w

/-! ## All Turns -/

/-- What comes next. -/
inductive Turn where
  | start
  | journal
  | listener
  | stops (eventFirst : Bool)
  | wake (l : TickLoop)
  | tick (l : TickLoop)
  | leave (l : TickLoop)
  | step (i : Nat) (move : Move)
  | work (i : Nat) (deed : Work)
  | retire (i : Nat)
  | ask (task : Nat) (name expression : String)
  | enter (k : Nat)
  | unschedule (id : TaskId)
  | reach (scope : Scope)
  | drain
  | other (operation : Broker.Operation)
  | pass (millis : Nat)
  | close
  | await
  | drop

/-- What comes of a turn. Others schedule and unschedule tasks of an agent that has started. -/
def turn (w : Workshop) : Turn → Workshop
  | .start => w.start
  | .journal => w.runJournal
  | .listener => w.runListener
  | .stops eventFirst => w.runStops eventFirst
  | .wake l => w.wake l
  | .tick l => w.tick l
  | .leave l => w.leave l
  | .step i move => w.step i move
  | .work i deed => w.work i deed
  | .retire i => w.retire i
  | .ask task name expression =>
    if w.starting = .done then
      match w.ask task name expression with
      | (.error _, w) => w
      | (.ok call, w) => { w with calls := w.calls ++ [call] }
    else w
  | .enter k =>
    match w.calls[k]? with
    | none => w
    | some call => { w.enter call with calls := w.calls.eraseIdx k }
  | .unschedule id => if w.starting = .done then w.unschedule id else w
  | .reach scope => if w.mayCancel scope then w.reach scope else w
  | .drain => w.drain
  | .other operation => w.putBroker (w.site.broker.perform operation).2
  | .pass millis => { w with clock := w.clock.after millis }
  | .close => w.close
  | .await => w.await
  | .drop => w.drop

/-- What comes of some turns, the latest first. -/
def after (w : Workshop) : List Turn → Workshop
  | [] => w
  | turn :: earlier => (w.after earlier).turn turn

theorem after_append (w : Workshop) (later earlier : List Turn) :
    w.after (later ++ earlier) = (w.after earlier).after later := by
  induction later with
  | nil => rfl
  | cons t later ih => exact congrArg (Workshop.turn · t) ih

/-! ## Stages -/

theorem stages_enter (w : Workshop) (c : Call) :
    (w.enter c).starting = w.starting ∧ (w.enter c).closing = w.closing := by
  unfold enter
  split
  · exact ⟨rfl, rfl⟩
  · exact ⟨rfl, rfl⟩

theorem stages_ask (w : Workshop) (task : Nat) (name expression : String) :
    (w.ask task name expression).2.starting = w.starting ∧
      (w.ask task name expression).2.closing = w.closing := by
  unfold ask
  split
  · exact ⟨rfl, rfl⟩
  · split
    · exact ⟨rfl, rfl⟩
    · exact ⟨rfl, rfl⟩

theorem closing_start (w : Workshop) : w.start.closing = w.closing := by
  unfold start
  split
  case h_5 t expression rest ids hstarting =>
    have hask := (w.stages_ask t.number t.name expression).2
    split
    · next fault w' heq => rwa [heq] at hask
    · next call w' heq => rwa [heq] at hask
  case h_6 call rest ids hstarting => exact (w.stages_enter call).2
  all_goals rfl

theorem starting_close (w : Workshop) : w.close.starting = w.starting := by
  unfold close
  split <;> rfl

theorem starting_await (w : Workshop) : w.await.starting = w.starting := by
  unfold await
  split
  · rfl
  · split <;> rfl
  · split <;> rfl
  · split <;> rfl
  · rfl
  · rfl

/-- Only those who start the agent, or ask for its shutdown or wait for it, bring these on. -/
theorem stages_turn {t : Turn} (hstart : t ≠ .start) (hclose : t ≠ .close) (hawait : t ≠ .await)
    (w : Workshop) : (w.turn t).starting = w.starting ∧ (w.turn t).closing = w.closing := by
  cases t with
  | start => exact absurd rfl hstart
  | close => exact absurd rfl hclose
  | await => exact absurd rfl hawait
  | stops eventFirst =>
    simp only [turn, runStops]
    split
    · split
      · exact ⟨rfl, rfl⟩
      · split
        · split <;> exact ⟨rfl, rfl⟩
        · split <;> exact ⟨rfl, rfl⟩
    · exact ⟨rfl, rfl⟩
  | wake l =>
    simp only [turn, wake]
    split <;> exact ⟨rfl, rfl⟩
  | tick l =>
    simp only [turn, tick]
    split <;> exact ⟨rfl, rfl⟩
  | leave l =>
    simp only [turn, leave]
    split <;> exact ⟨rfl, rfl⟩
  | step i move =>
    simp only [turn, step]
    split
    · exact ⟨rfl, rfl⟩
    · split
      · split <;> exact ⟨rfl, rfl⟩
      · exact ⟨rfl, rfl⟩
  | work i deed =>
    simp only [turn, work]
    split
    · cases deed <;> exact ⟨rfl, rfl⟩
    · exact ⟨rfl, rfl⟩
  | retire i =>
    simp only [turn, retire]
    split
    · exact ⟨rfl, rfl⟩
    · split <;> exact ⟨rfl, rfl⟩
  | ask task name expression =>
    have hask := w.stages_ask task name expression
    simp only [turn]
    split
    · split
      · next fault w' heq => rwa [heq] at hask
      · next call w' heq => rwa [heq] at hask
    · exact ⟨rfl, rfl⟩
  | enter k =>
    simp only [turn]
    split
    · exact ⟨rfl, rfl⟩
    · next call _ => exact w.stages_enter call
  | unschedule id =>
    simp only [turn]
    split <;> exact ⟨rfl, rfl⟩
  | reach scope =>
    simp only [turn]
    split
    · cases scope <;> exact ⟨rfl, rfl⟩
    · exact ⟨rfl, rfl⟩
  | drain =>
    simp only [turn, drain]
    split <;> exact ⟨rfl, rfl⟩
  | drop =>
    simp only [turn, drop]
    split <;> exact ⟨rfl, rfl⟩
  | journal | listener | other operation | pass millis => exact ⟨rfl, rfl⟩

/-- Only those who start the agent bring the start on. -/
theorem starting_turn {t : Turn} (hstart : t ≠ .start) (w : Workshop) :
    (w.turn t).starting = w.starting := by
  by_cases hclose : t = .close
  · subst hclose
    exact starting_close w
  · by_cases hawait : t = .await
    · subst hawait
      exact starting_await w
    · exact (stages_turn hstart hclose hawait w).1

/-- Only those who ask for the shutdown and wait for it bring it on. -/
theorem closing_turn {t : Turn} (hclose : t ≠ .close) (hawait : t ≠ .await) (w : Workshop) :
    (w.turn t).closing = w.closing := by
  by_cases hstart : t = .start
  · subst hstart
    exact closing_start w
  · exact (stages_turn hstart hclose hawait w).2

end Workshop

end EdgeSync
