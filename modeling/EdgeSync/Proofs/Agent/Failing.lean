import EdgeSync.Proofs.Agent.AtWork
import EdgeSync.Proofs.Agent.Hosting

/-!
# Agents That Do Not Start

The start of an agent schedules one task after the other, and the loops of those that it has
scheduled make ticks at once. When a task cannot be scheduled, the tasks before it are unscheduled,
the scope is canceled and the scheduler is left, but nobody waits for what is under way: for the
followers, for loops that have been told to stop, and for ticks. These come to their ends in any
order while others go on using the broker. A tick that had found the scope open may still execute
its task until then, and so may have one before the failure. When all have come to their ends,
nothing of the agent is left.

## Main definitions

- `Starting.fault?`: the fault that a start comes to
- `Workshop.Fails`: an agent whose start comes to a fault
- `Workshop.Settled`: all that was under way has come to its end
- `Workshop.LeavesNothing`: what holds at any time after a start that failed

## Main results

- `Workshop.Fails.turn`: every turn
- `Workshop.Settled.turn`, `Workshop.Settled.after`: nothing changes any more
- `Workshop.reaches_settled`: all can come to its end
- `Workshop.leaves_nothing`: after a start that failed
-/

namespace EdgeSync

/-! ## The Fault -/

/-- Why a task of a plan cannot be scheduled. -/
def AgentFault.of? (task : AgentTask × String) : Option AgentFault :=
  match Schedule.parse task.2 with
  | .error fault => some ⟨task.1, .badExpression task.2 fault⟩
  | .ok _ => none

/-- The fault that a start comes to: that of the first task that cannot be scheduled. -/
def Starting.fault? : Starting → Option AgentFault
  | .journal rest | .listener rest | .stops rest => rest.findSome? AgentFault.of?
  | .tasks rest _ | .entering _ rest _ => rest.findSome? AgentFault.of?
  | .unscheduling fault _ | .canceling fault | .leaving fault | .failed fault => some fault
  | .done => none

/-- The numbers that the start knows. -/
def Starting.ids : Starting → List TaskId
  | .tasks _ ids | .entering _ _ ids | .unscheduling _ ids => ids
  | _ => []

/-- The start gives up. -/
def Starting.givesUp : Starting → Bool
  | .canceling _ | .leaving _ | .failed _ => true
  | _ => false

/-- The start has given up, and has canceled the scope. -/
def Starting.hasCanceled : Starting → Bool
  | .leaving _ | .failed _ => true
  | _ => false

/-- The start has failed. -/
def Starting.hasFailed : Starting → Bool
  | .failed _ => true
  | _ => false

theorem Starting.hasCanceled_of_hasFailed {s : Starting} (h : s.hasFailed = true) :
    s.hasCanceled = true := by
  cases s with
  | failed fault => rfl
  | _ => cases h

theorem Starting.givesUp_of_isCanceling {s : Starting} (h : s.isCanceling = true) :
    s.givesUp = true := by
  cases s with
  | canceling fault => rfl
  | _ => cases h

namespace Workshop

variable {w : Workshop} {site : Site} {source : UpdateSource} {wall : Time.Instant}
  {fault : AgentFault}

/-- An open scheduler takes a task unless its expression cannot be read. -/
theorem scheduleTask_fault {a : Agent} (hopen : a.scheduler.isCanceled = false) (t : AgentTask) :
    match a.scheduleTask t with
    | .ok b => AgentFault.of? (t, t.schedule a.scene.site.store) = none ∧
        b.scheduler.isCanceled = false ∧ b.scene.site.store = a.scene.site.store
    | .error fault => AgentFault.of? (t, t.schedule a.scene.site.store) = some fault := by
  rw [Agent.scheduleTask, AgentFault.of?]
  cases hparse : Schedule.parse (t.schedule a.scene.site.store) with
  | error fault => rw [Roster.schedule_malformed hopen hparse]
  | ok schedule =>
    rw [Roster.schedule_ok hopen hparse]
    dsimp only
    split
    · exact ⟨rfl, hopen, rfl⟩
    · exact ⟨rfl, hopen, rfl⟩

/-- Scheduling the tasks of a plan one after the other comes to the fault of the plan. -/
theorem fold_fault? (tasks : List AgentTask) {a : Agent} (hopen : a.scheduler.isCanceled = false)
    {fault : AgentFault} (h : tasks.foldlM Agent.scheduleTask a = .error fault) :
    (planFor a.scene.site.store tasks).findSome? AgentFault.of? = some fault := by
  induction tasks generalizing a with
  | nil => cases h
  | cons t rest ih =>
    rw [List.foldlM_cons] at h
    have hfirst := scheduleTask_fault hopen t
    rw [planFor, List.map_cons, List.findSome?_cons]
    cases hschedule : a.scheduleTask t with
    | error e =>
      rw [hschedule] at h hfirst
      rw [hfirst]
      cases h
      rfl
    | ok b =>
      rw [hschedule] at h hfirst
      obtain ⟨hnone, hopen', hstore⟩ := hfirst
      rw [hnone]
      -- The store is the same, so the plan for the others is, too.
      have hrest := ih hopen' h
      rwa [hstore] at hrest

/-- An agent that does not start has a plan with a fault, and this is the one that is told. -/
theorem plan_fault? {b : Broker} (h : Agent.start site source wall = .error (fault, b)) :
    (plan site.store).findSome? AgentFault.of? = some fault := by
  unfold Agent.start at h
  dsimp only at h
  split at h
  · cases h
  · next fault' hfold =>
    cases h
    exact fold_fault? AgentTask.all (a := .prepare site source wall) rfl hfold

/-! ## What Every Turn Keeps -/

/-- An agent whose start comes to a fault. -/
structure Fails (fault : AgentFault) (w : Workshop) : Prop where
  fault : w.starting.fault? = some fault
  closing : w.closing = .unasked
  calls : w.calls = []
  /-- The tasks that are scheduled are those that the start knows. -/
  entries : ∀ entry ∈ w.scheduler.entries, entry.1 ∈ w.starting.ids
  /-- The scope is canceled by the start alone. -/
  isOpen : w.starting.givesUp = false → w.scheduler.isCanceled = false
  canceled : w.starting.hasCanceled = true →
    w.isCanceled = true ∧ w.scheduler.isCanceled = true ∧ w.scheduler.loops = []
  dropped : w.starting.hasFailed = true → w.isDropped = true

theorem fails_vacant {b : Broker} (h : Agent.start site source wall = .error (fault, b)) :
    Fails fault (vacant site wall) :=
  ⟨plan_fault? h, rfl, rfl, by rintro _ ⟨⟩, fun _ => rfl, by rintro ⟨⟩, by rintro ⟨⟩⟩

theorem Fails.undone (h : Fails fault w) : w.starting ≠ .done := by
  intro hdone
  have hnone := h.fault
  rw [hdone] at hnone
  cases hnone

/-- The next task of a plan is scheduled, or is the one that cannot be. -/
theorem Fails.tasks (h : Fails fault w) {t : AgentTask} {expression : String}
    {rest : List (AgentTask × String)} {ids : List TaskId}
    (hstarting : w.starting = .tasks ((t, expression) :: rest) ids) : Fails fault w.start := by
  obtain ⟨hfault, hclosing, hcalls, hentries, hopen, -, -⟩ := h
  rw [hstarting] at hfault hentries hopen
  rw [Workshop.start, hstarting]
  dsimp only
  rcases w.ask_cases t.number t.name expression with ⟨e, hask⟩ | ⟨-, schedule, hparse, hask⟩
  · -- The scheduler is open, so the expression is to blame.
    have hblame : AgentFault.of? (t, expression) = some ⟨t, e⟩ := by
      have hopen' := hopen rfl
      rw [ask, hopen'] at hask
      rw [AgentFault.of?]
      cases hparse : Schedule.parse expression with
      | error e' =>
        rw [hparse] at hask
        cases hask
        rfl
      | ok schedule =>
        rw [hparse] at hask
        cases hask
    have hsame : some fault = some ⟨t, e⟩ := by
      rw [← hfault, Starting.fault?, List.findSome?_cons, hblame]
    rw [hask]
    exact ⟨hsame.symm, hclosing, hcalls, hentries, fun _ => hopen rfl, by rintro ⟨⟩, by rintro ⟨⟩⟩
  · have hinnocent : AgentFault.of? (t, expression) = none := by
      rw [AgentFault.of?, hparse]
    rw [Starting.fault?, List.findSome?_cons, hinnocent] at hfault
    rw [hask]
    exact ⟨hfault, hclosing, hcalls, hentries, fun _ => hopen rfl, by rintro ⟨⟩, by rintro ⟨⟩⟩

/-- A task is entered, and its number is known. -/
theorem Fails.entering (h : Fails fault w) {call : Call} {rest : List (AgentTask × String)}
    {ids : List TaskId} (hstarting : w.starting = .entering call rest ids) :
    Fails fault w.start := by
  obtain ⟨hfault, hclosing, hcalls, hentries, hopen, -, -⟩ := h
  rw [hstarting] at hfault hentries hopen
  have henter : w.enter call = { w with scheduler := { w.scheduler with
      entries := w.scheduler.entries ++ [call.entry]
      loops := w.scheduler.loops ++
        Scheduler.loopFrom w.clock call.id call.task call.schedule } } := by
    simp [enter, hopen rfl]
  rw [Workshop.start, hstarting]
  dsimp only
  rw [henter]
  refine ⟨hfault, hclosing, hcalls, fun entry hentry => ?_, fun _ => hopen rfl, by rintro ⟨⟩,
    by rintro ⟨⟩⟩
  rcases List.mem_append.mp hentry with hold | hnew
  · exact List.mem_append_left _ (hentries entry hold)
  -- The new entry has the number of the call, which the start adds to those that it knows.
  · rw [List.mem_singleton.mp hnew]
    exact List.mem_append_right _ List.mem_cons_self

/-- A task that had been scheduled is unscheduled. -/
theorem Fails.unscheduling (h : Fails fault w) {e : AgentFault} {id : TaskId} {ids : List TaskId}
    (hstarting : w.starting = .unscheduling e (id :: ids)) : Fails fault w.start := by
  obtain ⟨hfault, hclosing, hcalls, hentries, hopen, -, -⟩ := h
  rw [hstarting] at hfault hentries hopen
  rw [Workshop.start, hstarting]
  refine ⟨hfault, hclosing, hcalls, fun entry hentry => ?_, fun _ => ?_, by rintro ⟨⟩, by rintro ⟨⟩⟩
  · have hkept : entry ∈ (w.scheduler.unschedule id).2.entries := hentry
    rw [Scheduler.unschedule_entries] at hkept
    obtain ⟨hold, hne⟩ := List.mem_filter.mp hkept
    rcases List.mem_cons.mp (hentries entry hold) with heq | hrest
    · simp [heq] at hne
    · exact hrest
  · exact (w.scheduler.unschedule_frame id).2.trans (hopen rfl)

/-- The start goes on. -/
theorem Fails.start (h : Fails fault w) : Fails fault w.start := by
  cases hstarting : w.starting with
  | tasks rest ids =>
    cases rest with
    | nil =>
      have hnone := h.fault
      rw [hstarting] at hnone
      cases hnone
    | cons task rest => exact h.tasks hstarting
  | entering call rest ids => exact h.entering hstarting
  | unscheduling e ids =>
    cases ids with
    | nil =>
      obtain ⟨hfault, hclosing, hcalls, hentries, -, -, -⟩ := h
      rw [hstarting] at hfault hentries
      rw [Workshop.start, hstarting]
      exact ⟨hfault, hclosing, hcalls, hentries, by rintro ⟨⟩, by rintro ⟨⟩, by rintro ⟨⟩⟩
    | cons id ids => exact h.unscheduling hstarting
  | done => exact absurd hstarting h.undone
  | journal rest | listener rest | stops rest =>
    obtain ⟨hfault, hclosing, hcalls, hentries, hopen, -, -⟩ := h
    rw [hstarting] at hfault hentries hopen
    rw [Workshop.start, hstarting]
    exact ⟨hfault, hclosing, hcalls, hentries, fun _ => hopen rfl, by rintro ⟨⟩, by rintro ⟨⟩⟩
  | canceling e =>
    obtain ⟨hfault, hclosing, hcalls, hentries, -, -, -⟩ := h
    rw [hstarting] at hfault hentries
    rw [Workshop.start, hstarting]
    exact ⟨hfault, hclosing, hcalls, hentries, by rintro ⟨⟩, fun _ => ⟨rfl, rfl, rfl⟩, by rintro ⟨⟩⟩
  | leaving e =>
    obtain ⟨hfault, hclosing, hcalls, hentries, -, hcanceled, -⟩ := h
    rw [hstarting] at hfault hentries hcanceled
    rw [Workshop.start, hstarting]
    exact ⟨hfault, hclosing, hcalls, hentries, by rintro ⟨⟩, fun _ => hcanceled rfl, fun _ => rfl⟩
  | failed e =>
    have hsame : w.start = w := by
      rw [Workshop.start, hstarting]
    rw [hsame]
    exact h

/-- What all other turns can do to an agent that has not started. -/
structure Aside (w w' : Workshop) : Prop where
  calls : w'.calls = w.calls
  closing : w'.closing = w.closing
  entries : w'.scheduler.entries.Sublist w.scheduler.entries
  isOpen : w.starting.givesUp = false → w'.scheduler.isCanceled = w.scheduler.isCanceled
  starting : w'.starting = w.starting
  dropped : w.isDropped = true → w'.isDropped = true

/-- What a turn has to leave as it is to be none of the start's concern. -/
def stance (w : Workshop) : List Call × Closing × Scheduler × Starting × Bool :=
  (w.calls, w.closing, w.scheduler, w.starting, w.isDropped)

theorem Aside.of_stance {w' : Workshop} (h : w'.stance = w.stance) : w.Aside w' := by
  obtain ⟨hcalls, hclosing, hscheduler, hstarting, hdropped⟩ :
      w'.calls = w.calls ∧ w'.closing = w.closing ∧ w'.scheduler = w.scheduler ∧
        w'.starting = w.starting ∧ w'.isDropped = w.isDropped := by
    simpa [stance] using h
  refine ⟨hcalls, hclosing, ?_, fun _ => ?_, hstarting, fun hgone => ?_⟩
  · rw [hscheduler]
  · rw [hscheduler]
  · rwa [hdropped]

theorem Aside.refl (w : Workshop) : w.Aside w :=
  .of_stance rfl

theorem Aside.trans {w' w'' : Workshop} (h : w.Aside w') (h' : w'.Aside w'') : w.Aside w'' where
  calls := h'.calls.trans h.calls
  closing := h'.closing.trans h.closing
  entries := h'.entries.trans h.entries
  isOpen hkeeps := (h'.isOpen (h.starting ▸ hkeeps)).trans (h.isOpen hkeeps)
  starting := h'.starting.trans h.starting
  dropped hd := h'.dropped (h.dropped hd)

theorem aside_unschedule (w : Workshop) (id : TaskId) : w.Aside (w.unschedule id) := by
  refine ⟨rfl, rfl, ?_, fun _ => (w.scheduler.unschedule_frame id).2, rfl, fun h => h⟩
  show (w.scheduler.unschedule id).2.entries.Sublist _
  rw [Scheduler.unschedule_entries]
  exact List.filter_sublist

theorem aside_heed (w : Workshop) (e : Event) : w.Aside (w.dismiss (w.scheduler.heed [e])) := by
  by_cases hstop : ∃ request, e.payload = .stop request
  · obtain ⟨request, hstop⟩ := hstop
    rw [Roster.heed_stop _ hstop]
    exact aside_unschedule w request.id
  · rw [Roster.heed_other _ fun request heq => hstop ⟨request, heq⟩]
    exact .of_stance rfl

theorem aside_runStops (w : Workshop) (eventFirst : Bool) : w.Aside (w.runStops eventFirst) := by
  have hend (v : Workshop) : v.Aside v.endStops :=
    .of_stance rfl
  unfold runStops
  split
  · split
    · exact hend w
    · rcases w.stopListener.look w.site.broker with ⟨found, stopListener, broker⟩
      dsimp only
      have hlook : w.Aside { w.putBroker broker with stopListener } :=
        .of_stance rfl
      cases found with
      | none =>
        dsimp only
        split
        · exact hlook.trans (hend _)
        · exact hlook
      | some d =>
        dsimp only
        split
        · exact hlook.trans (hend _)
        · exact hlook.trans (aside_heed _ d.event)
  · exact .refl w

/-- Before an agent has started, nobody but the start may cancel a scope. -/
theorem Fails.mayCancel_eq (h : Fails fault w) (scope : Scope) :
    w.mayCancel scope = w.starting.isCanceling := by
  cases scope <;> simp [mayCancel, isCanceling, h.closing, h.undone]

/-- Nobody but the start holds the scheduler of an agent that has not started. -/
theorem Fails.aside (h : Fails fault w) {t : Turn} (hstart : t ≠ .start) : w.Aside (w.turn t) := by
  have hundone := h.undone
  cases t with
  | start => exact absurd rfl hstart
  | journal | listener | other operation | pass millis =>
    exact .of_stance rfl
  | stops eventFirst => exact aside_runStops w eventFirst
  | wake l =>
    simp only [turn, wake]
    split
    · exact .of_stance rfl
    · exact .refl w
  | tick l =>
    simp only [turn, tick]
    split
    -- A loop that goes on waiting keeps its entry.
    · exact ⟨rfl, rfl, List.Sublist.refl _, fun _ => rfl, rfl, fun h => h⟩
    · exact .refl w
  | leave l =>
    simp only [turn, leave]
    split
    · exact .refl w
    · exact .of_stance rfl
  | step i move =>
    simp only [turn, step]
    split
    · exact .refl w
    · split
      · split
        · exact .refl w
        · exact .of_stance rfl
      · exact .refl w
  | work i deed =>
    simp only [turn, work]
    split
    · cases deed <;> exact .of_stance rfl
    · exact .refl w
  | retire i =>
    simp only [turn, retire]
    split
    · exact .refl w
    · split
      · exact aside_unschedule w _
      · exact .refl w
  | ask task name expression =>
    simp only [turn, if_neg hundone]
    exact .refl w
  | enter k =>
    simp only [turn, h.calls, List.getElem?_nil]
    exact .refl w
  | unschedule id =>
    simp only [turn, if_neg hundone]
    exact .refl w
  | reach scope =>
    simp only [turn]
    split
    · next hmay =>
      -- Only a start that gives up may cancel a scope.
      rw [h.mayCancel_eq] at hmay
      have hgivesUp := Starting.givesUp_of_isCanceling hmay
      have hnot (P : Prop) : w.starting.givesUp = false → P := by simp [hgivesUp]
      cases scope <;> exact ⟨rfl, rfl, List.Sublist.refl _, hnot _, rfl, fun h => h⟩
    · exact .refl w
  | drain =>
    simp only [turn, drain, hundone, false_and, if_false]
    exact .refl w
  | close =>
    simp only [turn, close, hundone, false_and, if_false]
    exact .refl w
  | await =>
    simp only [turn, await, h.closing]
    exact .refl w
  | drop =>
    simp only [turn, drop, h.closing, Closing.isOver, Bool.false_eq_true, false_and, if_false]
    exact .refl w

theorem Fails.turn (h : Fails fault w) (t : Turn) : Fails fault (w.turn t) := by
  by_cases hstart : t = .start
  · subst hstart
    exact h.start
  · have haside := h.aside hstart
    have hstays := stays_turn w t
    refine ⟨?_, ?_, ?_, fun entry hentry => ?_, fun hkeeps => ?_, fun hcanceled => ?_,
      fun hfailed => ?_⟩
    · rw [haside.starting]
      exact h.fault
    · rw [haside.closing]
      exact h.closing
    · rw [haside.calls]
      exact h.calls
    · rw [haside.starting]
      exact h.entries entry (haside.entries.subset hentry)
    · rw [haside.starting] at hkeeps
      exact (haside.isOpen hkeeps).trans (h.isOpen hkeeps)
    · rw [haside.starting] at hcanceled
      obtain ⟨hscope, hscheduler, hloops⟩ := h.canceled hcanceled
      -- Nobody opens a scope again, and no loop begins to wait in a canceled one.
      exact ⟨hstays.scope hscope, hstays.scheduler hscheduler, hstays.loops hscheduler hloops⟩
    · rw [haside.starting] at hfailed
      exact haside.dropped (h.dropped hfailed)

theorem Fails.after (h : Fails fault w) (turns : List Turn) : Fails fault (w.after turns) := by
  induction turns with
  | nil => exact h
  | cons t earlier ih => exact ih.turn t

/-- A start that has failed stays so. -/
theorem failed_after {told : AgentFault} (h : w.starting = .failed told) (turns : List Turn) :
    (w.after turns).starting = .failed told := by
  induction turns with
  | nil => exact h
  | cons t earlier ih =>
    by_cases hstart : t = .start
    · have hsame : (w.after earlier).start = w.after earlier := by
        rw [Workshop.start, ih]
      rw [Workshop.after, hstart, Workshop.turn, hsame]
      exact ih
    · rw [Workshop.after, starting_turn hstart]
      exact ih

/-! ## Nothing Is Left -/

/-- All that was under way has come to its end. -/
structure Settled (w : Workshop) : Prop where
  journal : w.journal.follower.isRunning = false
  listener : w.listener.follower.isRunning = false
  stopListener : w.stopListener.follower.isRunning = false
  awake : w.awake = []
  stopping : w.stopping = []
  errands : ∀ e ∈ w.errands, ∃ tick, e.attempt = .left tick

/-- What others do with the broker, and the time that passes. -/
def remain (w : Workshop) : Turn → Workshop
  | .other operation => w.putBroker (w.site.broker.perform operation).2
  | .pass millis => { w with clock := w.clock.after millis }
  | _ => w

theorem Fails.entries_failed (h : Fails fault w) (hfailed : w.starting.hasFailed = true) :
    w.scheduler.entries = [] := by
  have hids : w.starting.ids = [] := by
    cases hstarting : w.starting with
    | failed e => rfl
    | _ =>
      rw [hstarting] at hfailed
      cases hfailed
  refine List.eq_nil_iff_forall_not_mem.mpr fun entry hentry => ?_
  have hknown := h.entries entry hentry
  rw [hids] at hknown
  cases hknown

theorem Fails.mayCancel_failed (h : Fails fault w) (hfailed : w.starting.hasFailed = true)
    (scope : Scope) : w.mayCancel scope = false := by
  rw [h.mayCancel_eq]
  cases hstarting : w.starting with
  | failed e => rfl
  | _ =>
    rw [hstarting] at hfailed
    cases hfailed

theorem Settled.left (h : w.Settled) {i : Nat} {e : Errand} (hat : w.errands[i]? = some e) :
    ∃ tick, e.attempt = .left tick :=
  h.errands e (List.mem_of_getElem? hat)

/-- When nothing is left of an agent that has not started, it does nothing. -/
theorem Settled.turn (h : w.Settled) (hfails : Fails fault w)
    (hfailed : w.starting.hasFailed = true) (t : Turn) : w.turn t = w.remain t := by
  obtain ⟨-, hscheduler, hloops⟩ :=
    hfails.canceled (Starting.hasCanceled_of_hasFailed hfailed)
  have hundone := hfails.undone
  cases t with
  | other operation => rfl
  | pass millis => rfl
  | start =>
    cases hstarting : w.starting with
    | failed e => simp [Workshop.turn, Workshop.start, hstarting, remain]
    | _ =>
      rw [hstarting] at hfailed
      cases hfailed
  | journal => simp [Workshop.turn, runJournal, Patrol.poll_ended h.journal, log, putBroker, remain]
  | listener =>
    simp [Workshop.turn, runListener, Patrol.poll_ended h.listener, follow, putBroker, remain]
  | stops eventFirst => simp [Workshop.turn, runStops, h.stopListener, remain]
  | wake l => simp [Workshop.turn, wake, Scheduler.due, hloops, remain]
  | tick l => simp [Workshop.turn, tick, h.awake, remain]
  | leave l =>
    have hsame : (w.stopping.filter fun m => m ≠ l) = w.stopping := by
      rw [h.stopping, List.filter_nil]
    rw [Workshop.turn, leave, if_neg (by simp [h.awake]), hsame]
    rfl
  | step i move =>
    simp only [Workshop.turn, step, remain]
    split
    · rfl
    · next e hat =>
      obtain ⟨tick, hleft⟩ := h.left hat
      rw [hleft]
      cases move <;> simp [Attempt.step]
  | work i deed =>
    have hnot : w.executes i = false := by
      cases hat : w.errands[i]? with
      | none => simp [executes, hat]
      | some e =>
        obtain ⟨tick, hleft⟩ := h.left hat
        simp [executes, hat, hleft, Attempt.isExecuting]
    simp [Workshop.turn, work, hnot, remain]
  | retire i =>
    simp only [Workshop.turn, retire, hfails.dropped hfailed, remain]
    split
    · rfl
    · simp
  | ask task name expression => simp [Workshop.turn, hundone, remain]
  | enter k => simp [Workshop.turn, hfails.calls, remain]
  | unschedule id => simp [Workshop.turn, hundone, remain]
  | reach scope => simp [Workshop.turn, hfails.mayCancel_failed hfailed, remain]
  | drain => simp [Workshop.turn, drain, hundone, remain]
  | close => simp [Workshop.turn, close, hundone, remain]
  | await => simp [Workshop.turn, await, hfails.closing, remain]
  | drop => simp [Workshop.turn, drop, hfails.closing, Closing.isOver, remain]

/-- Nothing changes any more, but what others do with the broker, and the time. -/
theorem Settled.after (h : w.Settled) (hfails : Fails fault w)
    (hfailed : w.starting.hasFailed = true) (turns : List Turn) :
    ∃ broker clock, w.after turns = { w.putBroker broker with clock } := by
  induction turns with
  | nil => exact ⟨w.site.broker, w.clock, rfl⟩
  | cons t earlier ih =>
    obtain ⟨broker, clock, hearlier⟩ := ih
    have hsettled : (w.after earlier).Settled := by
      rw [hearlier]
      exact ⟨h.journal, h.listener, h.stopListener, h.awake, h.stopping, h.errands⟩
    have hfailed' : (w.after earlier).starting.hasFailed = true := by
      rw [hearlier]
      exact hfailed
    have hlast := hsettled.turn (hfails.after earlier) hfailed' t
    rw [Workshop.after, hlast, hearlier]
    cases t with
    | other operation => exact ⟨_, clock, rfl⟩
    | pass millis => exact ⟨broker, _, rfl⟩
    | _ => exact ⟨broker, clock, rfl⟩

/-! ## All Can Come to Its End -/

/-- The listener to stop events ends in a canceled scope. -/
theorem reaches_stops_ended (hcanceled : w.scheduler.isCanceled = true) :
    ∃ stopListener broker, w.Reaches { w.putBroker broker with stopListener } ∧
      stopListener.follower.isRunning = false := by
  cases hruns : w.stopListener.follower.isRunning with
  | false => exact ⟨w.stopListener, w.site.broker, .refl w, hruns⟩
  | true =>
    have hturn := Reaches.turn w (.stops false)
    rw [Workshop.turn, runStops_canceled hcanceled hruns] at hturn
    exact ⟨_, _, hturn, rfl⟩

/-- Whatever is under way in a canceled scope, some turns bring it to its end. -/
theorem reaches_settled (hscope : w.isCanceled = true)
    (hscheduler : w.scheduler.isCanceled = true) : ∃ w', w.Reaches w' ∧ w'.Settled := by
  -- First the loops that have woken, then the ticks.
  obtain ⟨scheduler, errands, hasleep⟩ := reaches_asleep w
  have hcanceled : scheduler.isCanceled = true := hasleep.stays.scheduler hscheduler
  obtain ⟨handles, errands', hleft, hlength, hall⟩ :=
    reaches_left (w := { w with scheduler, errands, awake := [] }) hcanceled errands.length
  have hended : ∀ e ∈ errands', ∃ tick, e.attempt = .left tick := by
    intro e he
    obtain ⟨i, hlt, hat⟩ := List.mem_iff_getElem.mp he
    exact hall i e (hlt.trans_eq hlength) (List.getElem?_eq_some_iff.mpr ⟨hlt, hat⟩)
  have hfirst := hasleep.trans hleft
  generalize hv : ({ w with scheduler, handles, errands := errands', awake := [] } : Workshop) = v
    at hfirst
  -- Then the followers, and the loops that have been told to stop.
  obtain ⟨logged, journal, b, hwatches, hjournal⟩ := Patrol.watches_end v.journal v.site.broker
  obtain ⟨followed, listener, c, hwatches', hlistener⟩ := Patrol.watches_end v.listener b
  have hlog := reaches_log hwatches rfl rfl (by rw [← hv]; exact hscope)
  have hfollow := reaches_follow hwatches' (w := v.log logged journal b) rfl rfl
    (by rw [← hv]; exact hscope)
  obtain ⟨stopListener, d, hstops, hstopped⟩ :=
    reaches_stops_ended (w := (v.log logged journal b).follow followed listener c)
      (by rw [← hv]; exact hcanceled)
  have hleave := reaches_leave
    (w := { ((v.log logged journal b).follow followed listener c).putBroker d with stopListener })
    v.stopping (by rw [← hv]; rfl) (List.Subset.refl _)
  refine ⟨_, hfirst.trans (hlog.trans (hfollow.trans (hstops.trans hleave))),
    hjournal, hlistener, hstopped, ?_, rfl, ?_⟩
  · rw [← hv]
    rfl
  · rw [← hv]
    exact hended

/-- A start that gives up comes to its end. -/
theorem reaches_failed {ids : List TaskId} (hstarting : w.starting = .unscheduling fault ids) :
    ∃ scheduler stopping, scheduler.isCanceled = true ∧
      w.Reaches { w with
        scheduler, stopping
        isCanceled := true
        isDropped := true
        starting := .failed fault } := by
  induction ids generalizing w with
  | nil =>
    have hfirst : w.start = { w with starting := .canceling fault } := by
      rw [Workshop.start, hstarting]
    have hturns : w.after [.start, .start, .start] =
        { w.cancel with isDropped := true, starting := .failed fault } := by
      rw [Workshop.after, Workshop.after, Workshop.after, Workshop.after, Workshop.turn,
        Workshop.turn, Workshop.turn, hfirst]
      rfl
    exact ⟨_, _, rfl, _, hturns.symm⟩
  | cons id ids ih =>
    have hturn := Reaches.turn w .start
    rw [Workshop.turn, Workshop.start, hstarting] at hturn
    obtain ⟨scheduler, stopping, hcanceled, hrest⟩ :=
      ih (w := { w.unschedule id with starting := .unscheduling fault ids }) rfl
    exact ⟨scheduler, stopping, hcanceled, hturn.trans hrest⟩

/-- When an agent does not start, its workshop comes to the same fault; and when the followers have
ended there one after the other, the broker is the one that is given back. -/
theorem reaches_given_back {b : Broker} (h : Agent.start site source wall = .error (fault, b)) :
    ∃ w, (vacant site wall).Reaches w ∧ w.starting = .failed fault ∧ w.Settled ∧
      w.site.broker = b := by
  obtain ⟨rfl, scheduler, handles, trace, ids, hunscheduling⟩ := reaches_unstarted h
  obtain ⟨scheduler', stopping, hcanceled, hfailed⟩ := reaches_failed
    (w := enroute { Agent.prepare site source wall with scheduler, handles, trace }
      (.unscheduling fault ids)) rfl
  let gone : Workshop :=
    { enroute { Agent.prepare site source wall with scheduler, handles, trace }
      (.unscheduling fault ids) with
        scheduler := scheduler', stopping, isCanceled := true, isDropped := true,
        starting := .failed fault }
  have hended := reaches_endFollowers (w := gone) rfl hcanceled rfl rfl rfl rfl rfl
  have hleft := reaches_leave (w := gone.endFollowers) stopping rfl (List.Subset.refl _)
  exact ⟨_, hunscheduling.trans (hfailed.trans (hended.trans hleft)), rfl,
    ⟨rfl, rfl, rfl, rfl, rfl, nofun⟩, rfl⟩

/-! ## The Store -/

/-- Unless a task is executed, a turn leaves all of a site but its broker. -/
theorem site_turn (hidle : ∀ i, w.executes i = false) (t : Turn) :
    (w.turn t).site = { w.site with broker := (w.turn t).site.broker } := by
  cases huses : t.usesBroker with
  | false =>
    have hsite : (w.turn t).site = w.site := congrArg Prod.fst (floor_turn huses w)
    rw [hsite]
  | true =>
    cases t with
    | start =>
      by_cases hbegun : w.starting.isBegun = true
      · have hsite : w.start.site = w.site := congrArg Prod.fst (floor_start hbegun)
        rw [Workshop.turn, hsite]
      · cases hstarting : w.starting with
        | journal rest | listener rest | stops rest =>
          simp [Workshop.turn, Workshop.start, hstarting, putBroker]
        | _ =>
          rw [hstarting] at hbegun
          exact absurd rfl hbegun
    | stops eventFirst =>
      obtain ⟨stopListener, broker, scheduler, stopping, heq, -⟩ := w.runStops_minds eventFirst
      rw [Workshop.turn, heq]
      rfl
    | work i deed =>
      have hsame : w.work i deed = w := by simp [work, hidle i]
      rw [Workshop.turn, hsame]
    | journal | listener | other operation => rfl
    | _ => cases huses

/-- Unless a task is ever executed, nothing of a site but its broker changes. -/
theorem site_after {turns : List Turn}
    (hidle : ∀ earlier, earlier <:+ turns → ∀ i, (w.after earlier).executes i = false) :
    (w.after turns).site = { w.site with broker := (w.after turns).site.broker } := by
  induction turns with
  | nil => rfl
  | cons t earlier ih =>
    have hsuffix := List.suffix_cons t earlier
    have hearlier := ih fun early hearly => hidle early (hearly.trans hsuffix)
    have hlast := site_turn (hidle earlier hsuffix) t
    rw [hearlier] at hlast
    exact hlast

/-! ## Results -/

/-- What holds at any time after a start that failed. -/
structure LeavesNothing (site : Site) (wall : Time.Instant) (turns : List Turn)
    (failed now : Workshop) : Prop where
  /-- No task is scheduled, none can be, and no loop waits for a tick. -/
  entries : now.scheduler.entries = []
  loops : now.scheduler.loops = []
  refuses : ∀ task name expression, now.ask task name expression = (.error .closed, now)
  /-- Ticks are made by loops only that had woken when the start failed, and executions are those
  of ticks that had been cleared or executed their tasks by then. -/
  ticks : failed.Dwindles now
  executes : ∀ (i : Nat) (e' : Errand), now.errands[i]? = some e' →
    e'.attempt.isExecuting = true → ∃ e, failed.errands[i]? = some e ∧ e.id = e'.id ∧
      e.task = e'.task ∧ (e.attempt.isCleared = true ∨ e.attempt.isExecuting = true)
  /-- All that is under way can come to its end, -/
  settles : ∃ later, now.Reaches later ∧ later.Settled
  /-- and then nothing changes any more but what others do with the broker, and the time. -/
  settled : now.Settled → ∀ later, ∃ broker clock,
    now.after later = { now.putBroker broker with clock }
  /-- Each topic has as many subscriptions then as it would have without the agent: -/
  counts : now.Settled → ∀ topic,
    now.site.broker.count topic = ((vacant site wall).without turns).count topic
  /-- as many as before, unless others have subscribed or dropped subscriptions. -/
  before : now.Settled → (∀ operation, .other operation ∈ turns → operation.LeavesAll) →
    ∀ topic, now.site.broker.count topic = site.broker.count topic
  /-- The store, the files and the network are those of the site, unless a task was executed. -/
  unchanged : (∀ earlier, earlier <:+ turns → ∀ i,
    ((vacant site wall).after earlier).executes i = false) →
      now.site = { site with broker := now.site.broker }

/-- When an agent does not start, whatever happens while it tries to and afterwards, it comes to
the same fault, and nothing of it is left when all that was under way has come to its end. -/
theorem leaves_nothing {b : Broker} (capacity : Nat) (operations : List Broker.Operation)
    (hbroker : site.broker = ((Broker.new capacity).after operations).2)
    (hfails : Agent.start site source wall = .error (fault, b)) :
    (∃ w, (vacant site wall).Reaches w ∧ w.starting = .failed fault ∧ w.Settled ∧
      w.site.broker = b) ∧
    ∀ earlier, ((vacant site wall).after earlier).starting ≠ .done ∧
      ∀ told, ((vacant site wall).after earlier).starting = .failed told → told = fault ∧
        ∀ later, LeavesNothing site wall (later ++ earlier) ((vacant site wall).after earlier)
          ((vacant site wall).after (later ++ earlier)) := by
  refine ⟨reaches_given_back hfails, fun earlier => ?_⟩
  have hearlier := (fails_vacant hfails).after earlier
  refine ⟨hearlier.undone, fun told htold => ?_⟩
  have htells : ∃ deeds, Broker.Tells deeds site.broker := by
    rw [hbroker]
    exact ⟨_, Broker.tells_after (Broker.tells_new capacity) operations⟩
  obtain ⟨deeds, htells⟩ := htells
  refine ⟨?_, fun later => ?_⟩
  -- The fault can be told from the plan at any time.
  · have hfault := hearlier.fault
    rw [htold] at hfault
    exact Option.some.inj hfault
  -- What the start knows, what the followers hold, and what has become of ticks and loops.
  · have hfails' := (fails_vacant hfails).after (later ++ earlier)
    have hhoused := housed_after htells wall (later ++ earlier)
    have hstays := stays_after ((vacant site wall).after earlier) later
    rw [← after_append] at hstays
    obtain ⟨hscope, hscheduler, hloops⟩ := hearlier.canceled (by rw [htold]; rfl)
    have hdwindles := hstays.dwindles hscheduler hloops
    have hfailed : ((vacant site wall).after (later ++ earlier)).starting.hasFailed = true := by
      rw [after_append, failed_after htold]
      rfl
    exact {
      entries := hfails'.entries_failed hfailed
      loops := hstays.loops hscheduler hloops
      refuses := ask_canceled (hstays.scheduler hscheduler)
      ticks := hdwindles
      executes := fun _ _ => hdwindles.executes
      settles := reaches_settled (hstays.scope hscope) (hstays.scheduler hscheduler)
      settled := fun hsettled => hsettled.after hfails' hfailed
      counts := fun hsettled => hhoused.count_eq hsettled.journal hsettled.listener
        hsettled.stopListener
      before := fun hsettled hleave topic =>
        (hhoused.count_eq hsettled.journal hsettled.listener hsettled.stopListener topic).trans
          (count_without htells wall hleave topic)
      unchanged := site_after }

/-- A site where the last task has a schedule that cannot be read; somebody else has subscribed to
two topics of the broker. -/
def nonsense : Site where
  files := .empty
  network := .bare true
  store := .ofConfig { Config.empty with
    settings := { Settings.empty with jobs := [⟨Job.updateConfig, "nonsense"⟩] } }
  broker := ((Broker.new 4).after [.subscribe Topic.stop, .subscribe Topic.update]).2

/-- The end of all that is under way there, the latest turn first: two tasks have been scheduled,
and their loops have been told to stop. -/
def cleanup : List Turn :=
  [.leave ⟨⟨2⟩, 1, .every ⟨30000000000⟩, 30000⟩, .leave ⟨⟨1⟩, 0, .every ⟨5000000000⟩, 5000⟩,
    .stops false, .listener, .journal]

/-- The agent does not start there, and nothing is left of it. -/
theorem leaves_nothing_nonsense :
    ∃ fault b, Agent.start nonsense (.file "a") (.ofUnix 0 0) = .error (fault, b) ∧
      fault.task = .refresh ∧
      (∃ w, (vacant nonsense (.ofUnix 0 0)).Reaches w ∧ w.starting = .failed fault ∧
        w.Settled ∧ w.site.broker = b) ∧
      ((vacant nonsense (.ofUnix 0 0)).after (List.replicate 13 .start)).starting =
        .failed fault ∧
      LeavesNothing nonsense (.ofUnix 0 0) (cleanup ++ List.replicate 13 .start)
        ((vacant nonsense (.ofUnix 0 0)).after (List.replicate 13 .start))
        ((vacant nonsense (.ofUnix 0 0)).after (cleanup ++ List.replicate 13 .start)) ∧
      ((vacant nonsense (.ofUnix 0 0)).after (cleanup ++ List.replicate 13 .start)).Settled := by
  have hfails : (Agent.start nonsense (.file "a") (.ofUnix 0 0)).toBool = false := by
    decide +kernel
  have hfaults : ((vacant nonsense (.ofUnix 0 0)).after (List.replicate 13 .start)).starting =
      .failed ⟨.refresh, .badExpression "nonsense" (.fieldCount 1)⟩ := by
    decide +kernel
  cases hstart : Agent.start nonsense (.file "a") (.ofUnix 0 0) with
  | ok a =>
    rw [hstart] at hfails
    cases hfails
  | error failure =>
    obtain ⟨fault, b⟩ := failure
    obtain ⟨hback, hall⟩ := leaves_nothing 4 _ rfl hstart
    obtain ⟨htold, hnothing⟩ := (hall (List.replicate 13 .start)).2 _ hfaults
    refine ⟨fault, b, rfl, ?_, hback, ?_, hnothing cleanup, ?_⟩
    · rw [← htold]
    · rw [← htold]
      exact hfaults
    · have hnone : ((vacant nonsense (.ofUnix 0 0)).after
          (cleanup ++ List.replicate 13 .start)).errands = [] := by
        decide +kernel
      exact ⟨by decide +kernel, by decide +kernel, by decide +kernel, by decide +kernel,
        by decide +kernel, by rw [hnone]; nofun⟩

/-- An execution of the reconciliation in one go. -/
theorem reaches_reconciliation {i : Nat} {e : Errand} (hat : w.errands[i]? = some e)
    (hexecuting : e.attempt.isExecuting = true) :
    w.Reaches (w.putScene (Scene.new w.site w.reconciler).execute.2) := by
  obtain ⟨-, -, deeds, hdeeds⟩ := leads_run (s := .new w.site w.reconciler)
    (Pass.maxSteps w.reconciler.tracked.length) rfl (.start w.reconciler)
  have hdone := reaches_doWork hexecuting deeds hat
  have hscene : deeds.foldl doWork w =
      w.putScene (Scene.new w.site w.reconciler).execute.2 := hdeeds w
  rwa [hscene] at hdone

/-- A site where the reconciliation is due every millisecond, with a state to copy from another
registry, and where the last task has a schedule that cannot be read. -/
def hasty : Site where
  files := .empty
  network := .bare true
  store := .ofConfig { Config.empty with
    enrollment := ⟨⟨"edge", "harbor.local", "secret"⟩, ["http://gc.local/state"]⟩
    settings := { Settings.empty with
      jobs := [⟨Job.replicateState, "@every 1ms"⟩, ⟨Job.updateConfig, "nonsense"⟩] }
    zotUrl := "localhost:5000" }
  broker := .new Broker.defaultCapacity

/-- Two tasks have been scheduled there, a millisecond has passed, and a tick of the second one has
found the scope open and executes the task. -/
def overtaken : Workshop :=
  (vacant hasty (.ofUnix 0 0)).after
    ([.step 0 .start, .step 0 (.look false), .step 0 (.check none), .step 0 .begin,
      .tick ⟨⟨2⟩, 1, .every ⟨1000000⟩, 1⟩, .wake ⟨⟨2⟩, 1, .every ⟨1000000⟩, 1⟩, .pass 1] ++
      List.replicate 7 .start)

/-- What this execution comes to. -/
def overtaking : Outcome × Scene :=
  (Scene.new overtaken.site overtaken.reconciler).execute

/-- What comes after it: the start fails, and all comes to its end. -/
def aftermath : List Turn :=
  [.leave ⟨⟨2⟩, 1, .every ⟨1000000⟩, 2⟩, .leave ⟨⟨1⟩, 0, .every ⟨5000000000⟩, 5000⟩,
    .stops false, .listener, .journal] ++ List.replicate 6 .start ++
    [.step 0 .drop, .step 0 .release, .step 0 (.finish overtaking.1)]

/-- When the agent does not start there, a task of it may have been executed before, and have
changed the store. -/
theorem executes_before_failure :
    (Agent.start hasty (.file "a") (.ofUnix 0 0)).toBool = false ∧
      overtaken.reconciler.obstacle? = none ∧
      hasty.store.config.enrollment.auth.registry = "harbor.local" ∧
      ∃ w, (vacant hasty (.ofUnix 0 0)).Reaches w ∧
        w.starting = .failed ⟨.refresh, .badExpression "nonsense" (.fieldCount 1)⟩ ∧
        w.Settled ∧ w.errands = [⟨⟨2⟩, 1, .left (some (.ofOutcome overtaking.1))⟩] ∧
        w.site.store.config.enrollment.auth.registry = "gc.local/state" := by
  have hexecution : overtaken.Reaches (overtaken.putScene overtaking.2) :=
    reaches_reconciliation (i := 0) (e := ⟨⟨2⟩, 1, .executing .fresh⟩) (by decide +kernel) rfl
  have herrands : ((overtaken.putScene overtaking.2).after aftermath).errands =
      [⟨⟨2⟩, 1, .left (some (.ofOutcome overtaking.1))⟩] := by
    decide +kernel
  refine ⟨by decide +kernel, by decide +kernel, rfl, (overtaken.putScene overtaking.2).after
    aftermath, Reaches.trans ⟨_, rfl⟩ (hexecution.trans ⟨_, rfl⟩), by decide +kernel,
    ⟨by decide +kernel, by decide +kernel, by decide +kernel, by decide +kernel,
      by decide +kernel, ?_⟩, herrands, by decide +kernel⟩
  rw [herrands]
  simp

end Workshop

end EdgeSync
