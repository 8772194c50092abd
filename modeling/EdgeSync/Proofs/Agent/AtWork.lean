import EdgeSync.Proofs.Agent.Dwindling
import EdgeSync.Proofs.Task.Numbers

/-!
# Agents at Work

Whatever an agent does in one go is a number of turns of its workshop: starting, following events,
ticking a task, letting time pass, and shutting down.

## Main definitions

- `Workshop.Reaches`: from one workshop to another by some turns

## Main results

- `Workshop.reaches_started`, `Workshop.reaches_refused`: starting, and failing to
- `Workshop.reaches_settle`, `Workshop.reaches_tick`, `Workshop.reaches_shutdown`: all else
-/

namespace EdgeSync

namespace Workshop

/-! ## Handles -/

theorem number_of_getElem? {task : Nat} {t : AgentTask} (h : AgentTask.all[task]? = some t) :
    t.number = task := by
  rcases task with _ | _ | _ | task
  · cases h
    rfl
  · cases h
    rfl
  · cases h
    rfl
  · cases h

theorem get_put_other {t u : AgentTask} (hne : u ≠ t) (h : AgentHandles) (handle : TaskHandle) :
    (h.put t handle).get u = h.get u := by
  cases t <;> cases u <;> first | rfl | exact absurd rfl hne

theorem handlesOf_put (h : AgentHandles) (t : AgentTask) (handle : TaskHandle) :
    handlesOf (h.put t handle) = Function.update (handlesOf h) t.number handle := by
  funext task
  by_cases heq : task = t.number
  · subst heq
    rw [Function.update_self]
    cases t <;> rfl
  · rw [Function.update_of_ne heq]
    cases hat : AgentTask.all[task]? with
    | none => simp only [handlesOf, hat, Option.elim]
    | some u =>
      have hne : u ≠ t := by
        rintro rfl
        exact heq (number_of_getElem? hat).symm
      simp only [handlesOf, hat, Option.elim, get_put_other hne]

theorem handlesOf_number (h : AgentHandles) (t : AgentTask) : handlesOf h t.number = h.get t := by
  cases t <;> rfl

/-! ## Turns without Interruption -/

/-- Some turns lead from one workshop to another. -/
def Reaches (w w' : Workshop) : Prop :=
  ∃ turns, w' = w.after turns

theorem Reaches.refl (w : Workshop) : w.Reaches w :=
  ⟨[], rfl⟩

theorem Reaches.trans {w w' w'' : Workshop} (h : w.Reaches w') (h' : w'.Reaches w'') :
    w.Reaches w'' := by
  obtain ⟨earlier, rfl⟩ := h
  obtain ⟨later, rfl⟩ := h'
  exact ⟨later ++ earlier, (after_append w later earlier).symm⟩

theorem Reaches.turn (w : Workshop) (t : Turn) : w.Reaches (w.turn t) :=
  ⟨[t], rfl⟩

theorem Reaches.stays {w w' : Workshop} (h : w.Reaches w') : w.Stays w' := by
  obtain ⟨turns, rfl⟩ := h
  exact stays_after w turns

/-- All loops that have been told to stop end, unless they still have ticks to make. -/
theorem reaches_leave (loops : List TickLoop) {w : Workshop} (hasleep : w.awake = [])
    (hall : w.stopping ⊆ loops) : w.Reaches { w with stopping := [] } := by
  induction loops generalizing w with
  | nil =>
    have hnone : w.stopping = [] := List.subset_nil.mp hall
    rw [← hnone]
    exact .refl w
  | cons l loops ih =>
    have hleave : w.leave l = { w with stopping := w.stopping.filter fun m => m ≠ l } := by
      simp [leave, hasleep]
    have hrest : (w.leave l).stopping ⊆ loops := by
      rw [hleave]
      intro m hm
      obtain ⟨hmem, hne⟩ := List.mem_filter.mp hm
      rcases List.mem_cons.mp (hall hmem) with rfl | hrest
      · simp at hne
      · exact hrest
    have hlast := ih (w := w.leave l) (by rw [hleave]; exact hasleep) hrest
    rw [hleave] at hlast
    have hfirst := Reaches.turn w (.leave l)
    rw [Workshop.turn, hleave] at hfirst
    exact hfirst.trans hlast

/-! ## Starting -/

/-- An agent in the middle of its start. -/
def enroute (a : Agent) (starting : Starting) : Workshop :=
  { of a with starting }

variable {site : Site} {source : UpdateSource} {wall : Time.Instant}

/-- The followers begin. -/
theorem reaches_prepared (site : Site) (source : UpdateSource) (wall : Time.Instant) :
    (vacant site wall).Reaches
      (enroute (.prepare site source wall) (.tasks (plan site.store) [])) :=
  ⟨[.start, .start, .start], rfl⟩

/-- One task is scheduled. -/
theorem reaches_scheduled {a b : Agent} {t : AgentTask} (h : a.scheduleTask t = .ok b)
    (rest : List (AgentTask × String)) (ids : List TaskId) :
    ∃ id, (enroute a (.tasks ((t, t.schedule a.scene.site.store) :: rest) ids)).Reaches
      (enroute b (.tasks rest (ids ++ [id]))) := by
  rw [Agent.scheduleTask] at h
  split at h
  · cases h
  · next id scheduler hschedule =>
    obtain ⟨hopen, schedule, hparse, hid, rfl⟩ := Scheduler.schedule_inv hschedule
    have hask : (enroute a (.tasks ((t, t.schedule a.scene.site.store) :: rest) ids)).start =
        { (enroute a (.entering ⟨id, t.number, t.name, schedule⟩ rest ids)).putHandle t.number
            ((a.handles.get t).setId id) with
          scheduler := { a.scheduler with issued := a.scheduler.issued + 1 } } := by
      simp [start, ask, enroute, of, hopen, hparse, handlesOf_number, hid, putHandle]
    -- Whether there is a loop shows in the trace of the agent only.
    have hb : enroute b (.tasks rest (ids ++ [id])) =
        (enroute a (.tasks ((t, t.schedule a.scene.site.store) :: rest) ids)).start.start := by
      rw [hask]
      simp only [Except.ok.injEq] at h
      subst h
      split <;>
        simp [start, enter, enroute, of, hopen, handlesOf_put, putHandle, Call.entry, Agent.note]
    exact ⟨id, [.start, .start], hb⟩

/-- A task that cannot be scheduled. -/
theorem reaches_unscheduling {a : Agent} {t : AgentTask} {fault : AgentFault}
    (h : a.scheduleTask t = .error fault) (rest : List (AgentTask × String)) (ids : List TaskId) :
    (enroute a (.tasks ((t, t.schedule a.scene.site.store) :: rest) ids)).Reaches
      (enroute a (.unscheduling fault ids)) := by
  generalize hw : enroute a (.tasks ((t, t.schedule a.scene.site.store) :: rest) ids) = w
  have hschedule : w.scheduler.schedule w.clock t.number t.name
      (t.schedule a.scene.site.store) = .error fault.fault ∧ fault.task = t := by
    subst hw
    rw [Agent.scheduleTask] at h
    split at h
    · next e hschedule =>
      cases h
      exact ⟨hschedule, rfl⟩
    · cases h
  rw [schedule_eq] at hschedule
  refine ⟨[.start], ?_⟩
  rcases w.ask_cases t.number t.name (t.schedule a.scene.site.store) with
    ⟨e, hask⟩ | ⟨-, schedule, -, hask⟩
  · rw [hask] at hschedule
    obtain ⟨hfault, htask⟩ := hschedule
    have hsame : fault = ⟨t, e⟩ := by
      cases hfault
      rw [← htask]
    have hstarting : w.starting = .tasks ((t, t.schedule a.scene.site.store) :: rest) ids := by
      rw [← hw]
      rfl
    have hstart : w.start = { w with starting := .unscheduling ⟨t, e⟩ ids } := by
      simp only [start, hstarting, hask]
    rw [after, after, turn, hstart, hsame, ← hw]
    rfl
  · rw [hask] at hschedule
    cases hschedule.1

/-- Scheduling a task leaves everything but the scheduler and the handles. -/
theorem scheduleTask_frame {a b : Agent} {t : AgentTask} (h : a.scheduleTask t = .ok b) :
    ∃ scheduler handles trace, b = { a with scheduler, handles, trace } := by
  rw [Agent.scheduleTask] at h
  split at h
  · cases h
  · simp only [Except.ok.injEq] at h
    subst h
    split
    · exact ⟨_, _, _, rfl⟩
    · exact ⟨_, _, _, rfl⟩

/-- The plan for some tasks. -/
def planFor (store : ConfigStore) (tasks : List AgentTask) : List (AgentTask × String) :=
  tasks.map fun t => (t, t.schedule store)

/-- Tasks are scheduled one after the other, until one of them cannot be scheduled. -/
theorem reaches_tasks (tasks : List AgentTask) (a : Agent) (ids : List TaskId) :
    match tasks.foldlM Agent.scheduleTask a with
    | .ok b => ∃ ids', (enroute a (.tasks (planFor a.scene.site.store tasks) ids)).Reaches
        (enroute b (.tasks [] ids'))
    | .error fault => ∃ scheduler handles trace ids',
        (enroute a (.tasks (planFor a.scene.site.store tasks) ids)).Reaches
          (enroute { a with scheduler, handles, trace } (.unscheduling fault ids')) := by
  induction tasks generalizing a ids with
  | nil => exact ⟨ids, .refl _⟩
  | cons t rest ih =>
    rw [List.foldlM_cons]
    cases hschedule : a.scheduleTask t with
    | error fault => exact ⟨_, _, _, ids, reaches_unscheduling hschedule _ ids⟩
    | ok b =>
      obtain ⟨id, hfirst⟩ := reaches_scheduled hschedule (planFor a.scene.site.store rest) ids
      obtain ⟨scheduler, handles, trace, hb⟩ := scheduleTask_frame hschedule
      have hrest := ih b (ids ++ [id])
      have hstore : b.scene.site.store = a.scene.site.store := by rw [hb]
      rw [hstore] at hrest
      show match rest.foldlM Agent.scheduleTask b with | .ok _ => _ | .error _ => _
      cases hfold : rest.foldlM Agent.scheduleTask b with
      | error fault =>
        rw [hfold] at hrest
        obtain ⟨scheduler', handles', trace', ids', hreaches⟩ := hrest
        rw [hb] at hreaches hfirst
        exact ⟨scheduler', handles', trace', ids', hfirst.trans hreaches⟩
      | ok c =>
        rw [hfold] at hrest
        obtain ⟨ids', hreaches⟩ := hrest
        exact ⟨ids', hfirst.trans hreaches⟩

/-- The workshop knows how an agent starts. -/
theorem reaches_started {a : Agent} (h : Agent.start site source wall = .ok a) :
    (vacant site wall).Reaches (of a) := by
  have hprepared := reaches_prepared site source wall
  have hall := reaches_tasks AgentTask.all (.prepare site source wall) []
  unfold Agent.start at h
  dsimp only at h
  split at h
  · next b hfold =>
    obtain rfl : b = a := Except.ok.inj h
    rw [hfold] at hall
    obtain ⟨ids, hscheduled⟩ := hall
    exact hprepared.trans (hscheduled.trans (Reaches.turn _ .start))
  · cases h

/-- It also knows how an agent does not. -/
theorem reaches_unstarted {fault : AgentFault} {b : Broker}
    (h : Agent.start site source wall = .error (fault, b)) :
    b = (Agent.prepare site source wall).shutdown.broker ∧ ∃ scheduler handles trace ids,
      (vacant site wall).Reaches
        (enroute { Agent.prepare site source wall with scheduler, handles, trace }
          (.unscheduling fault ids)) := by
  have hprepared := reaches_prepared site source wall
  have hall := reaches_tasks AgentTask.all (.prepare site source wall) []
  unfold Agent.start at h
  dsimp only at h
  split at h
  · cases h
  · next fault hfold =>
    cases h
    rw [hfold] at hall
    obtain ⟨scheduler, handles, trace, ids, hscheduled⟩ := hall
    exact ⟨rfl, scheduler, handles, trace, ids, hprepared.trans hscheduled⟩

/-! ## Following Events -/

theorem log_nil (w : Workshop) (p : Patrol) (b : Broker) :
    w.log [] p b = { w.putBroker b with journal := p } := by
  rw [log, List.flatMap_nil, List.append_nil]
  rfl

theorem follow_nil (w : Workshop) (p : Patrol) (b : Broker) :
    w.follow [] p b = { w.putBroker b with listener := p } := rfl

theorem log_log (w : Workshop) (first second : List Delivery) (p q : Patrol) (b c : Broker) :
    (w.log first p b).log second q c = w.log (first ++ second) q c := by
  simp [log, putBroker]

theorem follow_follow (w : Workshop) (first second : List Delivery) (p q : Patrol)
    (b c : Broker) :
    (w.follow first p b).follow second q c = w.follow (first ++ second) q c := by
  simp [follow, putBroker]

variable {p p' : Patrol} {b b' : Broker} {found : List Delivery} {isCanceled : Bool}

/-- Several polls of a follower are a number of turns, if each of them is. `P` tells a workshop
with the follower and its broker, and `take` what the workshop becomes when events are found. -/
theorem reaches_watches {P : Workshop → Patrol → Broker → Prop}
    {take : Workshop → List Delivery → Patrol → Broker → Workshop}
    (hnone : ∀ w p b, P w p b → take w [] p b = w)
    (hone : ∀ w p b, P w p b →
      w.Reaches (take w (p.poll isCanceled b).1.toList (p.poll isCanceled b).2.1
        (p.poll isCanceled b).2.2) ∧
      P (take w (p.poll isCanceled b).1.toList (p.poll isCanceled b).2.1
        (p.poll isCanceled b).2.2) (p.poll isCanceled b).2.1 (p.poll isCanceled b).2.2)
    (hboth : ∀ w first second p q b c,
      take (take w first p b) second q c = take w (first ++ second) q c)
    (h : Patrol.Watches isCanceled p b found p' b') {w : Workshop} (hw : P w p b) :
    w.Reaches (take w found p' b') := by
  induction h generalizing w with
  | refl p b =>
    rw [hnone w p b hw]
    exact .refl w
  | @poll p _ b _ _ _ ih =>
    obtain ⟨hfirst, hnext⟩ := hone w p b hw
    have hlater := ih hnext
    rw [hboth] at hlater
    exact hfirst.trans hlater

/-- The journal takes the events that it finds. -/
theorem reaches_log (h : Patrol.Watches isCanceled p b found p' b') {w : Workshop}
    (hp : w.journal = p) (hb : w.site.broker = b) (hscope : w.isCanceled = isCanceled) :
    w.Reaches (w.log found p' b') := by
  refine reaches_watches
    (P := fun w p b => w.journal = p ∧ w.site.broker = b ∧ w.isCanceled = isCanceled)
    ?_ ?_ log_log h ⟨hp, hb, hscope⟩
  · rintro w p b ⟨rfl, rfl, -⟩
    simp [log, putBroker]
  · rintro w p b ⟨rfl, rfl, hscope⟩
    refine ⟨⟨[.journal], ?_⟩, rfl, rfl, hscope⟩
    rw [after, turn, after, runJournal, hscope]

/-- The listener takes the events that it finds. -/
theorem reaches_follow (h : Patrol.Watches isCanceled p b found p' b') {w : Workshop}
    (hp : w.listener = p) (hb : w.site.broker = b) (hscope : w.isCanceled = isCanceled) :
    w.Reaches (w.follow found p' b') := by
  refine reaches_watches
    (P := fun w p b => w.listener = p ∧ w.site.broker = b ∧ w.isCanceled = isCanceled)
    ?_ ?_ follow_follow h ⟨hp, hb, hscope⟩
  · rintro w p b ⟨rfl, rfl, -⟩
    rfl
  · rintro w p b ⟨rfl, rfl, hscope⟩
    refine ⟨⟨[.listener], ?_⟩, rfl, rfl, hscope⟩
    rw [after, turn, after, runListener, hscope]

/-- The scheduler has followed requests to stop tasks, and the loops that it has dismissed have
ended. -/
def obey (w : Workshop) (found : List Delivery) (stopListener : Patrol) (broker : Broker) :
    Workshop :=
  { w.putBroker broker with
    stopListener
    scheduler := w.scheduler.heed (found.map Delivery.event)
    stopping := [] }

theorem obey_obey (w : Workshop) (first second : List Delivery) (p q : Patrol) (b c : Broker) :
    (w.obey first p b).obey second q c = w.obey (first ++ second) q c := by
  simp [obey, putBroker, Scheduler.heed]

/-- The listener to stop events takes one event at most. -/
theorem reaches_obey_look {w : Workshop} (hopen : w.scheduler.isCanceled = false)
    (hheld : w.isDropped = false) (hnone : w.stopping = []) (hasleep : w.awake = []) :
    w.Reaches (w.obey (w.stopListener.look w.site.broker).1.toList
      (w.stopListener.look w.site.broker).2.1 (w.stopListener.look w.site.broker).2.2) := by
  rcases hlook : w.stopListener.look w.site.broker with ⟨found, p, b⟩
  cases hruns : w.stopListener.follower.isRunning with
  | false =>
    rw [Patrol.look_ended hruns] at hlook
    cases hlook
    refine ⟨[], ?_⟩
    simp [after, obey, putBroker, Scheduler.heed, ← hnone]
  | true =>
    cases found with
    | none =>
      have hturn : w.runStops true = w.obey [] p b := by
        simp [runStops, hruns, hlook, hopen, obey, putBroker, Scheduler.heed, hnone]
      exact ⟨[.stops true], hturn.symm⟩
    | some d =>
      have hturn : { w.runStops true with stopping := [] } = w.obey [d] p b := by
        simp [runStops, hruns, hlook, hheld, obey, putBroker, dismiss]
      have hasleep' : (w.runStops true).awake = [] := by
        have hkept := congrArg Workshop.awake hturn
        exact hkept.trans hasleep
      have hleave := reaches_leave _ hasleep' (List.Subset.refl _)
      rw [hturn] at hleave
      exact (Reaches.turn w (.stops true)).trans hleave

/-- The listener to stop events takes the events that it finds. -/
theorem reaches_obey (h : Patrol.Watches false p b found p' b') {w : Workshop}
    (hp : w.stopListener = p) (hb : w.site.broker = b) (hopen : w.scheduler.isCanceled = false)
    (hheld : w.isDropped = false) (hnone : w.stopping = []) (hasleep : w.awake = []) :
    w.Reaches (w.obey found p' b') := by
  refine reaches_watches
    (P := fun w p b => w.stopListener = p ∧ w.site.broker = b ∧
      w.scheduler.isCanceled = false ∧ w.isDropped = false ∧ w.stopping = [] ∧ w.awake = [])
    ?_ ?_ obey_obey h ⟨hp, hb, hopen, hheld, hnone, hasleep⟩
  · rintro w p b ⟨rfl, rfl, -, -, hnone, -⟩
    simp [obey, putBroker, Scheduler.heed, ← hnone]
  · rintro w p b ⟨rfl, rfl, hopen, hheld, hnone, hasleep⟩
    have hstill := (Scheduler.heed_frame w.scheduler
      ((w.stopListener.look w.site.broker).1.toList.map Delivery.event)).2.1
    exact ⟨reaches_obey_look hopen hheld hnone hasleep, rfl, rfl, hstill.trans hopen, hheld, rfl,
      hasleep⟩

/-- An agent at work, with some errands. -/
def withErrands (a : Agent) (errands : List Errand) : Workshop :=
  { of a with errands }

/-- Following all events that are there is a number of turns. -/
theorem reaches_settle {a : Agent} (hopen : a.scene.isCanceled = false)
    (hscheduler : a.scheduler.isCanceled = false) (errands : List Errand) :
    (withErrands a errands).Reaches (withErrands a.settle errands) := by
  have hjournal := Patrol.watches_drain a.journal a.broker
  rcases hj : a.journal.drain a.broker with ⟨logged, journal, b⟩
  rw [hj] at hjournal
  have hlistener := Patrol.watches_drain a.reconcileListener b
  rcases hl : a.reconcileListener.drain b with ⟨followed, listener, c⟩
  rw [hl] at hlistener
  have hstops := Patrol.watches_drain a.stopListener c
  rcases hs : a.stopListener.drain c with ⟨obeyed, stopListener, d⟩
  rw [hs] at hstops
  have hfirst := reaches_log hjournal (w := withErrands a errands) rfl rfl hopen
  have hsecond := reaches_follow hlistener
    (w := (withErrands a errands).log logged (.of journal) b) rfl rfl hopen
  have hthird := reaches_obey hstops
    (w := ((withErrands a errands).log logged (.of journal) b).follow followed (.of listener) c)
    rfl rfl hscheduler rfl rfl rfl
  have hall := (hfirst.trans hsecond).trans hthird
  have hsettle : withErrands a.settle errands =
      (((withErrands a errands).log logged (.of journal) b).follow followed (.of listener) c).obey
        obeyed (.of stopListener) d := by
    simp only [Agent.settle, Journal.run, hj, Scene.listen, Agent.putBroker, hl, hs]
    rfl
  rw [hsettle]
  exact hall

/-! ## Executing -/

/-- Put a scene into a workshop. -/
def putScene (w : Workshop) (s : Scene) : Workshop :=
  { w with site := s.site, reconciler := s.reconciler }

/-- Executions can lead from one scene to another. -/
def Leads (s s' : Scene) : Prop :=
  s'.cues = s.cues ∧ s'.isCanceled = s.isCanceled ∧
    ∃ deeds : List Work, ∀ w : Workshop, deeds.foldl doWork (w.putScene s) = w.putScene s'

theorem Leads.refl (s : Scene) : Leads s s :=
  ⟨rfl, rfl, [], fun _ => rfl⟩

theorem Leads.trans {s t u : Scene} (h : Leads s t) (h' : Leads t u) : Leads s u := by
  obtain ⟨hcues, hscope, deeds, hdeeds⟩ := h
  obtain ⟨hcues', hscope', deeds', hdeeds'⟩ := h'
  refine ⟨hcues'.trans hcues, hscope'.trans hscope, deeds ++ deeds', fun w => ?_⟩
  rw [List.foldl_append, hdeeds, hdeeds']

theorem Leads.one {s s' : Scene} (hcues : s'.cues = s.cues) (hscope : s'.isCanceled = s.isCanceled)
    (deed : Work) (h : ∀ w : Workshop, (w.putScene s).doWork deed = w.putScene s') : Leads s s' :=
  ⟨hcues, hscope, [deed], h⟩

variable {s s' : Scene}

/-- Without cues a call of the replica is only noted. -/
theorem leads_call (hcues : s.cues = []) (failure : String → SyncFault) (c : ReplicaCall) :
    Leads s (s.call failure c).2 := by
  have hcall : s.call failure c = (.ok (), { s with calls := s.calls ++ [c] }) := by
    rw [Scene.call, hcues]
    rfl
  rw [hcall]
  exact ⟨rfl, rfl, [], fun _ => rfl⟩

/-- One step of a pass of the reconciler. -/
theorem leads_step (hcues : s.cues = []) (p : Pass) :
    Leads s (p.step Scene.surroundings s).2 := by
  unfold Pass.step
  split
  · exact .refl s
  · split
    · exact .refl s
    · split <;> exact .refl s
  · next item _ =>
    show Leads s (Scene.resolve item.locator s).2
    unfold Scene.resolve
    split
    · exact .refl s
    · exact .refl s
    · exact .one rfl rfl (.keep _) fun _ => rfl
  · split
    · exact .refl s
    · exact .one rfl rfl (.request _) fun _ => rfl
  · split
    · exact .refl s
    · split
      · exact .refl s
      · exact leads_call hcues _ _
  · split
    · exact .refl s
    · split
      · exact .refl s
      · exact leads_call hcues _ _
  · exact .one rfl rfl (.commit _ _) fun _ => rfl
  · exact leads_call hcues _ _

theorem leads_run (steps : Nat) (hcues : s.cues = []) (p : Pass) :
    Leads s (Pass.run Scene.surroundings steps p s).2 := by
  induction steps generalizing s p with
  | zero => exact .refl s
  | succ steps ih =>
    have hstep := leads_step hcues p
    exact hstep.trans (ih (hstep.1.trans hcues) _)

/-- Publishing events one after the other. -/
theorem leads_publishAll (s : Scene) (events : List Event) :
    Leads s { s with site := (s.site.publishAll events).2 } := by
  induction events generalizing s with
  | nil => exact .refl s
  | cons e events ih =>
    have hfirst : Leads s { s with site := (s.site.publish e).2 } :=
      .one rfl rfl (.publish e) fun _ => rfl
    rw [Site.publishAll]
    split
    · next fault site hpublish =>
      rw [hpublish] at hfirst
      exact hfirst
    · next reached site hpublish =>
      rw [hpublish] at hfirst
      exact hfirst.trans (ih _)

/-- An enrollment replaces the store and its file. -/
theorem leads_enroll (s : Scene) (e : Enrollment) : Leads s { s with site := s.site.enroll e } := by
  have hkeep : Leads s { s with site := { s.site with store := (s.site.enroll e).store } } :=
    .one rfl rfl (.keep _) fun _ => rfl
  have hwrite : Leads { s with site := { s.site with store := (s.site.enroll e).store } }
      { s with site := s.site.enroll e } :=
    .one rfl rfl (.write (s.site.enroll e).files) fun _ => rfl
  exact hkeep.trans hwrite

theorem leads_accept (s : Scene) (id : Option TaskId) (answer : Except SyncFault Enrollment) :
    Leads s { s with site := (Registration.accept s.site id answer).2 } := by
  unfold Registration.accept
  split
  · exact .refl s
  · next e =>
    have hpublish := leads_publishAll { s with site := s.site.enroll e }
      (Registration.announcements id e)
    have hall := (leads_enroll s e).trans hpublish
    split
    · next fault site h =>
      rw [h] at hall
      exact hall
    · next site h =>
      rw [h] at hall
      exact hall

/-- The registration: a request, and with an enrollment the store, its file and the events. -/
theorem leads_registration (s : Scene) (id : Option TaskId) (isCanceled : Bool) :
    Leads s { s with site := (Registration.execute s.site id isCanceled).2 } := by
  unfold Registration.execute
  split
  · exact .refl s
  · dsimp only
    rcases register s.site.network s.site.store.config.settings.groundControlUrl
      s.site.store.config.settings.token with ⟨answer, network⟩
    have hrequest : Leads s { s with site := { s.site with network } } :=
      .one rfl rfl (.request network) fun _ => rfl
    exact hrequest.trans (leads_accept _ id answer)

/-- The refresh: an event at most. -/
theorem leads_refresh (s : Scene) (r : Refresh) (isCanceled : Bool) :
    Leads s { s with site := (r.execute s.site isCanceled).2.2 } := by
  unfold Refresh.execute
  split
  · exact .refl s
  · unfold Refresh.accept
    dsimp only
    split
    · exact .refl s
    · next update _ =>
      split
      · exact .refl s
      · have hpublish := leads_publishAll s [Event.of Refresh.name (.updated update)]
        split
        · next fault site h =>
          rw [h] at hpublish
          exact hpublish
        · next site h =>
          rw [h] at hpublish
          exact hpublish

/-- An execution leaves everything but the scene and the source of the refresh. -/
theorem execute_frame (a : Agent) (t : AgentTask) :
    (a.execute t).2 =
      { a with scene := (a.execute t).2.scene, refresh := (a.execute t).2.refresh } := by
  cases t <;> rfl

theorem leads_execute {a : Agent} (hcues : a.scene.cues = []) (t : AgentTask) :
    Leads a.scene (a.execute t).2.scene := by
  cases t with
  | registration => exact leads_registration _ _ _
  | reconciliation =>
    exact leads_run (Pass.maxSteps a.scene.reconciler.tracked.length) hcues
      (.start a.scene.reconciler)
  | refresh => exact leads_refresh _ _ _

/-! ## Errands -/

variable {w : Workshop} {i : Nat} {e : Errand} {h h' : TaskHandle} {attempt : Attempt}

theorem step_eq {move : Move} (hat : w.errands[i]? = some e)
    (hfits : move.Fits w.scheduler.isCanceled e.attempt)
    (hstep : e.attempt.step (w.handles e.task) move = some (h, attempt)) :
    w.step i move = (w.proceed i e attempt).putHandle e.task h := by
  simp only [step, hat, hfits, if_true, hstep]

/-- An errand that goes on is where it was. -/
theorem proceed_at (hat : w.errands[i]? = some e) (attempt : Attempt) :
    (w.proceed i e attempt).errands[i]? = some { e with attempt } := by
  obtain ⟨hlt, -⟩ := List.getElem?_eq_some_iff.mp hat
  exact List.getElem?_set_self hlt

theorem proceed_self (hat : w.errands[i]? = some e) :
    (w.proceed i e e.attempt).putHandle e.task (w.handles e.task) = w := by
  obtain ⟨hlt, hsame⟩ := List.getElem?_eq_some_iff.mp hat
  have hset : w.errands.set i { e with attempt := e.attempt } = w.errands := by
    rw [← hsame]
    exact List.set_getElem_self hlt
  rw [proceed, hset, putHandle, Function.update_eq_self]

theorem proceed_proceed (e : Errand) (first second : Attempt) :
    (((w.proceed i e first).putHandle e.task h).proceed i { e with attempt := first }
        second).putHandle e.task h' =
      (w.proceed i e second).putHandle e.task h' := by
  simp [proceed, putHandle]

/-- What fits an errand that has not begun fits it at any time. -/
theorem fits_of_called {isCanceled : Bool} {move : Move} (hfits : move.Fits isCanceled .called)
    (a : Attempt) : move.Fits isCanceled a := by
  cases move with
  | abandon => cases hfits
  | _ => exact hfits

/-- An errand takes some steps one after the other. -/
theorem reaches_path {moves : List Move} (hat : w.errands[i]? = some e)
    (hfits : ∀ move ∈ moves, move.Fits w.scheduler.isCanceled .called)
    (hpath : e.attempt.path (w.handles e.task) moves = some (h, attempt)) :
    w.Reaches ((w.proceed i e attempt).putHandle e.task h) := by
  induction moves generalizing w e with
  | nil =>
    obtain ⟨rfl, rfl⟩ := Prod.mk.inj (Option.some.inj hpath)
    rw [proceed_self hat]
    exact .refl w
  | cons move moves ih =>
    obtain ⟨⟨h', a'⟩, hstep, hrest⟩ := Option.bind_eq_some_iff.mp hpath
    have hturn := Reaches.turn w (.step i move)
    rw [turn, step_eq hat (fits_of_called (hfits move List.mem_cons_self) _) hstep] at hturn
    have hlater := ih (w := (w.proceed i e a').putHandle e.task h') (e := { e with attempt := a' })
      (proceed_at hat a') (fun m hm => hfits m (List.mem_cons_of_mem move hm))
      (by simpa [putHandle] using hrest)
    rw [proceed_proceed] at hlater
    exact hturn.trans hlater

theorem fits_entering (phase : Phase) (obstacle : Option String) (isCanceled : Bool) :
    ∀ move ∈ Attempt.entering phase obstacle isCanceled, move.Fits isCanceled .called := by
  cases phase <;> cases obstacle <;> cases isCanceled <;> simp [Attempt.entering, Move.Fits]

theorem fits_finishing (outcome : Outcome) (isCanceled : Bool) :
    ∀ move ∈ Attempt.finishing outcome, move.Fits isCanceled .called := by
  simp [Attempt.finishing, Move.Fits]

theorem errands_doWork (w : Workshop) (deed : Work) : (w.doWork deed).errands = w.errands := by
  cases deed <;> rfl

/-- An errand that executes its task does some things one after the other. -/
theorem reaches_doWork (hexecuting : e.attempt.isExecuting = true) (deeds : List Work)
    (hat : w.errands[i]? = some e) : w.Reaches (deeds.foldl doWork w) := by
  induction deeds generalizing w with
  | nil => exact .refl w
  | cons deed deeds ih =>
    have hturn : w.turn (.work i deed) = w.doWork deed := by
      simp [turn, work, executes, hat, hexecuting]
    have hrest := ih (w := w.doWork deed) (by rw [errands_doWork]; exact hat)
    exact (hturn ▸ Reaches.turn w (.work i deed)).trans hrest

/-! ## Ticking -/

section Tick

variable {a : Agent} {t : AgentTask} {id : TaskId} {errands : List Errand}

/-- An agent at work with one more errand, for a task. -/
def withErrand (a : Agent) (errands : List Errand) (id : TaskId) (t : AgentTask)
    (attempt : Attempt) : Workshop :=
  withErrands a (errands ++ [⟨id, t.number, attempt⟩])

theorem withErrand_at (attempt : Attempt) :
    (withErrand a errands id t attempt).errands[errands.length]? =
      some ⟨id, t.number, attempt⟩ :=
  List.getElem?_concat_length

theorem proceed_last (attempt attempt' : Attempt) (handle : TaskHandle) :
    ((withErrand a errands id t attempt).proceed errands.length ⟨id, t.number, attempt⟩
        attempt').putHandle t.number handle =
      withErrand { a with handles := a.handles.put t handle } errands id t attempt' := by
  simp [withErrand, withErrands, proceed, putHandle, of, handlesOf_put]

/-- The last errand takes some steps. -/
theorem reaches_last (id : TaskId) (errands : List Errand) {moves : List Move}
    {attempt attempt' : Attempt} {handle : TaskHandle}
    (hfits : ∀ move ∈ moves, move.Fits a.scheduler.isCanceled .called)
    (hpath : attempt.path (a.handles.get t) moves = some (handle, attempt')) :
    (withErrand a errands id t attempt).Reaches
      (withErrand { a with handles := a.handles.put t handle } errands id t attempt') := by
  have hhandle : (withErrand a errands id t attempt).handles t.number = a.handles.get t :=
    handlesOf_number a.handles t
  rw [← hhandle] at hpath
  have hreaches := reaches_path (withErrand_at attempt) hfits hpath
  rwa [proceed_last] at hreaches

theorem put_get (handles : AgentHandles) (t : AgentTask) :
    handles.put t (handles.get t) = handles := by
  cases t <;> rfl

/-- A tick that is refused. -/
theorem reaches_refusal (id : TaskId) (errands : List Errand)
    (hscheduler : a.scheduler.isCanceled = false) {obstacle : Option String} {refusal : Refusal}
    (henter : (a.handles.get t).enter obstacle false = .error refusal) :
    (withErrand a errands id t .called).Reaches
      (withErrand a errands id t (.left (some refusal.tick))) := by
  have hpath := Attempt.path_entering (a.handles.get t) obstacle false
  rw [henter] at hpath
  have hreaches := reaches_last id errands
    (by rw [hscheduler]; exact fits_entering _ _ _) hpath
  rwa [put_get] at hreaches

/-- A tick that comes to an execution. -/
theorem reaches_entered (id : TaskId) (errands : List Errand)
    (hscheduler : a.scheduler.isCanceled = false) {obstacle : Option String}
    {handle : TaskHandle} (henter : (a.handles.get t).enter obstacle false = .ok handle) :
    (withErrand a errands id t .called).Reaches
      (withErrand { a with handles := a.handles.put t handle } errands id t
        (.executing .fresh)) := by
  have hpath := Attempt.path_entering (a.handles.get t) obstacle false
  rw [henter] at hpath
  exact reaches_last id errands (by rw [hscheduler]; exact fits_entering _ _ _) hpath

/-- The execution of a task. -/
theorem reaches_execute (hcues : a.scene.cues = []) (id : TaskId) (t : AgentTask)
    (errands : List Errand) (guard : RunGuard) :
    (withErrand a errands id t (.executing guard)).Reaches
      (withErrand (a.execute t).2 errands id t (.executing guard)) := by
  obtain ⟨-, hscope, deeds, hdeeds⟩ := leads_execute hcues t
  have hreaches := reaches_doWork (e := ⟨id, t.number, .executing guard⟩) rfl deeds
    (w := withErrand a errands id t (.executing guard)) (withErrand_at _)
  have hscene := hdeeds (withErrand a errands id t (.executing guard))
  have hbefore : (withErrand a errands id t (.executing guard)).putScene a.scene =
      withErrand a errands id t (.executing guard) := rfl
  rw [hbefore] at hscene
  rw [hscene] at hreaches
  have hafter : (withErrand a errands id t (.executing guard)).putScene (a.execute t).2.scene =
      withErrand (a.execute t).2 errands id t (.executing guard) := by
    rw [execute_frame]
    simp [withErrand, withErrands, putScene, of, hscope]
  rwa [hafter] at hreaches

/-- An execution ends. -/
theorem reaches_finish (a : Agent) (id : TaskId) (t : AgentTask) (errands : List Errand)
    (outcome : Outcome) :
    (withErrand a errands id t (.executing .fresh)).Reaches
      (withErrand { a with handles := a.handles.put t ((a.handles.get t).leave outcome).2 } errands
        id t (.left (some (.ofOutcome outcome)))) :=
  reaches_last id errands (fits_finishing _ _) (Attempt.path_finishing (a.handles.get t) outcome)

/-- A task that is done for good is unscheduled, and its loop ends. -/
theorem reaches_retire (a : Agent) (id : TaskId) (t : AgentTask) (errands : List Errand) :
    (withErrand a errands id t (.left (some .terminated))).Reaches
      (withErrand { a with scheduler := (a.scheduler.unschedule id).2 } errands id t
        (.left (some .terminated))) := by
  have hturn := Reaches.turn (withErrand a errands id t (.left (some .terminated)))
    (.retire errands.length)
  have hheld : (withErrand a errands id t (.left (some .terminated))).isDropped = false := rfl
  rw [turn, retire, withErrand_at] at hturn
  simp only [hheld, and_self, if_true] at hturn
  exact hturn.trans (reaches_leave _ rfl (List.Subset.refl _))

/-- The trace of an agent does not show at work. -/
theorem withErrand_note (attempt : Attempt) (h : Happening) :
    withErrand (a.note t h) errands id t attempt = withErrand a errands id t attempt := rfl

/-- The whole tick of a task, from where its errand is called. -/
theorem reaches_tickTask (hopen : a.scene.isCanceled = false)
    (hscheduler : a.scheduler.isCanceled = false) (hcues : a.scene.cues = []) (id : TaskId)
    (t : AgentTask) (errands : List Errand) :
    (a.tickTask id t).scene.isCanceled = false ∧
      (a.tickTask id t).scheduler.isCanceled = false ∧
      ∃ attempt, (withErrand a errands id t .called).Reaches
        (withErrand (a.tickTask id t) errands id t attempt) := by
  rw [Agent.tickTask, hopen]
  cases henter : (a.handles.get t).enter (a.obstacle? t) false with
  | error refusal =>
    have hrefused := reaches_refusal id errands hscheduler henter
    dsimp only
    cases Happening.ofRefusal refusal with
    | none => exact ⟨hopen, hscheduler, _, hrefused⟩
    | some h => exact ⟨hopen, hscheduler, _, hrefused⟩
  | ok handle =>
    have hentered := reaches_entered id errands hscheduler henter
    dsimp only
    -- The agent that executes the task, and what the execution leaves of it.
    generalize hstarted :
      ({ a with handles := a.handles.put t handle } : Agent).note t .started = b
    have hsame : withErrand { a with handles := a.handles.put t handle } errands id t
        (.executing .fresh) = withErrand b errands id t (.executing .fresh) := by
      rw [← hstarted, withErrand_note]
    rw [hsame] at hentered
    have hscene : b.scene = a.scene := by
      rw [← hstarted]
      rfl
    have hscheduled : b.scheduler = a.scheduler := by
      rw [← hstarted]
      rfl
    have hcues' : b.scene.cues = [] := by rw [hscene, hcues]
    have hexecute := reaches_execute hcues' id t errands .fresh
    obtain ⟨-, hscope, -⟩ := leads_execute hcues' t
    have hframe := execute_frame b t
    rcases hrun : b.execute t with ⟨outcome, c⟩
    rw [hrun] at hexecute hscope hframe
    have hopen' : c.scene.isCanceled = false := by rw [hscope, hscene, hopen]
    have hscheduler' : c.scheduler.isCanceled = false := by
      have hsame := congrArg (fun d => d.scheduler.isCanceled) hframe
      exact hsame.trans (by rw [hscheduled, hscheduler])
    have hfinish := hentered.trans (hexecute.trans (reaches_finish c id t errands outcome))
    dsimp only
    split
    · next hdone =>
      subst hdone
      exact ⟨hopen', (c.scheduler.unschedule_frame id).2.trans hscheduler', _,
        hfinish.trans (reaches_retire _ id t errands)⟩
    · exact ⟨hopen', hscheduler', _, hfinish⟩

end Tick

/-- The tick of a loop, with all that follows from it, is a number of turns. -/
theorem reaches_tick {a : Agent} (hopen : a.scene.isCanceled = false)
    (hscheduler : a.scheduler.isCanceled = false) (hcues : a.scene.cues = []) {l : TickLoop}
    (hdue : l ∈ a.scheduler.due a.clock) {t : AgentTask} (htask : AgentTask.all[l.task]? = some t)
    (errands : List Errand) :
    ∃ errands', (withErrands a errands).Reaches (withErrands (a.tick l) errands') := by
  have hnumber := number_of_getElem? htask
  have hwake : (withErrands a errands).wake l = { withErrands a errands with awake := [l] } := by
    have hdue' : l ∈ (withErrands a errands).scheduler.due (withErrands a errands).clock := hdue
    rw [wake, if_pos ⟨hdue', List.not_mem_nil⟩]
    rfl
  have htick : ({ withErrands a errands with awake := [l] } : Workshop).tick l =
      withErrand { a with scheduler := a.scheduler.rearm a.clock l } errands l.id t .called := by
    rw [tick, if_pos List.mem_cons_self]
    simp [withErrand, withErrands, of, hnumber, TickLoop.errand]
  have hcalled : (withErrands a errands).Reaches
      (withErrand { a with scheduler := a.scheduler.rearm a.clock l } errands l.id t .called) := by
    refine ⟨[.tick l, .wake l], ?_⟩
    rw [after, after, after, turn, turn, hwake, htick]
  -- Whether the loop goes on waiting shows in the trace only.
  have hrest (b : Agent) (hscene : b.scene = a.scene)
      (hsame : b.scheduler.isCanceled = a.scheduler.isCanceled)
      (hb : withErrand { a with scheduler := a.scheduler.rearm a.clock l } errands l.id t .called =
        withErrand b errands l.id t .called) :
      ∃ errands', (withErrands a errands).Reaches
        (withErrands (b.tickTask l.id t).settle errands') := by
    obtain ⟨hopen', hscheduler', attempt, htick⟩ := reaches_tickTask (by rw [hscene, hopen])
      (hsame.trans hscheduler) (by rw [hscene, hcues]) l.id t errands
    have hsettle := reaches_settle hopen' hscheduler' (errands ++ [⟨l.id, t.number, attempt⟩])
    exact ⟨_, (hb ▸ hcalled).trans (htick.trans hsettle)⟩
  rw [Agent.tick, htask]
  dsimp only
  split
  · exact hrest _ rfl rfl rfl
  · exact hrest _ rfl rfl rfl

/-! ## Coming to an End -/

end Workshop

/-- No tick gets to an execution if the scope is canceled. -/
theorem TaskHandle.enter_canceled (h : TaskHandle) (obstacle : Option String) :
    ∃ refusal, h.enter obstacle true = .error refusal := by
  unfold enter
  split
  · exact ⟨_, rfl⟩
  · split
    · exact ⟨_, rfl⟩
    · exact ⟨_, rfl⟩

/-- A tick that has not looked at the scope ends as a refused one if the scope is canceled. -/
theorem Attempt.path_refused (h : TaskHandle) {a : Attempt} (hunlooked : a.isUnlooked = true) :
    ∃ moves h' tick, (∀ move ∈ moves, Move.Fits true .called move) ∧
      a.path h moves = some (h', .left (some tick)) ∧ tick.IsRefused := by
  cases a with
  | called =>
    obtain ⟨refusal, henter⟩ := h.enter_canceled none
    have hpath := path_entering h none true
    rw [henter] at hpath
    exact ⟨_, _, _, Workshop.fits_entering _ _ _, hpath, refusal.isRefused⟩
  | begun g =>
    exact ⟨[.check none, .look true, .drop], _, _, by simp [Move.Fits], rfl,
      Refusal.isRefused .canceled⟩
  | ready g => exact ⟨[.look true, .drop], _, _, by simp [Move.Fits], rfl,
      Refusal.isRefused .canceled⟩
  | _ => cases hunlooked

/-- Wherever it stands, an attempt in a canceled scope can come to its end. -/
theorem Attempt.path_left (h : TaskHandle) (a : Attempt) :
    ∃ moves h' tick, (∀ move ∈ moves, Move.Fits true .called move) ∧
      a.path h moves = some (h', .left tick) := by
  by_cases hunlooked : a.isUnlooked = true
  · obtain ⟨moves, h', tick, hfits, hpath, -⟩ := path_refused h hunlooked
    exact ⟨moves, h', some tick, hfits, hpath⟩
  · cases a with
    | called | begun g | ready g => exact absurd rfl hunlooked
    | cleared g =>
      exact ⟨[.start, .finish (.done .continue), .release, .drop], _, _, by simp [Move.Fits], rfl⟩
    | executing g =>
      exact ⟨[.finish (.done .continue), .release, .drop], _, _, by simp [Move.Fits], rfl⟩
    | executed g outcome => exact ⟨[.release, .drop], _, _, by simp [Move.Fits], rfl⟩
    | leaving g tick => exact ⟨[.drop], _, _, by simp [Move.Fits], rfl⟩
    | left tick => exact ⟨[], _, _, nofun, rfl⟩

namespace Workshop

variable {w : Workshop} {i : Nat} {e : Errand}

/-- All loops that have woken make their ticks. -/
theorem reaches_asleep (w : Workshop) :
    ∃ scheduler errands, w.Reaches { w with scheduler, errands, awake := [] } := by
  induction hawake : w.awake generalizing w with
  | nil => exact ⟨w.scheduler, w.errands, [], by rw [← hawake]; rfl⟩
  | cons l rest ih =>
    have htick : w.tick l =
        { w with
          scheduler := w.scheduler.rearm w.clock l
          awake := rest
          errands := w.errands ++ [l.errand] } := by
      simp [tick, hawake]
    have hfirst := Reaches.turn w (.tick l)
    rw [turn, htick] at hfirst
    obtain ⟨scheduler, errands, hrest⟩ := ih { w with
      scheduler := w.scheduler.rearm w.clock l
      awake := rest
      errands := w.errands ++ [l.errand] } rfl
    exact ⟨scheduler, errands, hfirst.trans hrest⟩

/-- An errand that has not looked at the scope can come to its end, and is refused then. -/
theorem reaches_refused (hcanceled : w.scheduler.isCanceled = true)
    (hat : w.errands[i]? = some e) (hunlooked : e.attempt.isUnlooked = true) :
    ∃ w' tick, w.Reaches w' ∧ w'.errands[i]? = some { e with attempt := .left (some tick) } ∧
      tick.IsRefused := by
  obtain ⟨moves, handle, tick, hfits, hpath, hrefused⟩ :=
    Attempt.path_refused (w.handles e.task) hunlooked
  exact ⟨_, tick, reaches_path hat (by rwa [hcanceled]) hpath, proceed_at hat _, hrefused⟩

/-- A number of ticks come to their ends, the first ones first. -/
theorem reaches_left (hcanceled : w.scheduler.isCanceled = true) (n : Nat) :
    ∃ handles errands, w.Reaches { w with handles, errands } ∧
      errands.length = w.errands.length ∧
      ∀ i e, i < n → errands[i]? = some e → ∃ tick, e.attempt = .left tick := by
  induction n with
  | zero => exact ⟨w.handles, w.errands, .refl w, rfl, nofun⟩
  | succ n ih =>
    obtain ⟨handles, errands, hreaches, hlength, hleft⟩ := ih
    cases hat : errands[n]? with
    | none =>
      have hall : errands.length ≤ n := List.getElem?_eq_none_iff.mp hat
      refine ⟨handles, errands, hreaches, hlength, fun i e _ he => hleft i e ?_ he⟩
      obtain ⟨hlt, -⟩ := List.getElem?_eq_some_iff.mp he
      omega
    | some e =>
      obtain ⟨moves, handle, tick, hfits, hpath⟩ := e.attempt.path_left (handles e.task)
      have hlast := reaches_path (w := { w with handles, errands }) hat (by rwa [hcanceled]) hpath
      refine ⟨_, _, hreaches.trans hlast, List.length_set.trans hlength, fun i f hlt hf => ?_⟩
      by_cases hlatest : n = i
      · subst hlatest
        obtain rfl := Option.some.inj ((proceed_at hat _).symm.trans hf)
        exact ⟨tick, rfl⟩
      · have hold : errands[i]? = some f := (List.getElem?_set_ne hlatest).symm.trans hf
        exact hleft i f (by omega) hold

/-! ## Shutting Down -/

theorem runJournal_canceled {w : Workshop} (hscope : w.isCanceled = true)
    (hruns : w.journal.follower.isRunning = true) (hround : w.journal.position = 0) :
    w.runJournal = w.log [] (w.journal.stop w.site.broker).1 (w.journal.stop w.site.broker).2 := by
  rw [runJournal, hscope, Patrol.poll_canceled hruns hround]
  rfl

theorem runListener_canceled {w : Workshop} (hscope : w.isCanceled = true)
    (hruns : w.listener.follower.isRunning = true) (hround : w.listener.position = 0) :
    w.runListener =
      w.follow [] (w.listener.stop w.site.broker).1 (w.listener.stop w.site.broker).2 := by
  rw [runListener, hscope, Patrol.poll_canceled hruns hround]
  rfl

theorem runStops_canceled {w : Workshop} (hscope : w.scheduler.isCanceled = true)
    (hruns : w.stopListener.follower.isRunning = true) : w.runStops false = w.endStops := by
  rw [runStops, if_pos hruns, hscope]
  rfl

/-- All followers end, one after the other. -/
def endFollowers (w : Workshop) : Workshop :=
  let (journal, b) := w.journal.stop w.site.broker
  let (listener, b) := w.listener.stop b
  let (stopListener, b) := w.stopListener.stop b
  { w.putBroker b with journal, listener, stopListener }

/-- The followers of a canceled agent end if they are at the beginning of a round. -/
theorem reaches_endFollowers {w : Workshop} (hscope : w.isCanceled = true)
    (hscheduler : w.scheduler.isCanceled = true) {journal listener : Follower}
    (hjournal : w.journal = .of journal) (hlistener : w.listener = .of listener)
    (hruns : journal.isRunning = true) (hruns' : listener.isRunning = true)
    (hstops : w.stopListener.follower.isRunning = true) : w.Reaches w.endFollowers := by
  have hfirst := Reaches.turn w .journal
  rw [turn, runJournal_canceled hscope (by rw [hjournal]; exact hruns) (by rw [hjournal]; rfl),
    log_nil] at hfirst
  generalize hv : ({ w.putBroker (w.journal.stop w.site.broker).2 with
    journal := (w.journal.stop w.site.broker).1 } : Workshop) = v at hfirst
  have hlistener' : v.listener = .of listener := by rw [← hv]; exact hlistener
  have hsecond := Reaches.turn v .listener
  rw [turn, runListener_canceled (by rw [← hv]; exact hscope) (by rw [hlistener']; exact hruns')
    (by rw [hlistener']; rfl), follow_nil] at hsecond
  have hthird := Reaches.turn { v.putBroker (v.listener.stop v.site.broker).2 with
    listener := (v.listener.stop v.site.broker).1 } (.stops false)
  rw [turn, runStops_canceled (by rw [← hv]; exact hscheduler) (by rw [← hv]; exact hstops)]
    at hthird
  have hall := hfirst.trans (hsecond.trans hthird)
  rw [← hv] at hall
  exact hall

/-- The shutdown goes on when the scope is canceled. -/
theorem await_canceling {w : Workshop} (hclosing : w.closing = .canceling) :
    w.await = { w.cancel with closing := .journal } := by
  simp [await, hclosing]

/-- It goes on when the journal has ended. -/
theorem await_journal {w : Workshop} (hclosing : w.closing = .journal)
    (hended : w.journal.follower.isRunning = false) :
    w.await = { w with closing := .listener } := by
  simp [await, hclosing, hended]

/-- It goes on when the listener has ended: tasks are unscheduled, and their loops dismissed. -/
theorem await_listener {w : Workshop} (hclosing : w.closing = .listener)
    (hended : w.listener.follower.isRunning = false) :
    w.await = { w.dismiss w.scheduler.shutdown with
      closing := .loops (w.scheduler.entries.map Prod.fst) } := by
  simp [await, hclosing, hended]

/-- It is over when the loops have ended. -/
theorem await_loops {w : Workshop} {ids : List TaskId} (hclosing : w.closing = .loops ids)
    (hnone : w.stopping = []) (hasleep : w.awake = []) :
    w.await = { w with closing := .done ids } := by
  simp [await, hclosing, hnone, hasleep]

/-- As soon as both followers have ended, the shutdown can be completed. -/
theorem reaches_over {w : Workshop} (hclosing : w.closing = .journal)
    (hjournal : w.journal.follower.isRunning = false)
    (hlistener : w.listener.follower.isRunning = false) (hasleep : w.awake = []) :
    w.Reaches
      { w with
        scheduler := w.scheduler.shutdown
        stopping := []
        closing := .done (w.scheduler.entries.map Prod.fst) } := by
  have hfirst := Reaches.turn w .await
  rw [turn, await_journal hclosing hjournal] at hfirst
  have hsecond := Reaches.turn { w with closing := .listener } .await
  rw [turn, await_listener (w := { w with closing := .listener }) rfl hlistener] at hsecond
  have hleave := reaches_leave (w := { w.dismiss w.scheduler.shutdown with
    closing := .loops (w.scheduler.entries.map Prod.fst) }) _ hasleep (List.Subset.refl _)
  let waiting : Workshop := { w with
    scheduler := w.scheduler.shutdown
    stopping := []
    closing := .loops (w.scheduler.entries.map Prod.fst) }
  have hlast := Reaches.turn waiting .await
  rw [turn, await_loops (w := waiting) rfl rfl hasleep] at hlast
  exact hfirst.trans (hsecond.trans (hleave.trans hlast))

section Shutdown

variable {a : Agent} {errands : List Errand} {stopping : List TickLoop} {closing : Closing}

/-- An agent at work that is shut down. -/
def shutting (a : Agent) (errands : List Errand) (stopping : List TickLoop) (closing : Closing) :
    Workshop :=
  { withErrands a errands with stopping, closing }

/-- Shutting an agent down is a number of turns: the scope is canceled, and then the followers
and the loops end. -/
theorem reaches_shutdown (hjournal : a.journal.isRunning = true)
    (hlistener : a.reconcileListener.isRunning = true) (hstops : a.stopListener.isRunning = true)
    (errands : List Errand) :
    (withErrands a errands).Reaches
      (shutting a.shutdown errands [] (.done (a.scheduler.entries.map Prod.fst))) := by
  let canceled : Agent :=
    { a with scheduler := a.scheduler.cancel, scene := { a.scene with isCanceled := true } }
  have hclose : ∃ stopping, (withErrands a errands).Reaches
      (shutting canceled errands stopping .journal) := ⟨_, [.await, .close], rfl⟩
  obtain ⟨stopping, hclose⟩ := hclose
  have hfollowers : (shutting canceled errands stopping .journal).Reaches
      (shutting canceled.stopFollowers errands stopping .journal) :=
    reaches_endFollowers (w := shutting canceled errands stopping .journal) rfl rfl rfl rfl
      hjournal hlistener hstops
  have hover : (shutting canceled.stopFollowers errands stopping .journal).Reaches
      (shutting a.shutdown errands [] (.done (a.scheduler.entries.map Prod.fst))) :=
    reaches_over rfl rfl rfl rfl
  exact hclose.trans (hfollowers.trans hover)

end Shutdown

end Workshop

end EdgeSync
