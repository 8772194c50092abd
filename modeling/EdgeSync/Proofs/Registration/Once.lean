import EdgeSync.Proofs.Event.Delivery
import EdgeSync.Sync.Registration

/-!
# Registering Once

A registration is tried tick after tick, whatever the exchange with ground control gives. Up
to the first complete enrollment nothing is stored or announced; with it the enrollment is
stored and announced, and the task asks to be stopped; after it nothing happens any more.

Between two ticks others may do anything with the site, so every trial has a site of its own.

## Main definitions

- `Registration.Exchange`, `Registration.proceed`: the execution with any exchange
- `Registration.Trial`, `Registration.Trial.tick`: one tick
- `Registration.Trial.Grants`: the tick brings a complete enrollment
- `Registration.Once`: what a tick does, by the trials before it

## Main results

- `Registration.Trial.tick_vain`, `Registration.Trial.tick_granted`: one tick of an idle task
- `Registration.phase_after`: the phase after all trials
- `Registration.once_after`: registration happens once
-/

namespace EdgeSync

open EdgeSync.Web

/-! ## Responses -/

theorem Auth.isComplete_iff {a : Auth} :
    a.isComplete = true ↔ a.name ≠ "" ∧ a.registry ≠ "" ∧ a.secret ≠ "" := by
  simp [Auth.isComplete, Auth.missing]

theorem readCompleteEnrollment_eq_ok {d : Text.Document} {e : Enrollment} :
    readCompleteEnrollment d = .ok e ↔
      Enrollment.reader.readAll d = .ok e ∧ e.auth.isComplete = true := by
  unfold readCompleteEnrollment
  cases Enrollment.reader.readAll d with
  | error fault => simp
  | ok enrollment =>
    dsimp only
    split
    · next hcomplete =>
      simp only [Except.ok.injEq, iff_self_and]
      rintro rfl
      exact hcomplete
    · next hincomplete =>
      simp only [Except.ok.injEq, reduceCtorEq, false_iff, not_and]
      rintro rfl
      exact hincomplete

theorem readEnrollment_eq_ok {reply : Except WebFault Response} {e : Enrollment} :
    readEnrollment reply = .ok e ↔
      ∃ body, reply = .ok ⟨200, body⟩ ∧ readCompleteEnrollment body = .ok e := by
  cases reply with
  | error fault => simp [readEnrollment]
  | ok response =>
    obtain ⟨status, body⟩ := response
    by_cases hstatus : status = 200
    · simp [readEnrollment, hstatus]
    · simp [readEnrollment, hstatus]

/-! ## Announcements -/

/-- Events under their topics are all published. -/
theorem Site.publishAll_right {events : List Event}
    (hright : ∀ e ∈ events, e.topic = e.payload.topic) (s : Site) :
    s.publishAll events =
      (.ok (), { s with broker := events.foldl (fun b e => (b.publish e).2) s.broker }) := by
  induction events generalizing s with
  | nil => rfl
  | cons e events ih =>
    rw [List.forall_mem_cons] at hright
    have hanswer := Broker.publish_right (b := s.broker) hright.1
    have hpublish : s.publish e =
        (.ok (s.broker.count e.topic), { s with broker := (s.broker.publish e).2 }) := by
      rw [Site.publish, ← hanswer]
    rw [Site.publishAll, hpublish]
    exact ih hright.2 _

namespace Registration

theorem announcements_right (id : Option TaskId) (e : Enrollment) :
    ∀ event ∈ announcements id e, event.topic = event.payload.topic := by
  intro event hevent
  rcases List.mem_cons.mp hevent with rfl | hstop
  · rfl
  · obtain ⟨id, -, rfl⟩ := List.mem_map.mp hstop
    rfl

/-! ## Trials -/

/-- What an exchange with ground control gives: a reply, or none if the task is canceled while
it waits, and the network after it. -/
structure Exchange where
  reply : Option (Except WebFault Response)
  network : Network

/-- The exchange with the network of a site. -/
def Exchange.ofSite (s : Site) : Exchange :=
  let settings := s.store.config.settings
  let (reply, network) :=
    s.network.getText (registrationAddress settings.groundControlUrl settings.token)
  ⟨some reply, network⟩

/-- The enrollment in a reply. -/
def Exchange.answer (x : Exchange) : Except SyncFault Enrollment :=
  match x.reply with
  | none => .error .canceled
  | some reply => readEnrollment reply

/-- The execution of the task with any exchange. -/
def proceed (x : Exchange) (id : Option TaskId) (isCanceled : Bool) (s : Site) : Outcome × Site :=
  if isCanceled then (.failed .canceled, s)
  else accept { s with network := x.network } id x.answer

/-- Without interruption the task executes with the exchange of its site. -/
theorem execute_eq_proceed (s : Site) (id : Option TaskId) (isCanceled : Bool) :
    execute s id isCanceled = proceed (.ofSite s) id isCanceled s := by
  simp only [execute, proceed, register, Exchange.ofSite, Exchange.answer]

/-- One tick of the task: the site and the number of the task at that time, whether the scope
has been canceled, and the exchange if it comes to that. -/
structure Trial where
  site : Site
  id : Option TaskId
  isCanceled : Bool
  exchange : Exchange

namespace Trial

/-- The tick of a trial. -/
def tick (t : Trial) (h : TaskHandle) : Tick × TaskHandle × Site :=
  { h with id := t.id }.trigger (obstacle? t.site.store) t.isCanceled
    (proceed t.exchange t.id t.isCanceled) t.site

/-- If the task is not canceled while it waits, the tick is that of the task at its site. -/
theorem tick_ofSite {t : Trial} (hexchange : t.exchange = .ofSite t.site) (h : TaskHandle) :
    t.tick h = { h with id := t.id }.trigger (obstacle? t.site.store) t.isCanceled
      (fun s => execute s t.id t.isCanceled) t.site := by
  unfold tick TaskHandle.trigger
  rw [hexchange, ← execute_eq_proceed]

/-- A tick that comes to an exchange and gets a complete enrollment. -/
structure Grants (t : Trial) (e : Enrollment) : Prop where
  ready : obstacle? t.site.store = none
  goes : t.isCanceled = false
  reply : ∃ body, t.exchange.reply = some (.ok ⟨200, body⟩) ∧
    Enrollment.reader.readAll body = .ok e
  complete : e.auth.name ≠ "" ∧ e.auth.registry ≠ "" ∧ e.auth.secret ≠ ""

theorem grants_iff {t : Trial} {e : Enrollment} :
    t.Grants e ↔
      obstacle? t.site.store = none ∧ t.isCanceled = false ∧ t.exchange.answer = .ok e := by
  have hanswer : t.exchange.answer = .ok e ↔
      ∃ body, t.exchange.reply = some (.ok ⟨200, body⟩) ∧
        Enrollment.reader.readAll body = .ok e ∧ e.auth.isComplete = true := by
    unfold Exchange.answer
    cases t.exchange.reply with
    | none => simp
    | some reply => simp only [readEnrollment_eq_ok, readCompleteEnrollment_eq_ok, Option.some.injEq]
  -- Only the wording of a complete account differs.
  rw [hanswer]
  constructor
  · rintro ⟨hready, hgoes, ⟨body, hreply, hread⟩, hcomplete⟩
    exact ⟨hready, hgoes, body, hreply, hread, Auth.isComplete_iff.mpr hcomplete⟩
  · rintro ⟨hready, hgoes, body, hreply, hread, hcomplete⟩
    exact ⟨hready, hgoes, ⟨body, hreply, hread⟩, Auth.isComplete_iff.mp hcomplete⟩

variable {t : Trial} {h : TaskHandle}

/-- A terminated task does nothing. -/
theorem tick_terminated (hphase : h.phase = .terminated) :
    t.tick h = (.skipped "task is Terminated", ⟨.terminated, t.id⟩, t.site) := by
  simp only [tick, TaskHandle.trigger, TaskHandle.enter, TaskHandle.begin, hphase]
  rfl

/-- An idle task whose tick is not granted tries again; only a request may have been sent. -/
theorem tick_vain (hphase : h.phase = .idle) (hvain : ∀ e, ¬ t.Grants e) :
    ∃ tick network, t.tick h = (tick, ⟨.idle, t.id⟩, { t.site with network }) ∧
      tick ≠ .terminated ∧ tick ≠ .completed := by
  simp only [tick, TaskHandle.trigger, TaskHandle.enter, TaskHandle.begin, hphase]
  -- The tick is skipped, or canceled, or comes to an exchange that gives no enrollment.
  cases hready : obstacle? t.site.store with
  | some reason => exact ⟨_, t.site.network, rfl, by simp [Refusal.tick], by simp [Refusal.tick]⟩
  | none =>
    cases hcanceled : t.isCanceled with
    | true => exact ⟨_, t.site.network, rfl, by simp [Refusal.tick], by simp [Refusal.tick]⟩
    | false =>
      cases hanswer : t.exchange.answer with
      | ok e => exact absurd (grants_iff.mpr ⟨hready, hcanceled, hanswer⟩) (hvain e)
      | error fault =>
        refine ⟨.failed fault.taskFault, t.exchange.network, ?_, by simp, by simp⟩
        simp [proceed, hanswer, accept, TaskHandle.leave, TaskHandle.release, Tick.ofOutcome,
          Outcome.completion, Completion.phase]

/-- What a granted tick leaves: the enrollment is stored and then announced. -/
def enrolled (t : Trial) (e : Enrollment) : Site :=
  let stored := { t.site with network := t.exchange.network }.enroll e
  { stored with
    broker := (announcements t.id e).foldl (fun b e => (b.publish e).2) stored.broker }

theorem enrolled_broker (t : Trial) (e : Enrollment) :
    (t.enrolled e).broker =
      match t.id with
      | none => (t.site.broker.publish (.of name (.registered e))).2
      | some id => ((t.site.broker.publish (.of name (.registered e))).2.publish
          (.of name (.stop ⟨name, id⟩))).2 := by
  unfold enrolled announcements
  cases t.id with
  | none => rfl
  | some id => rfl

/-- An idle task whose tick is granted is done. -/
theorem tick_granted (hphase : h.phase = .idle) {e : Enrollment} (hgrants : t.Grants e) :
    t.tick h = (.terminated, ⟨.terminated, t.id⟩, t.enrolled e) := by
  obtain ⟨hready, hcanceled, hanswer⟩ := grants_iff.mp hgrants
  simp only [tick, TaskHandle.trigger, TaskHandle.enter, TaskHandle.begin, hphase, hready,
    hcanceled, proceed, hanswer, accept,
    Site.publishAll_right (announcements_right t.id e)]
  rfl

theorem enroll_config (store : ConfigStore) (files : FileTree) (e : Enrollment) :
    (store.enroll files e).1.config = { store.config with enrollment := e } := by
  unfold ConfigStore.enroll
  dsimp only
  split
  · rfl
  · split <;> rfl

/-- How many events a tick sends to those who wait for registrations. -/
def sent (t : Trial) (h : TaskHandle) : Nat :=
  ((t.tick h).2.2.broker.channel Topic.registration).sent -
    (t.site.broker.channel Topic.registration).sent

theorem sent_terminated (hphase : h.phase = .terminated) : t.sent h = 0 := by
  rw [sent, tick_terminated hphase]
  exact Nat.sub_self _

theorem sent_vain (hphase : h.phase = .idle) (hvain : ∀ e, ¬ t.Grants e) : t.sent h = 0 := by
  obtain ⟨tick, network, htick, -⟩ := tick_vain hphase hvain
  rw [sent, htick]
  exact Nat.sub_self _

/-- Publishing sends one event, to its own topic. -/
theorem sent_publish_le (b : Broker) (e : Event) (topic : String) :
    ((b.publish e).2.channel topic).sent ≤
      (b.channel topic).sent + if e.topic = topic then 1 else 0 := by
  by_cases hright : e.topic = e.payload.topic
  · by_cases hcount : b.count e.topic = 0
    · rw [Broker.publish_unheard hright hcount]
      exact Nat.le_add_right _ _
    · rw [Broker.publish_heard hright hcount]
      have hsent : ((b.channel e.topic).send b.buffer e).topic = e.topic :=
        b.channel_topic e.topic
      by_cases htopic : e.topic = topic
      · subst htopic
        have hself := b.channel_putChannel_self ((b.channel e.topic).send b.buffer e)
        rw [hsent] at hself
        rw [if_pos rfl, hself]
        exact Nat.le_refl _
      · rw [b.channel_putChannel_other (by rwa [hsent])]
        exact Nat.le_add_right _ _
  · rw [Broker.publish_refused hright]
    exact Nat.le_add_right _ _

theorem sent_granted (hphase : h.phase = .idle) {e : Enrollment} (hgrants : t.Grants e) :
    t.sent h ≤ 1 := by
  rw [sent, tick_granted hphase hgrants, enrolled_broker]
  have hown : (Event.of name (.registered e)).topic = Topic.registration := rfl
  have hfirst := sent_publish_le t.site.broker (.of name (.registered e)) Topic.registration
  rw [if_pos hown] at hfirst
  cases t.id with
  | none => exact Nat.sub_le_iff_le_add'.mpr hfirst
  | some id =>
    -- The wish to be stopped goes to another topic.
    have hother : (Event.of name (.stop ⟨name, id⟩)).topic ≠ Topic.registration := by
      show Topic.stop ≠ Topic.registration
      decide
    have hsecond := sent_publish_le (t.site.broker.publish (.of name (.registered e))).2
      (.of name (.stop ⟨name, id⟩)) Topic.registration
    rw [if_neg hother, Nat.add_zero] at hsecond
    exact Nat.sub_le_iff_le_add'.mpr (hsecond.trans hfirst)

end Trial

/-! ## Runs of Trials -/

/-- The handle of the task after some trials, the latest first. -/
def handleAfter : List Trial → TaskHandle
  | [] => .new
  | t :: earlier => (t.tick (handleAfter earlier)).2.1

/-- One of some trials was granted. -/
def Granted (trials : List Trial) : Prop :=
  ∃ t ∈ trials, ∃ e, t.Grants e

theorem granted_cons {t : Trial} {earlier : List Trial} :
    Granted (t :: earlier) ↔ (∃ e, t.Grants e) ∨ Granted earlier := by
  simp [Granted]

/-- The task is idle up to the first granted trial, and terminated from then on. -/
theorem phase_after (trials : List Trial) :
    (Granted trials → (handleAfter trials).phase = .terminated) ∧
      (¬ Granted trials → (handleAfter trials).phase = .idle) := by
  induction trials with
  | nil => exact ⟨fun ⟨t, ht, _⟩ => absurd ht List.not_mem_nil, fun _ => rfl⟩
  | cons t earlier ih =>
    rw [granted_cons, handleAfter]
    -- The phase before this tick decides what the tick can do.
    by_cases hearlier : Granted earlier
    · rw [Trial.tick_terminated (ih.1 hearlier)]
      exact ⟨fun _ => rfl, fun hnone => absurd (.inr hearlier) hnone⟩
    · have hidle := ih.2 hearlier
      constructor
      · intro hgranted
        obtain ⟨e, he⟩ := hgranted.resolve_right hearlier
        rw [Trial.tick_granted hidle he]
      · intro hnone
        obtain ⟨tick, network, htick, -⟩ :=
          Trial.tick_vain hidle fun e he => hnone (.inl ⟨e, he⟩)
        rw [htick]

/-- How many events some trials send to those who wait for registrations. -/
def sentIn : List Trial → Nat
  | [] => 0
  | t :: earlier => t.sent (handleAfter earlier) + sentIn earlier

theorem sentIn_le (trials : List Trial) :
    sentIn trials ≤ 1 ∧ (¬ Granted trials → sentIn trials = 0) := by
  induction trials with
  | nil => exact ⟨Nat.zero_le _, fun _ => rfl⟩
  | cons t earlier ih =>
    obtain ⟨hterminated, hidle⟩ := phase_after earlier
    rw [granted_cons, sentIn]
    -- Either the one event has been sent before this tick, or none has.
    by_cases hearlier : Granted earlier
    · rw [Trial.sent_terminated (hterminated hearlier), Nat.zero_add]
      exact ⟨ih.1, fun hnone => absurd (.inr hearlier) hnone⟩
    · rw [ih.2 hearlier, Nat.add_zero]
      by_cases hgrants : ∃ e, t.Grants e
      · obtain ⟨e, he⟩ := hgrants
        exact ⟨Trial.sent_granted (hidle hearlier) he, fun hnone => absurd (.inl ⟨e, he⟩) hnone⟩
      · have hnone := Trial.sent_vain (hidle hearlier) (not_exists.mp hgrants)
        rw [hnone]
        exact ⟨Nat.zero_le _, fun _ => rfl⟩

/-! ## Once -/

/-- What a tick does, by the trials before it. -/
structure Once (earlier : List Trial) (t : Trial) : Prop where
  /-- If the task is not canceled while it waits, it executes with the network of its site. -/
  executes : t.exchange = .ofSite t.site → t.tick (handleAfter earlier) =
    { handleAfter earlier with id := t.id }.trigger (obstacle? t.site.store) t.isCanceled
      (fun s => execute s t.id t.isCanceled) t.site
  /-- Up to the first complete enrollment a tick leaves the store, the files and the broker as
  they are, and the task idle. -/
  vain : ¬ Granted earlier → (∀ e, ¬ t.Grants e) → ∃ tick network,
    t.tick (handleAfter earlier) = (tick, ⟨.idle, t.id⟩, { t.site with network }) ∧
      tick ≠ .terminated ∧ tick ≠ .completed
  /-- The first tick that gets one terminates the task. -/
  granted : ¬ Granted earlier → ∀ e, t.Grants e →
    t.tick (handleAfter earlier) = (.terminated, ⟨.terminated, t.id⟩, t.enrolled e)
  /-- It stores what it got, -/
  stores : ∀ e, (t.enrolled e).store.config = { t.site.store.config with enrollment := e }
  /-- and announces it, together with the wish to be stopped if the task has a number. -/
  announces : ∀ e, (t.enrolled e).broker =
    match t.id with
    | none => (t.site.broker.publish (.of name (.registered e))).2
    | some id => ((t.site.broker.publish (.of name (.registered e))).2.publish
        (.of name (.stop ⟨name, id⟩))).2
  /-- No announcement fails. -/
  succeeds : ∀ e (s : Site), (s.publishAll (announcements t.id e)).1 = .ok ()
  /-- Any later tick leaves everything as it is; no request is sent. -/
  later : Granted earlier →
    t.tick (handleAfter earlier) = (.skipped "task is Terminated", ⟨.terminated, t.id⟩, t.site)
  /-- Those who wait for registrations are sent one at most. -/
  once : sentIn (t :: earlier) ≤ 1

/-- Whatever the exchanges give, registration happens once. -/
theorem once_after (earlier : List Trial) (t : Trial) : Once earlier t := by
  obtain ⟨hterminated, hidle⟩ := phase_after earlier
  refine ⟨?_, ?_, ?_, ?_, ?_, ?_, ?_, (sentIn_le (t :: earlier)).1⟩
  · intro hexchange
    exact Trial.tick_ofSite hexchange _
  · intro hnone hvain
    exact Trial.tick_vain (hidle hnone) hvain
  · intro hnone e hgrants
    exact Trial.tick_granted (hidle hnone) hgrants
  · intro e
    exact Trial.enroll_config t.site.store t.site.files e
  · exact t.enrolled_broker
  · intro e s
    rw [Site.publishAll_right (announcements_right t.id e)]
  · intro hgranted
    exact Trial.tick_terminated (hterminated hgranted)

end Registration

end EdgeSync
