import EdgeSync.Proofs.Refresh.Rereading

/-!
# Agreement of Registration and Refresh

After a registration has been handled, the refresh announces the issued locators once more at
most. When the listener takes this announcement, it tracks these locators already, so that
nothing changes: neither their order and their snapshots nor the credentials.

Other locators can come in between in two ways. The listener looks at registrations first, so if an
update with other locators is still pending when the registration is announced, then this update
comes after it. And a tick of the refresh that has read the file before the enrollment was written
may announce what it has read after the registration. In both cases the next announcement of the
refresh brings the issued locators back.

## Main definitions

- `Listening.Placed`: what comes after a registration in the order of taking
- `Listening.Handled`: all that had been heard of at some time has been taken
- `Relay.Issues`: an enrollment is granted and written
- `Relay.Course`: a registration with all steps up to its handling
- `Relay.Announces`, `Relay.Agrees`: what the steps after a registration come to

## Main results

- `Relay.placed_after`, `Relay.settled_of_handled`: up to the handling of the registration
- `Relay.Settled.after`: any steps after it
- `Relay.agreement`: both together
- `Relay.other_update_comes_after`: with other locators in between it is not so
-/

namespace EdgeSync

open EdgeSync.Web Broker

/-! ## What Is Taken -/

/-- A list with an item is split at the item also after another one is inserted. What comes after
it then is what came after it, and perhaps the new one. -/
theorem exists_split_insertIdx {items front back : List Event} {item : Event}
    (hsplit : items = front ++ item :: back) (new : Event) {place : Nat}
    (hplace : place ≤ items.length) :
    ∃ front' back', items.insertIdx place new = front' ++ item :: back' ∧
      front.length ≤ front'.length ∧ ∀ i ∈ back', i = new ∨ i ∈ back := by
  have hbefore : (items.take place).length = place := by
    rw [List.length_take, Nat.min_eq_left hplace]
  have hinsert : items.insertIdx place new = items.take place ++ new :: items.drop place := by
    have happend := insertIdx_append_length (items.take place) (items.drop place) new
    rwa [hbefore, List.take_append_drop] at happend
  have hboth : front ++ item :: back = items.take place ++ items.drop place := by
    rw [List.take_append_drop, hsplit]
  rw [hinsert]
  -- The new item comes before the one at which the list is split, or after it.
  rcases List.append_eq_append_iff.mp hboth with ⟨middle, htake, hdrop⟩ | ⟨middle, hfront, hdrop⟩
  · cases middle with
    | nil =>
      rw [List.append_nil] at htake
      rw [List.nil_append] at hdrop
      refine ⟨front ++ [new], back, ?_, by simp, fun i hi => .inr hi⟩
      rw [htake, ← hdrop, List.append_assoc]
      rfl
    | cons first middle =>
      obtain ⟨rfl, hback⟩ := List.cons.inj hdrop
      refine ⟨front, middle ++ new :: items.drop place, ?_, Nat.le_refl _, ?_⟩
      · rw [htake, List.append_assoc]
        rfl
      · intro i hi
        rw [hback]
        simpa [or_left_comm] using hi
  · refine ⟨items.take place ++ new :: middle, back, ?_, ?_, fun i hi => .inr hi⟩
    · rw [hdrop, List.append_assoc]
      rfl
    · rw [hfront]
      simp

namespace Listening

variable {initial : Reconciler} {deeds : List Deed} {l : Listening} {registered : Event}
  {states : List String}

/-- In the order of taking, a registration is followed by events only that repeat its locators;
and once it is taken, these are tracked. -/
def Placed (registered : Event) (states : List String) (l : Listening) : Prop :=
  ∃ front back, l.order = front ++ registered :: back ∧ (∀ e ∈ back, e.Repeats states) ∧
    (front.length < l.taken.length → l.reconciler.Tracks states)

theorem Placed.meet_announcement (h : l.Placed registered states) {update : LocatorUpdate}
    (hrepeats : (Refresh.Trial.announcement update).Repeats states) :
    (l.meet (.publish (Refresh.Trial.announcement update))).Placed registered states := by
  obtain ⟨front, back, horder, hback, htracks⟩ := h
  obtain ⟨front', back', hinsert, hlength, hmem⟩ :=
    exists_split_insertIdx horder (Refresh.Trial.announcement update)
      (Nat.sub_le l.order.length (l.overtaken (Refresh.Trial.announcement update)))
  rw [Listening.meet_announcement]
  refine ⟨front', back', hinsert, ?_, fun htaken => htracks (hlength.trans_lt htaken)⟩
  intro e he
  rcases hmem e he with rfl | hold
  · exact hrepeats
  · exact hback e hold

theorem Placed.hear_announcements (h : l.Placed registered states) {updates : List LocatorUpdate}
    (hrepeats : ∀ update ∈ updates, (Refresh.Trial.announcement update).Repeats states) :
    (l.hear (updates.map Refresh.Trial.announcement)).Placed registered states := by
  induction updates generalizing l with
  | nil => exact h
  | cons update updates ih =>
    rw [List.forall_mem_cons] at hrepeats
    exact ih (h.meet_announcement hrepeats.1) hrepeats.2

/-- A look takes nothing, or one event, after which the listener goes on. -/
theorem look_cases (l : Listening) :
    l.look.reconciler = l.reconciler ∧ l.look.taken = l.taken ∨
      ∃ e, l.look.reconciler = l.reconciler.heed e ∧ l.look.taken = l.taken ++ [e] ∧
        l.look.isRunning = true := by
  rw [look]
  split
  · next hruns =>
    split
    · exact .inr ⟨_, rfl, rfl, hruns⟩
    · exact .inl ⟨rfl, rfl⟩
    · exact .inl ⟨rfl, rfl⟩
  · exact .inl ⟨rfl, rfl⟩

theorem Placed.look {e : Enrollment} (h : l.Placed (Registration.announcement e) e.states)
    (hlook : Follows initial deeds (l.look.alone initial)) :
    l.look.Placed (Registration.announcement e) e.states := by
  obtain ⟨front, back, horder, hback, htracks⟩ := h
  refine ⟨front, back, l.look_order.1.trans horder, hback, ?_⟩
  rcases l.look_cases with ⟨hreconciler, htaken⟩ | ⟨event, hreconciler, htaken, -⟩
  · rw [hreconciler, htaken]
    exact htracks
  · intro hlength
    rw [htaken, List.length_append, List.length_singleton, Nat.lt_succ_iff] at hlength
    -- The event stands in the order right after those that were taken before.
    have hplace : l.order[l.taken.length]? = some event := by
      have hordered := hlook.ordered
      simp only [alone, l.look_order.1, htaken, List.append_assoc] at hordered
      rw [hordered]
      simp
    rw [hreconciler]
    rcases hlength.lt_or_eq with hlater | heq
    · -- The registration was taken earlier, so the event repeats its locators.
      have hmem : event ∈ back := by
        rw [horder, List.getElem?_append_right hlater.le,
          ← Nat.sub_add_cancel (Nat.sub_pos_of_lt hlater), List.getElem?_cons_succ] at hplace
        exact List.mem_of_getElem? hplace
      rw [Reconciler.heed_repeats (htracks hlater) (hback event hmem)]
      exact htracks hlater
    · have hsame : event = Registration.announcement e := by
        rw [horder, ← heq, List.getElem?_append_right (Nat.le_refl _), Nat.sub_self] at hplace
        exact (Option.some.inj hplace).symm
      rw [hsame]
      exact l.reconciler.tracks_registered e

/-! ## What Is Pending -/

/-- All that a listener had heard of at some time has been taken. -/
def Handled (before l : Listening) : Prop :=
  ∀ which, (before.heard.filter fun e => e.topic == topic which).length ≤
    (l.taken.filter fun e => e.topic == topic which).length

instance (before l : Listening) : Decidable (Handled before l) :=
  inferInstanceAs (Decidable (∀ _, _))

/-- Then only later news is pending. -/
theorem Follows.pending_later (h : Follows initial deeds (l.alone initial)) {before : Listening}
    {news : List Event} (hheard : l.heard = before.heard ++ news) (hhandled : Handled before l)
    (which : Bool) :
    waiting (l.number which) deeds <:+ news.filter fun e => e.topic == topic which := by
  have hall : (before.heard.filter fun e => e.topic == topic which) ++
        (news.filter fun e => e.topic == topic which) =
      (l.taken.filter fun e => e.topic == topic which) ++ waiting (l.number which) deeds := by
    rw [← List.filter_append, ← hheard]
    exact h.heard which
  -- Both are ends of what has been heard, and this one is not longer.
  have hlength := congrArg List.length hall
  rw [List.length_append, List.length_append] at hlength
  have hshort := hhandled which
  refine List.suffix_of_suffix_length_le ⟨_, hall.symm⟩ ⟨_, rfl⟩ ?_
  omega

theorem mem_queue {w : Bool → List Event} {atUpdates : Bool} {e : Event}
    (h : e ∈ queue w atUpdates) : ∃ which, e ∈ w which := by
  unfold queue at h
  split at h
  · rcases List.mem_append.mp h with hfirst | hlast
    · rcases List.mem_append.mp hfirst with hnext | hother
      · exact ⟨true, List.mem_of_mem_take hnext⟩
      · exact ⟨false, hother⟩
    · exact ⟨true, List.mem_of_mem_drop hlast⟩
  · rcases List.mem_append.mp h with hother | hlast
    · exact ⟨false, hother⟩
    · exact ⟨true, hlast⟩

/-- What a look takes was pending. -/
theorem Follows.pending_of_taken (h : Follows initial deeds (l.alone initial))
    {deeds' : List Deed} (hlook : Follows initial deeds' (l.look.alone initial)) {event : Event}
    (htaken : l.look.taken = l.taken ++ [event]) :
    ∃ which, event ∈ waiting (l.number which) deeds := by
  have hbefore : l.order = l.taken ++ queue (fun which => waiting (l.number which) deeds)
      l.atUpdates := h.ordered
  have hafter : l.order = l.look.taken ++ queue
      (fun which => waiting (l.look.number which) deeds') l.look.atUpdates :=
    l.look_order.1.symm.trans hlook.ordered
  rw [htaken, List.append_assoc, hbefore, List.append_cancel_left_eq] at hafter
  have hqueue : event ∈ queue (fun which => waiting (l.number which) deeds) l.atUpdates := by
    rw [hafter]
    exact List.mem_append_left _ (List.mem_singleton_self event)
  exact mem_queue hqueue

/-- If no registration is pending, then the locators of the last one are tracked. -/
theorem Placed.tracks {e : Enrollment} (h : l.Placed (Registration.announcement e) e.states)
    (hfollows : Follows initial deeds (l.alone initial))
    (hnone : waiting (l.number false) deeds = []) : l.reconciler.Tracks e.states := by
  obtain ⟨front, back, horder, -, htracks⟩ := h
  apply htracks
  by_contra hshort
  -- Else the registration is in the queue, and so among the pending registrations.
  have hdrop : l.order.drop l.taken.length =
      queue (fun which => waiting (l.number which) deeds) l.atUpdates := by
    rw [show l.order = l.taken ++ _ from hfollows.ordered, List.drop_left]
    rfl
  have hqueue : Registration.announcement e ∈
      queue (fun which => waiting (l.number which) deeds) l.atUpdates := by
    rw [← hdrop, horder, List.drop_append_of_le_length (Nat.le_of_not_lt hshort)]
    exact List.mem_append_right _ List.mem_cons_self
  obtain ⟨which, hwhich⟩ := mem_queue hqueue
  cases which with
  | false =>
    rw [hnone] at hwhich
    exact absurd hwhich List.not_mem_nil
  | true =>
    have hheard : l.heard.filter (fun e => e.topic == topic true) =
        l.taken.filter (fun e => e.topic == topic true) ++ waiting (l.number true) deeds :=
      hfollows.heard true
    have hmem : Registration.announcement e ∈
        l.heard.filter fun e => e.topic == topic true := by
      rw [hheard]
      exact List.mem_append_right _ hwhich
    have htopic : (Topic.registration == Topic.update) = true := (List.mem_filter.mp hmem).2
    exact absurd htopic (by decide)

/-! ## The Registration -/

/-- The pending events that an event overtakes. -/
def outrun (l : Listening) (e : Event) : List Event :=
  l.order.drop (l.order.length - l.overtaken e)

/-- A registration gets its place among what is to be taken. -/
theorem placed_registered (hfollows : Follows initial deeds (l.alone initial)) {e : Enrollment}
    (houtrun : ∀ event ∈ l.outrun (Registration.announcement e), event.Repeats e.states) :
    (l.meet (.publish (Registration.announcement e))).Placed (Registration.announcement e)
      e.states := by
  have htopic : (Registration.announcement e).topic = topic false := rfl
  obtain ⟨front, back, hqueue, -, hback⟩ := hfollows.overtaken htopic fun _ => rfl
  have hordered : l.order = (l.taken ++ front) ++ back := by
    rw [List.append_assoc, ← hqueue]
    exact hfollows.ordered
  have hplace : l.order.length - l.overtaken (Registration.announcement e) =
      (l.taken ++ front).length := by
    have hcount : back.length = l.overtaken (Registration.announcement e) := hback
    rw [← hcount, hordered, List.length_append, Nat.add_sub_cancel]
  rw [meet_heard rfl false htopic]
  refine ⟨l.taken ++ front, back, ?_, ?_, ?_⟩
  · show l.order.insertIdx _ _ = _
    rw [hplace, hordered, insertIdx_append_length]
  · rw [outrun, hplace, hordered, List.drop_left] at houtrun
    exact houtrun
  · intro hshort
    rw [List.length_append] at hshort
    exact absurd hshort (Nat.not_lt.mpr (Nat.le_add_right _ _))

end Listening

namespace Relay

variable {initial : Reconciler} {start w : Relay} {e : Enrollment} {states : List String}
  {path : String} {late updates : List LocatorUpdate} {step : Step}

/-! ## Up to the Handling of the Registration -/

/-- What the refresh may publish repeats the locators, if what a tick under way was about to
publish does so. -/
theorem Since.repeats (h : Since start late states path updates w)
    (hlate : ∀ update ∈ late, (Refresh.Trial.announcement update).Repeats states)
    {update : LocatorUpdate} (hupdate : update ∈ updates) :
    (Refresh.Trial.announcement update).Repeats states := by
  rcases h.mem hupdate with hold | rfl
  · exact hlate update hold
  · exact repeats_announcement states

theorem placed_next (h : w.listening.Placed (Registration.announcement e) e.states)
    (hsince : Since start late e.states path updates w)
    (hlate : ∀ update ∈ late, (Refresh.Trial.announcement update).Repeats e.states)
    (hfetch : fetchConfigFile start.files path = .ok ⟨e.states⟩)
    (hquiet : step.Quiet start.files path) {deeds : List Deed}
    (hfollows : Listening.Follows initial deeds ((w.next step).listening.alone initial)) :
    (w.next step).listening.Placed (Registration.announcement e) e.states := by
  have hsince' := hsince.next hfetch hquiet
  cases step with
  | enroll id isCanceled exchange =>
    rw [next_enroll hsince.enrolled.begun]
    exact h
  | announce =>
    cases hannouncing : w.announcing with
    | nil =>
      simp only [next, announce, hannouncing]
      exact h
    | cons event rest =>
      have hsilent := hsince.silent event (by rw [hannouncing]; exact List.mem_cons_self)
      simp only [next, announce, hannouncing, Listening.hear, List.foldl_cons, List.foldl_nil,
        Listening.meet_quiet hsilent]
      exact h
  | read isCanceled =>
    rcases hsince.enrolled.reads.next_read isCanceled with hsame | ⟨-, hnext⟩
    · rwa [hsame]
    · rwa [hnext]
  | conclude interruption =>
    cases hreading : w.reading with
    | none => rwa [(conclude_none hreading _).2]
    | some x =>
      simp only [next, conclude, hreading]
      refine h.hear_announcements fun update hupdate => ?_
      exact hsince'.repeats hlate (List.mem_append_right updates hupdate)
  | look => exact h.look hfollows
  | commit locator snapshot =>
    obtain ⟨front, back, horder, hback, htracks⟩ := h
    exact ⟨front, back, horder, hback, fun htaken => (htracks htaken).commit locator snapshot⟩
  | other operation =>
    simp only [next, Listening.meet_quiet hquiet]
    exact h
  | surroundings files network store => exact h

theorem since_after (hsince : Since start late e.states path [] start)
    (hfetch : fetchConfigFile start.files path = .ok ⟨e.states⟩) {steps : List Step}
    (hquiet : ∀ step ∈ steps, step.Quiet start.files path) :
    Since start late e.states path (start.published steps) (start.after steps) := by
  induction steps with
  | nil => exact hsince
  | cons step earlier ih =>
    rw [List.forall_mem_cons] at hquiet
    exact (ih hquiet.2).next hfetch hquiet.1

/-- Until the registration has been handled, it keeps its place among what is to be taken. -/
theorem placed_after (hsince : Since start late e.states path [] start)
    (hlate : ∀ update ∈ late, (Refresh.Trial.announcement update).Repeats e.states)
    (hfetch : fetchConfigFile start.files path = .ok ⟨e.states⟩)
    (hplaced : start.listening.Placed (Registration.announcement e) e.states) {deeds : List Deed}
    (hfollows : Listening.Follows initial deeds (start.listening.alone initial))
    {steps : List Step} (hspares : ∀ step ∈ steps, step.Spares start.listening)
    (hquiet : ∀ step ∈ steps, step.Quiet start.files path)
    (hfits : ∀ earlier ∈ steps.tails, (start.after earlier).listening.Fits)
    (hruns : (start.after steps).listening.isRunning = true) :
    (start.after steps).listening.Placed (Registration.announcement e) e.states := by
  induction steps with
  | nil => exact hplaced
  | cons step earlier ih =>
    obtain ⟨deeds', hnext⟩ := follows_after hfollows hspares hfits hruns
    rw [List.tails_cons, List.forall_mem_cons] at hfits
    rw [List.forall_mem_cons] at hspares hquiet
    -- A listener that is running now was so all the time.
    have hbefore := ih hspares.2 hquiet.2 hfits.2 (isRunning_of_next hruns)
    exact placed_next hbefore (since_after hsince hfetch hquiet.2) hlate hfetch hquiet.1 hnext

/-! ## After the Handling of the Registration -/

/-- What is left of a registration when it and all before it have been handled: nothing is pending
but what the refresh has published since, and there is room for this. -/
structure Settled (initial : Reconciler) (start : Relay) (late : List LocatorUpdate)
    (states : List String) (path : String) (updates : List LocatorUpdate) (w : Relay) : Prop where
  since : Since start late states path updates w
  handled : Listening.Handled start.listening w.listening
  room : late.length < w.listening.broker.buffer
  follows : w.listening.isRunning = true →
    ∃ deeds, Listening.Follows initial deeds (w.listening.alone initial)

/-- What has been taken stays taken. -/
theorem handled_next (h : Listening.Handled start.listening w.listening) (step : Step) :
    Listening.Handled start.listening (w.next step).listening := by
  have hlonger : w.listening.taken <+: (w.next step).listening.taken := by
    rcases w.meets_next step with
      ⟨-, hnext⟩ | ⟨locator, snapshot, -, hnext⟩ | ⟨operation, -, hnext⟩ | ⟨events, hnext⟩
    · rw [hnext]
      rcases w.listening.look_cases with ⟨-, htaken⟩ | ⟨event, -, htaken, -⟩
      · exact ⟨[], (List.append_nil _).trans htaken.symm⟩
      · exact ⟨[event], htaken.symm⟩
    · rw [hnext]
    · rw [hnext, (w.listening.meet_keeps operation).2]
    · rw [hnext, (w.listening.hear_keeps events).2]
  intro which
  exact (h which).trans (hlonger.filter _).length_le

/-- No more events are pending than the buffer holds, and the refresh has published them. -/
theorem Settled.pending (h : Settled initial start late states path updates w) {deeds : List Deed}
    (hfollows : Listening.Follows initial deeds (w.listening.alone initial)) :
    w.listening.Fits ∧
      ∀ which, ∀ event ∈ waiting (w.listening.number which) deeds,
        ∃ update ∈ updates, event = Refresh.Trial.announcement update := by
  have hpending := hfollows.pending_later h.since.heard h.handled
  refine ⟨?_, ?_⟩
  · intro which
    have hlives : w.listening.number which ∈ live (Listening.topic which) deeds :=
      hfollows.lives which
    have htells : Tells deeds w.listening.broker := hfollows.tells
    calc w.listening.broker.pending (w.listening.number which)
      _ = (waiting (w.listening.number which) deeds).length := htells.pending_eq hlives
      _ ≤ ((updates.map Refresh.Trial.announcement).filter _).length :=
        (hpending which).length_le
      _ ≤ (updates.map Refresh.Trial.announcement).length := List.length_filter_le _ _
      _ = updates.length := List.length_map _
      _ ≤ late.length + 1 := h.since.length_le
      _ ≤ w.listening.broker.buffer := h.room
  · intro which event hevent
    have hmem := (hpending which).subset hevent
    obtain ⟨update, hupdate, rfl⟩ := List.mem_map.mp (List.mem_filter.mp hmem).1
    exact ⟨update, hupdate, rfl⟩

/-- A look takes nothing, or an update that the refresh has published. -/
theorem Settled.look_cases (h : Settled initial start late states path updates w) :
    w.listening.look.reconciler = w.listening.reconciler ∨
      ∃ update ∈ updates, w.listening.isRunning = true ∧
        w.listening.look.reconciler =
          w.listening.reconciler.heed (Refresh.Trial.announcement update) := by
  by_cases hruns : w.listening.isRunning = true
  · obtain ⟨deeds, hfollows⟩ := h.follows hruns
    obtain ⟨hfits, hpublished⟩ := h.pending hfollows
    rcases w.listening.look_cases with ⟨hsame, -⟩ | ⟨event, hreconciler, htaken, hruns'⟩
    · exact .inl hsame
    · obtain ⟨deeds', hlook⟩ : ∃ deeds',
          Listening.Follows initial deeds' ((w.next .look).listening.alone initial) :=
        follows_next hfollows trivial hfits hruns'
      obtain ⟨which, hwhich⟩ := hfollows.pending_of_taken hlook htaken
      obtain ⟨update, hupdate, rfl⟩ := hpublished which event hwhich
      exact .inr ⟨update, hupdate, hruns, hreconciler⟩
  · rw [Listening.look, if_neg hruns]
    exact .inl rfl

theorem Settled.next (h : Settled initial start late states path updates w)
    (hfetch : fetchConfigFile start.files path = .ok ⟨states⟩)
    (hquiet : step.Quiet start.files path) (hspares : step.Spares w.listening) :
    Settled initial start late states path (updates ++ w.news step) (w.next step) where
  since := h.since.next hfetch hquiet
  handled := handled_next h.handled step
  room := by
    rw [buffer_next]
    exact h.room
  follows := by
    intro hruns
    obtain ⟨deeds, hfollows⟩ := h.follows (isRunning_of_next hruns)
    exact follows_next hfollows hspares (h.pending hfollows).1 hruns

theorem Settled.after (h : Settled initial start late states path updates w)
    (hfetch : fetchConfigFile start.files path = .ok ⟨states⟩) {later : List Step}
    (hspares : ∀ step ∈ later, step.Spares w.listening)
    (hquiet : ∀ step ∈ later, step.Quiet start.files path) :
    Settled initial start late states path (updates ++ w.published later) (w.after later) := by
  induction later with
  | nil =>
    rw [published, List.append_nil]
    exact h
  | cons step earlier ih =>
    rw [List.forall_mem_cons] at hspares hquiet
    rw [published, ← List.append_assoc]
    exact (ih hspares.2 hquiet.2).next hfetch hquiet.1 ((spares_after w earlier).mpr hspares.1)

/-- Once the registration has been handled, it has settled. -/
theorem settled_of_handled (hsince : Since start late e.states path [] start)
    (hfetch : fetchConfigFile start.files path = .ok ⟨e.states⟩)
    (hroom : late.length < start.listening.broker.buffer)
    (hfollows : start.listening.isRunning = true →
      ∃ deeds, Listening.Follows initial deeds (start.listening.alone initial))
    {steps : List Step} (hspares : ∀ step ∈ steps, step.Spares start.listening)
    (hquiet : ∀ step ∈ steps, step.Quiet start.files path)
    (hfits : ∀ earlier ∈ steps.tails, (start.after earlier).listening.Fits)
    (hhandled : Listening.Handled start.listening (start.after steps).listening) :
    Settled initial start late e.states path (start.published steps) (start.after steps) where
  since := since_after hsince hfetch hquiet
  handled := hhandled
  room := by
    rw [buffer_after]
    exact hroom
  follows := by
    intro hruns
    obtain ⟨deeds, hfirst⟩ := hfollows (isRunning_of_after hruns)
    exact follows_after hfirst hspares hfits hruns

/-- Then the locators of a registration that has kept its place are tracked. -/
theorem Settled.tracks (h : Settled initial start late e.states path updates w)
    (hplaced : w.listening.Placed (Registration.announcement e) e.states)
    (hruns : w.listening.isRunning = true) : w.listening.reconciler.Tracks e.states := by
  obtain ⟨deeds, hfollows⟩ := h.follows hruns
  refine hplaced.tracks hfollows (List.suffix_nil.mp ?_)
  -- Since the registration only updates have been heard of.
  have hnone : (updates.map Refresh.Trial.announcement).filter
      (fun event => event.topic == Listening.topic false) = [] := by
    refine List.filter_eq_nil_iff.mpr fun event hevent => ?_
    obtain ⟨update, -, rfl⟩ := List.mem_map.mp hevent
    have hother : ¬ (Topic.update == Topic.registration) = true := by decide
    exact hother
  have hpending := hfollows.pending_later h.since.heard h.handled false
  rwa [hnone] at hpending

/-! ## What Comes Later -/

/-- What remembering snapshots in some steps makes of a reconciler. -/
def remembered (r : Reconciler) : List Step → Reconciler
  | [] => r
  | .commit locator snapshot :: earlier => (remembered r earlier).commit locator snapshot
  | _ :: earlier => remembered r earlier

theorem remembered_cons (r : Reconciler) (step : Step) (earlier : List Step) :
    remembered r (step :: earlier) = remembered (remembered r earlier) [step] := by
  cases step <;> rfl

theorem tracks_remembered {r : Reconciler} (h : r.Tracks states) (steps : List Step) :
    (remembered r steps).Tracks states := by
  induction steps with
  | nil => exact h
  | cons step earlier ih =>
    cases step with
    | commit locator snapshot => exact ih.commit locator snapshot
    | _ => exact ih

/-- Only a look and the remembering of a snapshot change a reconciler. -/
theorem reconciler_kept (hlook : step ≠ .look)
    (hcommit : ∀ locator snapshot, step ≠ .commit locator snapshot) :
    (w.next step).listening.reconciler = w.listening.reconciler := by
  rcases w.meets_next step with
    ⟨hstep, -⟩ | ⟨locator, snapshot, hstep, -⟩ | ⟨operation, -, hnext⟩ | ⟨events, hnext⟩
  · exact absurd hstep hlook
  · exact absurd hstep (hcommit locator snapshot)
  · rw [hnext, (w.listening.meet_keeps operation).1]
  · rw [hnext, (w.listening.hear_keeps events).1]

/-- If a look leaves the reconciler, then only remembering a snapshot changes it. -/
theorem reconciler_next (hlook : w.listening.look.reconciler = w.listening.reconciler)
    (step : Step) :
    (w.next step).listening.reconciler = remembered w.listening.reconciler [step] := by
  cases step with
  | look => exact hlook
  | commit locator snapshot => rfl
  | enroll | announce | read | conclude | other | surroundings => exact reconciler_kept nofun nofun

/-- What the refresh does after a registration has been handled, where `late` is what a tick under
way was about to publish. -/
structure Announces (late : List LocatorUpdate) (states : List String) (w : Relay)
    (later : List Step) : Prop where
  /-- It publishes the issued locators once at most. Only the tick under way may publish something
  else before. -/
  published : (w.published later).Sublist (late ++ [⟨states⟩])
  /-- Whatever the listener takes does not change the credentials. -/
  credentials : (w.after later).listening.look.reconciler.credentials =
    (w.after later).listening.reconciler.credentials

/-- How the listener agrees with it. -/
structure Agrees (w : Relay) (later : List Step) : Prop where
  /-- Whatever it takes changes neither the locators, their order and their snapshots nor the
  credentials. -/
  look : (w.after later).listening.look.reconciler = (w.after later).listening.reconciler
  /-- So the reconciler is what remembering snapshots has made of it. -/
  remembers : (w.after later).listening.reconciler =
    remembered w.listening.reconciler later

theorem Settled.announces (h : Settled initial start late states path updates w)
    (hfetch : fetchConfigFile start.files path = .ok ⟨states⟩) {later : List Step}
    (hspares : ∀ step ∈ later, step.Spares w.listening)
    (hquiet : ∀ step ∈ later, step.Quiet start.files path) : Announces late states w later := by
  have hafter := h.after hfetch hspares hquiet
  refine ⟨(List.sublist_append_right _ _).trans hafter.since.progress.sublist, ?_⟩
  rcases hafter.look_cases with hsame | ⟨update, -, -, hreconciler⟩
  · rw [hsame]
  · rw [hreconciler, Reconciler.credentials_announcement]

/-- What repeats the locators changes nothing if they are tracked. -/
theorem Settled.look (h : Settled initial start late states path updates w)
    (hlate : ∀ update ∈ late, (Refresh.Trial.announcement update).Repeats states)
    (htracks : w.listening.isRunning = true → w.listening.reconciler.Tracks states) :
    w.listening.look.reconciler = w.listening.reconciler := by
  rcases h.look_cases with hsame | ⟨update, hupdate, hruns, hreconciler⟩
  · exact hsame
  · rw [hreconciler, Reconciler.heed_repeats (htracks hruns) (h.since.repeats hlate hupdate)]

theorem Settled.agrees (h : Settled initial start late states path updates w)
    (hlate : ∀ update ∈ late, (Refresh.Trial.announcement update).Repeats states)
    (hfetch : fetchConfigFile start.files path = .ok ⟨states⟩)
    (htracks : w.listening.isRunning = true → w.listening.reconciler.Tracks states)
    {later : List Step} (hspares : ∀ step ∈ later, step.Spares w.listening)
    (hquiet : ∀ step ∈ later, step.Quiet start.files path) : Agrees w later := by
  have hstays {steps : List Step}
      (hsteps : (w.after steps).listening.reconciler = remembered w.listening.reconciler steps) :
      (w.after steps).listening.isRunning = true →
        (w.after steps).listening.reconciler.Tracks states := by
    intro hruns
    rw [hsteps]
    exact tracks_remembered (htracks (isRunning_of_after hruns)) steps
  have hremembers : (w.after later).listening.reconciler =
      remembered w.listening.reconciler later := by
    induction later with
    | nil => rfl
    | cons step earlier ih =>
      -- So far snapshots were remembered only, so the locators are tracked and a look is idle.
      rw [List.forall_mem_cons] at hspares hquiet
      have hearlier := ih hspares.2 hquiet.2
      have hlook := (h.after hfetch hspares.2 hquiet.2).look hlate (hstays hearlier)
      rw [Relay.after, reconciler_next hlook, hearlier, ← remembered_cons]
  exact ⟨(h.after hfetch hspares hquiet).look hlate (hstays hremembers), hremembers⟩

/-! ## From the Registration On -/

theorem forall_tails_append {α : Type} {P : List α → Prop} {later earlier : List α}
    (h : ∀ steps ∈ (later ++ earlier).tails, P steps) :
    (∀ steps ∈ later.tails, P (steps ++ earlier)) ∧ ∀ steps ∈ earlier.tails, P steps := by
  simp only [List.mem_tails] at h ⊢
  refine ⟨fun steps hsteps => h _ ?_, fun steps hsteps => h _ ?_⟩
  · exact List.suffix_append_self_iff.mpr hsteps
  · exact hsteps.trans (List.suffix_append later earlier)

/-- The next tick of the registration is granted an enrollment, which is written to the file that
the refresh reads. -/
structure Issues (w : Relay) (id : Option TaskId) (exchange : Registration.Exchange)
    (e : Enrollment) (path : String) : Prop where
  idle : w.registration.phase = .idle
  grants : (w.registering id false exchange).Grants e
  /-- The store writes the enrollment to its file, -/
  writes : ∃ target, w.store.Writes w.files e target ∧
    -- and the refresh reads this file, perhaps by another path.
    (w.store.enroll w.files e).2.1.lookUp path = (w.store.enroll w.files e).2.1.lookUp target
  reads : w.Reads path

variable {id : Option TaskId} {exchange : Registration.Exchange}

/-- A listener that has just begun follows. -/
theorem follows_join {capacity : Nat} {operations : List Operation}
    (hstart : w.listening = Listening.join capacity operations initial) :
    ∃ deeds, Listening.Follows initial deeds (w.listening.alone initial) := by
  rw [hstart]
  exact ⟨_, Listening.start_follows (tells_after (tells_new capacity) operations) initial⟩

/-- The relay when an enrollment has been written, and its announcements are still to come. -/
def written (w : Relay) (id : Option TaskId) (exchange : Registration.Exchange) (e : Enrollment) :
    Relay :=
  { w with
    files := (w.site.enroll e).files
    network := exchange.network
    store := (w.site.enroll e).store
    registration := { w.registration with phase := .running, id }
    announcing := Registration.announcements id e }

theorem Issues.next (h : w.Issues id exchange e path) :
    w.next (.enroll id false exchange) = w.written id exchange e := by
  obtain ⟨hready, -, hanswer⟩ := Registration.Trial.grants_iff.mp h.grants
  refine enroll_accepted ?_ hanswer
  have hready : Registration.obstacle? w.store = none := hready
  simp [TaskHandle.enter, TaskHandle.begin, h.idle, hready]

theorem Issues.fetches (h : w.Issues id exchange e path) :
    fetchConfigFile (w.next (.enroll id false exchange)).files path = .ok ⟨e.states⟩ := by
  obtain ⟨target, hwrites, hsame⟩ := h.writes
  rw [h.next]
  exact fetch_of_writes hwrites hsame

theorem Issues.enrolled (h : w.Issues id exchange e path) :
    Enrolled (w.next (.enroll id false exchange)) path (w.next (.enroll id false exchange)) := by
  refine ⟨rfl, h.reads.next _, ?_⟩
  rw [h.next]
  nofun

/-- A registration from the start of a relay, whose listener has begun at a broker with some
history, to the time when it has been handled: the steps before it ticks, those up to its first
announcement, and those after. -/
structure Course where
  initial : Reconciler
  capacity : Nat
  operations : List Operation
  start : Relay
  earlier : List Step
  id : Option TaskId
  exchange : Registration.Exchange
  between : List Step
  sooner : List Step

namespace Course

variable {c : Course}

/-- The relay when the enrollment has been written. -/
def enrolled (c : Course) : Relay :=
  (c.start.after c.earlier).next (.enroll c.id false c.exchange)

/-- The relay when the registration is announced next. -/
def enroute (c : Course) : Relay :=
  c.enrolled.after c.between

/-- The relay when the registration has been announced. -/
def announced (c : Course) : Relay :=
  c.enroute.next .announce

/-- The relay when the registration has been handled. -/
def handled (c : Course) : Relay :=
  c.announced.after c.sooner

/-- All steps, the latest first. -/
def steps (c : Course) : List Step :=
  c.sooner ++ .announce :: (c.between ++ .enroll c.id false c.exchange :: c.earlier)

/-- An enrollment is issued and announced; and then it is handled, with everything that had been
announced before it. Nobody else writes to the file from the enrollment on, and nobody else
announces locators from the registration on. -/
structure Handles (c : Course) (e : Enrollment) (path : String) : Prop where
  joins : c.start.listening = Listening.join c.capacity c.operations c.initial
  issues : (c.start.after c.earlier).Issues c.id c.exchange e path
  waits : ∀ step ∈ c.between, step ≠ .announce ∧ step.KeepsFile c.enrolled.files path
  quiet : ∀ step ∈ c.sooner, step.Quiet c.announced.files path
  spares : ∀ step ∈ c.steps, step.Spares c.start.listening
  fits : ∀ steps ∈ c.steps.tails, (c.start.after steps).listening.Fits
  handled : Listening.Handled c.announced.listening c.handled.listening

/-- While the registration waits, the file is kept, and so are its announcements. -/
theorem Handles.enroute (h : c.Handles e path) :
    Enrolled c.enrolled path c.enroute ∧
      c.enroute.announcing = Registration.announcements c.id e := by
  obtain ⟨henrolled, hannouncing⟩ := h.issues.enrolled.after h.waits
  exact ⟨henrolled, hannouncing.trans (congrArg Relay.announcing h.issues.next)⟩

theorem Handles.announced (h : c.Handles e path) :
    c.announced =
      { c.enroute with
        announcing := (Registration.announcements c.id e).tail
        registration :=
          if (Registration.announcements c.id e).tail.isEmpty then
            c.enroute.registration.release .terminated
          else c.enroute.registration
        listening := c.enroute.listening.meet (.publish (Registration.announcement e)) } :=
  announce_cons h.enroute.2

theorem Handles.fetches (h : c.Handles e path) :
    fetchConfigFile c.announced.files path = .ok ⟨e.states⟩ := by
  rw [h.announced]
  exact (fetch_congr h.enroute.1.file).trans h.issues.fetches

/-- The wish to be stopped is not for the listener. -/
theorem Handles.silent (h : c.Handles e path) :
    ∀ event ∈ c.announced.announcing, ∀ which,
      Operation.bring (Listening.topic which) (.publish event) = [] := by
  have hother : ∀ which, Topic.stop ≠ Listening.topic which := by decide
  intro event hevent which
  rw [h.announced] at hevent
  obtain ⟨id, -, rfl⟩ := List.mem_map.mp hevent
  exact if_neg fun hboth => hother which hboth.2

theorem Handles.since (h : c.Handles e path) :
    Since c.announced (c.announced.late e.states) e.states path [] c.announced := by
  have henrolled : Enrolled c.enrolled path c.announced := h.enroute.1.next trivial
  exact Enrolled.since ⟨rfl, henrolled.reads, henrolled.begun⟩ h.silent e.states

/-- And so it goes on, with room for all that the refresh may publish. -/
structure GoesOn (c : Course) (e : Enrollment) (path : String) (later : List Step) : Prop extends
    c.Handles e path where
  spared : ∀ step ∈ later, step.Spares c.start.listening
  quieted : ∀ step ∈ later, step.Quiet c.announced.files path
  room : (c.announced.late e.states).length < c.start.listening.broker.buffer

/-- What the refresh reads when the registration has been handled. -/
theorem Handles.rereads (h : c.Handles e path) :
    c.handled.Reads path ∧ fetchConfigFile c.handled.files path = .ok ⟨e.states⟩ := by
  have hsince := since_after h.since h.fetches h.quiet
  exact ⟨hsince.enrolled.reads, (fetch_congr hsince.enrolled.file).trans h.fetches⟩

theorem after_announced (c : Course) :
    c.start.after (.announce :: (c.between ++ .enroll c.id false c.exchange :: c.earlier)) =
      c.announced := by
  rw [Relay.after, after_append]
  rfl

/-- The listener has followed up to the registration, and goes on to follow. -/
theorem Handles.follows (h : c.Handles e path) :
    (c.enroute.listening.isRunning = true →
      ∃ deeds, Listening.Follows c.initial deeds (c.enroute.listening.alone c.initial)) ∧
    (c.announced.listening.isRunning = true →
      ∃ deeds, Listening.Follows c.initial deeds (c.announced.listening.alone c.initial)) := by
  obtain ⟨-, hfits⟩ := forall_tails_append h.fits
  have hspares := (List.forall_mem_append.mp h.spares).2
  obtain ⟨deeds, hbegin⟩ := follows_join h.joins
  have hafter : c.start.after (c.between ++ .enroll c.id false c.exchange :: c.earlier) =
      c.enroute := after_append _ _ _
  rw [← c.after_announced, ← hafter]
  refine ⟨follows_after hbegin (List.forall_mem_cons.mp hspares).2 fun steps hsteps => ?_,
    follows_after hbegin hspares hfits⟩
  exact hfits steps (List.mem_cons_of_mem _ hsteps)

end Course

/-- From the handling of a registration on, the refresh publishes the issued locators once at most,
apart from what a tick under way may have read before, and what it publishes leaves the
credentials. If no pending update that the registration overtook has other locators, and that tick
has read none, then it leaves all of the reconciler. -/
theorem agreement {c : Course} {later : List Step} (h : c.GoesOn e path later) :
    Announces (c.announced.late e.states) e.states c.handled later ∧
      ((∀ event ∈ c.enroute.listening.outrun (Registration.announcement e),
          event.Repeats e.states) →
        (∀ update ∈ c.announced.late e.states,
          (Refresh.Trial.announcement update).Repeats e.states) →
        Agrees c.handled later) := by
  obtain ⟨hfollows, hregistered⟩ := h.follows
  obtain ⟨hfits, -⟩ := forall_tails_append h.fits
  obtain ⟨hsooner, -⟩ := List.forall_mem_append.mp h.spares
  simp only [after_append, c.after_announced] at hfits
  have hspared {steps : List Step} (hsteps : ∀ step ∈ steps, step.Spares c.start.listening) :
      ∀ step ∈ steps, step.Spares c.announced.listening := by
    intro step hstep
    rw [← c.after_announced]
    exact (spares_after _ _).mpr (hsteps step hstep)
  have hroom : (c.announced.late e.states).length < c.announced.listening.broker.buffer := by
    have hroom := h.room
    rwa [← c.after_announced, buffer_after, c.after_announced]
  have hsettled := settled_of_handled h.toHandles.since h.fetches hroom hregistered
    (hspared hsooner) h.quiet hfits h.handled
  have hlater : ∀ step ∈ later, step.Spares c.handled.listening :=
    fun step hstep => (spares_after _ _).mpr (hspared h.spared step hstep)
  refine ⟨hsettled.announces h.fetches hlater h.quieted, fun houtrun hlate => ?_⟩
  refine hsettled.agrees hlate h.fetches (fun hruns => ?_) hlater h.quieted
  -- The registration has got its place, and has kept it up to the time when it was taken.
  have hruns' := isRunning_of_after hruns
  obtain ⟨deeds, hbefore⟩ := hfollows (isRunning_of_next hruns')
  obtain ⟨deeds', hafter⟩ := hregistered hruns'
  have hplace : c.announced.listening.Placed (Registration.announcement e) e.states := by
    rw [h.announced]
    exact Listening.placed_registered hbefore houtrun
  have hplaced := placed_after h.since hlate h.fetches hplace hafter (hspared hsooner) h.quiet
    hfits hruns
  exact hsettled.tracks hplaced hruns

/-! ## A Relay over One File -/

/-- A configuration that a registration can begin with, with one locator. -/
def unenrolled : Config :=
  { Config.empty with
    enrollment := ⟨.empty, ["a"]⟩
    settings := { Settings.empty with groundControlUrl := "ground", token := "token" } }

/-- An enrollment with a locator that is given twice. -/
def issuedTwice : Enrollment := ⟨⟨"robot", "harbor", "secret"⟩, ["b", "c", "b"]⟩

/-- The exchange by which it is granted. -/
def granting : Registration.Exchange :=
  ⟨some (.ok ⟨200, Text.Document.ofString issuedTwice.toJson.compact⟩), .bare false⟩

/-- A relay over this configuration, the file of which is at `a`. -/
def overOneFile : Relay where
  files := .ofConfig unenrolled
  network := .bare false
  store := ⟨unenrolled, 0, 0, some "a"⟩
  registration := .new
  announcing := []
  refresh := .new (.file "a")
  reading := none
  listening := Listening.join 2 [] ⟨.empty, []⟩

/-- A course that begins so. -/
def Course.overOneFile (earlier sooner : List Step) : Course where
  initial := ⟨.empty, []⟩
  capacity := 2
  operations := []
  start := Relay.overOneFile
  earlier := earlier
  id := none
  exchange := granting
  between := []
  sooner := sooner

theorem issues_overOneFile (hfiles : w.files = .ofConfig unenrolled)
    (hstore : w.store = ⟨unenrolled, 0, 0, some "a"⟩) (hidle : w.registration.phase = .idle)
    (hreads : w.Reads "a") : w.Issues none granting issuedTwice "a" := by
  refine ⟨hidle, ⟨?_, rfl, ⟨_, rfl, read_compact (restores_enrollment issuedTwice)⟩, by decide⟩,
    ⟨"a", ⟨?_, ?_⟩, rfl⟩, hreads⟩
  · show Registration.obstacle? w.store = none
    rw [hstore]
    decide
  · rw [hstore]
  · rw [hstore, hfiles]
    simp only [ConfigStore.writeVersion, ConfigStore.writeVersionBy, FileTree.write_ofConfig]
    rfl

/-- The enrollment is granted, the listener takes it, and the refresh reads it back and announces
it. When the listener takes this announcement, it changes nothing. -/
theorem agreement_overOneFile :
    let c := Course.overOneFile [] [.look]
    let later : List Step := [.look, .look, .conclude none, .read false, .commit "c" .empty]
    Announces (c.announced.late issuedTwice.states) issuedTwice.states c.handled later ∧
      Agrees c.handled later := by
  intro c later
  have hissues : overOneFile.Issues none granting issuedTwice "a" :=
    issues_overOneFile rfl rfl rfl ⟨rfl, nofun, rfl⟩
  have henrolled : c.enrolled = _ := hissues.next
  have hannounced : c.announced = c.enrolled.next .announce := rfl
  have hhandled : c.handled = c.announced.next .look := rfl
  have hhandles : c.Handles issuedTwice "a" := by
    refine ⟨rfl, hissues, nofun, ?_, by decide, ?_, ?_⟩
    · simp [c, Course.overOneFile, Step.Quiet, Step.KeepsFile]
    · intro steps hsteps
      simp only [c, Course.steps, Course.overOneFile, List.singleton_append, List.nil_append,
        List.tails, List.mem_cons, List.not_mem_nil, or_false] at hsteps
      rcases hsteps with rfl | rfl | rfl | rfl <;>
        simp only [after, c, Course.overOneFile, hissues.next] <;> decide +kernel
    · rw [hhandled, hannounced, henrolled]
      decide +kernel
  have hlate : c.announced.late issuedTwice.states = [] := by
    rw [hannounced, henrolled]
    rfl
  have hgoes : c.GoesOn issuedTwice "a" later :=
    ⟨hhandles, by decide, by simp [later, Step.Quiet, Step.KeepsFile], by rw [hlate]; decide⟩
  have hagreement := agreement hgoes
  -- Nothing is pending when the enrollment is announced.
  have houtrun : c.enroute.listening.outrun (Registration.announcement issuedTwice) = [] := by
    have henroute : c.enroute = c.enrolled := rfl
    rw [henroute, henrolled]
    rfl
  rw [hlate, houtrun] at hagreement
  rw [hlate]
  exact ⟨hagreement.1, hagreement.2 nofun nofun⟩

/-! ## Another Update -/

theorem fetch_ofConfig (c : Config) :
    fetchConfigFile (.ofConfig c) "a" = .ok ⟨c.enrollment.states⟩ := by
  have htext := FileTree.readText_of_write (FileTree.write_ofConfig c c)
  have hparse : Config.parse (Text.Document.ofString c.prettyText) = .ok c :=
    read_pretty (restores_config c)
  simp only [fetchConfigFile, htext, hparse]

/-- A tick of the refresh up to the reading. -/
theorem next_read_of_fetch (h : w.Reads path) (hnone : w.reading = none) {update : LocatorUpdate}
    (hfetch : fetchConfigFile w.files path = .ok update) :
    w.next (.read false) =
      { w with
        refresh := { w.refresh with handle := { w.refresh.handle with phase := .running } }
        reading := some ⟨.ok (.ok update), .file path⟩ } := by
  have hidle : w.refresh.handle.phase = .idle := by
    rw [h.phase, hnone]
    rfl
  have hread : w.next (.read false) = _ := read_idle hidle
  rw [hread]
  simp only [Refresh.Fetching.ofSite, h.source, UpdateSource.fetch, site, hfetch]

/-- A whole tick of the refresh publishes what it reads, unless it has published this last. -/
theorem after_refresh (h : w.Reads path) (hnone : w.reading = none) {update : LocatorUpdate}
    (hfetch : fetchConfigFile w.files path = .ok update) :
    w.after [.conclude none, .read false] =
      { w with
        refresh := ⟨w.refresh.handle, ⟨.file path, some update⟩⟩
        listening := w.listening.hear
          ((if w.refresh.refresh.last = some update then [] else [update]).map
            Refresh.Trial.announcement) } := by
  have hidle : w.refresh.handle.phase = .idle := by
    rw [h.phase, hnone]
    rfl
  have hread := next_read_of_fetch h hnone hfetch
  obtain ⟨hnews, hnext⟩ :=
    conclude_found (w := w.next (.read false)) (congrArg Relay.reading hread) none rfl
  rw [after, after, after, hnext, hnews, hread]
  simp only [TaskHandle.release, Completion.phase, ← hidle, ← hnone]

/-- The relay after a tick of the refresh that has announced the locator of the file. -/
def refreshed : Relay :=
  { overOneFile with
    refresh := ⟨.new, ⟨.file "a", some ⟨["a"]⟩⟩⟩
    listening := overOneFile.listening.hear [Refresh.Trial.announcement ⟨["a"]⟩] }

/-- The relay in the middle of this tick. -/
def underway : Relay :=
  { overOneFile with
    refresh := ⟨{ TaskHandle.new with phase := .running }, ⟨.file "a", none⟩⟩
    reading := some ⟨.ok (.ok ⟨["a"]⟩), .file "a"⟩ }

theorem reads_overOneFile : overOneFile.Reads "a" where
  source := rfl
  gives := nofun
  phase := rfl

theorem issues_refreshed : refreshed.Issues none granting issuedTwice "a" :=
  issues_overOneFile rfl rfl rfl ⟨rfl, nofun, rfl⟩

theorem issues_underway : underway.Issues none granting issuedTwice "a" := by
  refine issues_overOneFile rfl rfl rfl ⟨rfl, ?_, rfl⟩
  rintro x ⟨⟩
  rfl

/-- If the listener changes its reconciler when it takes what a tick of the refresh publishes, then
it does not agree with the refresh. -/
theorem Course.GoesOn.not_agrees {c : Course}
    (h : c.GoesOn e path [.look, .look, .conclude none, .read false])
    (hnone : c.handled.reading = none)
    (hlast : c.handled.refresh.refresh.last ≠ some ⟨e.states⟩)
    (hchanges : (c.handled.listening.hear
        [Refresh.Trial.announcement ⟨e.states⟩]).look.look.reconciler ≠
      c.handled.listening.reconciler) :
    ¬ Agrees c.handled [.look, .look, .conclude none, .read false] := by
  intro hagrees
  obtain ⟨hreads, hfetch⟩ := h.rereads
  have hlistening : (c.handled.after [.look, .look, .conclude none, .read false]).listening =
      (c.handled.after [.conclude none, .read false]).listening.look.look := rfl
  have hremembers := hagrees.remembers
  rw [hlistening, after_refresh hreads hnone hfetch, if_neg hlast] at hremembers
  exact hchanges hremembers

theorem next_overOneFile : overOneFile.next (.read false) = underway :=
  next_read_of_fetch reads_overOneFile rfl (fetch_ofConfig unenrolled)

theorem next_underway : underway.next (.conclude none) = refreshed :=
  rfl

/-- A course in which an update with another locator is pending when the registration is
announced. -/
def Course.pending : Course :=
  .overOneFile [.conclude none, .read false] [.look, .look, .look]

/-- A course in which a tick of the refresh is under way then, which has read another locator. -/
def Course.lagging : Course :=
  .overOneFile [.read false] [.look, .conclude none, .look]

namespace Course

theorem enroute_pending : pending.enroute = refreshed.written none granting issuedTwice :=
  (congrArg (fun w => (w.next (.conclude none)).next (.enroll none false granting))
    next_overOneFile).trans issues_refreshed.next

theorem enroute_lagging : lagging.enroute = underway.written none granting issuedTwice :=
  (congrArg (Relay.next · (.enroll none false granting)) next_overOneFile).trans
    issues_underway.next

theorem announced_pending :
    pending.announced = (refreshed.written none granting issuedTwice).announce :=
  congrArg Relay.announce enroute_pending

theorem announced_lagging :
    lagging.announced = (underway.written none granting issuedTwice).announce :=
  congrArg Relay.announce enroute_lagging

theorem handles_pending : pending.Handles issuedTwice "a" where
  joins := rfl
  issues := by
    have hearlier : pending.start.after pending.earlier = refreshed :=
      congrArg (Relay.next · (.conclude none)) next_overOneFile
    rw [hearlier]
    exact issues_refreshed
  waits := nofun
  quiet := by simp [pending, overOneFile, Step.Quiet, Step.KeepsFile]
  spares := by decide
  fits := by
    intro steps hsteps
    simp only [pending, Course.steps, overOneFile, List.cons_append, List.nil_append, List.tails,
      List.mem_cons, List.not_mem_nil, or_false] at hsteps
    rcases hsteps with rfl | rfl | rfl | rfl | rfl | rfl | rfl | rfl <;>
      simp only [after, pending, overOneFile, next_overOneFile, next_underway,
        issues_refreshed.next] <;>
      decide +kernel
  handled := by
    rw [handled, announced_pending]
    decide +kernel

theorem handles_lagging : lagging.Handles issuedTwice "a" where
  joins := rfl
  issues := by
    have hearlier : lagging.start.after lagging.earlier = underway := next_overOneFile
    rw [hearlier]
    exact issues_underway
  waits := nofun
  quiet := by simp [lagging, overOneFile, Step.Quiet, Step.KeepsFile]
  spares := by decide
  fits := by
    intro steps hsteps
    simp only [lagging, Course.steps, overOneFile, List.cons_append, List.nil_append, List.tails,
      List.mem_cons, List.not_mem_nil, or_false] at hsteps
    rcases hsteps with rfl | rfl | rfl | rfl | rfl | rfl | rfl <;>
      simp only [after, lagging, overOneFile, next_overOneFile, issues_underway.next] <;>
      decide +kernel
  handled := by
    rw [handled, announced_lagging]
    decide +kernel

end Course

/-- The issued locators come after others if an update with these is pending when the registration
is announced; or if none is, but a tick of the refresh is under way that has read them. -/
theorem other_update_comes_after :
    (¬ ∀ (c : Course) (e : Enrollment) (path : String) (later : List Step),
      c.GoesOn e path later → c.announced.late e.states = [] → Agrees c.handled later) ∧
    ¬ ∀ (c : Course) (e : Enrollment) (path : String) (later : List Step),
      c.GoesOn e path later → c.enroute.listening.outrun (Registration.announcement e) = [] →
        Agrees c.handled later := by
  have hspared : ∀ step ∈ [Step.look, .look, .conclude none, .read false],
      step.Spares overOneFile.listening := by decide
  have hquieted (files : FileTree) : ∀ step ∈ [Step.look, .look, .conclude none, .read false],
      step.Quiet files "a" := by simp [Step.Quiet, Step.KeepsFile]
  constructor
  · -- The listener takes the registration first, then the first locator, then the others again.
    intro hall
    have hlate : Course.pending.announced.late issuedTwice.states = [] := by
      rw [Course.announced_pending]
      rfl
    have hgoes : Course.pending.GoesOn issuedTwice "a"
        [.look, .look, .conclude none, .read false] :=
      ⟨Course.handles_pending, hspared, hquieted _, by rw [hlate]; decide⟩
    refine hgoes.not_agrees ?_ ?_ ?_ (hall _ _ _ _ hgoes hlate) <;>
      rw [Course.handled, Course.announced_pending]
    · rfl
    · decide +kernel
    · decide +kernel
  · -- It takes the registration, then the first locator from the tick under way, then the others.
    intro hall
    have houtrun : Course.lagging.enroute.listening.outrun
        (Registration.announcement issuedTwice) = [] := by
      rw [Course.enroute_lagging]
      rfl
    have hgoes : Course.lagging.GoesOn issuedTwice "a"
        [.look, .look, .conclude none, .read false] :=
      ⟨Course.handles_lagging, hspared, hquieted _, by
        rw [Course.announced_lagging]
        decide +kernel⟩
    refine hgoes.not_agrees ?_ ?_ ?_ (hall _ _ _ _ hgoes houtrun) <;>
      rw [Course.handled, Course.announced_lagging]
    · rfl
    · decide +kernel
    · decide +kernel

end Relay

end EdgeSync
