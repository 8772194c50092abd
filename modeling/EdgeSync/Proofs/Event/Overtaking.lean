import EdgeSync.Proofs.Event.Listening
import EdgeSync.Proofs.Event.Waiting
import Mathlib.Data.List.Infix

/-!
# Overtaking

A listener that never falls behind takes every event once, and those of each topic in the
order in which they were published. Its credentials come out as if it had taken all events in
that order. Its locators come out as in the order of taking: if a registration is published
while an update is pending, the registration is taken first, and the update has the last word.

## Main definitions

- `Listening.queue`: the pending events in the order in which they are taken
- `Listening.Follows`: what every turn keeps
- `Listening.Settled`: what a listener comes to that has nothing left to take

## Main results

- `Listening.Follows.meet`, `Listening.Follows.look`: each turn keeps it
- `Listening.settled_of_drained`: after any turns
-/

namespace EdgeSync

open Broker

theorem insertIdx_append_length (front back : List Event) (e : Event) :
    (front ++ back).insertIdx front.length e = front ++ e :: back := by
  induction front with
  | nil => rfl
  | cons f front ih => exact congrArg (f :: ·) ih

/-! ## Credentials -/

namespace Reconciler

/-- What an event does to the credentials depends on the credentials alone. -/
theorem credentials_heed_congr {r s : Reconciler} (h : r.credentials = s.credentials) (e : Event) :
    (r.heed e).credentials = (s.heed e).credentials := by
  unfold heed
  cases e.payload with
  | registered enrollment => simp only [applyRegistration, h]
  | updated update => dsimp only; split <;> exact h
  | stop request => exact h

theorem credentials_heed_of_ne {e : Event} (hright : e.topic = e.payload.topic)
    (hother : e.topic ≠ Topic.registration) (r : Reconciler) :
    (r.heed e).credentials = r.credentials := by
  unfold heed
  cases hpayload : e.payload with
  | registered enrollment =>
    rw [hpayload] at hright
    exact absurd hright hother
  | updated update => dsimp only; split <;> rfl
  | stop request => rfl

theorem credentials_foldl_heed {r s : Reconciler} (h : r.credentials = s.credentials)
    {events : List Event} (hright : ∀ e ∈ events, e.topic = e.payload.topic) :
    (events.foldl heed r).credentials =
      ((events.filter fun e => e.topic == Topic.registration).foldl heed s).credentials := by
  induction events generalizing r s with
  | nil => exact h
  | cons e events ih =>
    -- A registration changes both credentials alike; any other event changes neither.
    have htail : ∀ e ∈ events, e.topic = e.payload.topic :=
      fun e' he' => hright e' (List.mem_cons_of_mem e he')
    by_cases htopic : e.topic = Topic.registration
    · rw [List.filter_cons_of_pos (by simpa using htopic)]
      exact ih (credentials_heed_congr h e) htail
    · rw [List.filter_cons_of_neg (by simpa using htopic)]
      have hsame := credentials_heed_of_ne (hright e List.mem_cons_self) htopic r
      exact ih (hsame.trans h) htail

end Reconciler

namespace Listening

/-! ## The Queue -/

/-- The events that wait for the listener in the order in which it takes them. -/
def queue (waiting : Bool → List Event) (atUpdates : Bool) : List Event :=
  if atUpdates then (waiting true).take 1 ++ waiting false ++ (waiting true).drop 1
  else waiting false ++ waiting true

variable {w w' : Bool → List Event}

/-- A look that finds nothing does not change the order. -/
theorem queue_none {atUpdates : Bool} (hnone : w atUpdates = []) :
    queue w (!atUpdates) = queue w atUpdates := by
  cases atUpdates with
  | false => simpa [queue, hnone] using List.take_append_drop 1 (w true)
  | true => simp [queue, hnone]

/-- A look takes the first event of the queue. -/
theorem queue_first {atUpdates : Bool} {e : Event} {rest : List Event}
    (hfirst : w atUpdates = e :: rest) (hrest : w' atUpdates = rest)
    (hother : w' (!atUpdates) = w (!atUpdates)) : queue w atUpdates = e :: queue w' false := by
  cases atUpdates with
  | false =>
    rw [Bool.not_false] at hother
    simp [queue, hfirst, hrest, hother]
  | true =>
    rw [Bool.not_true] at hother
    simp [queue, hfirst, hrest, hother]

/-- A registration comes before the updates, except one that is looked at next. -/
theorem queue_registration (atUpdates : Bool) {e : Event} (hnew : w' false = w false ++ [e])
    (hother : w' true = w true) :
    ∃ front back, queue w atUpdates = front ++ back ∧ queue w' atUpdates = front ++ e :: back ∧
      back.length = if atUpdates then (w true).length - 1 else (w true).length := by
  cases atUpdates with
  | false =>
    refine ⟨w false, w true, rfl, ?_, rfl⟩
    simp [queue, hnew, hother]
  | true =>
    refine ⟨(w true).take 1 ++ w false, (w true).drop 1, rfl, ?_, List.length_drop⟩
    simp [queue, hnew, hother]

/-- An update comes last, unless it is looked at next. -/
theorem queue_update (atUpdates : Bool) {e : Event} (hnew : w' true = w true ++ [e])
    (hother : w' false = w false) :
    ∃ front back, queue w atUpdates = front ++ back ∧ queue w' atUpdates = front ++ e :: back ∧
      back.length = if atUpdates && (w true).length == 0 then (w false).length else 0 := by
  cases atUpdates with
  | false =>
    refine ⟨w false ++ w true, [], (List.append_nil _).symm, ?_, rfl⟩
    simp [queue, hnew, hother]
  | true =>
    cases hw : w true with
    | nil =>
      refine ⟨[], w false, ?_, ?_, rfl⟩
      · simp [queue, hw]
      · simp [queue, hnew, hother, hw]
    | cons u updates =>
      refine ⟨u :: w false ++ updates, [], ?_, ?_, rfl⟩
      · simp [queue, hw]
      · simp [queue, hnew, hother, hw]

/-! ## What Every Turn Keeps -/

/-- A turn in which nobody else receives from the subscriptions of the listener or drops them. -/
def Turn.Spares (l : Listening) : Turn → Prop
  | .other operation => ∀ which, operation.Spares (l.number which)
  | .look => True

instance (l : Listening) : (t : Turn) → Decidable (t.Spares l)
  | .other operation => inferInstanceAs (Decidable (∀ which, operation.Spares (l.number which)))
  | .look => inferInstanceAs (Decidable True)

/-- With the history of the broker, what the listener has taken and what waits for it are the
events that it has heard of. -/
structure Follows (initial : Reconciler) (deeds : List Deed) (l : Listening) : Prop where
  tells : Tells deeds l.broker
  lives : ∀ which, l.number which ∈ live (topic which) deeds
  applied : l.reconciler = l.taken.foldl Reconciler.heed initial
  right : ∀ e ∈ l.heard, e.topic = e.payload.topic
  perm : l.order.Perm l.heard
  heard : ∀ which, l.heard.filter (fun e => e.topic == topic which) =
    l.taken.filter (fun e => e.topic == topic which) ++ waiting (l.number which) deeds
  ordered : l.order =
    l.taken ++ queue (fun which => waiting (l.number which) deeds) l.atUpdates

variable {initial : Reconciler} {deeds : List Deed} {l : Listening}

theorem start_follows {b : Broker} (h : Tells deeds b) (initial : Reconciler) :
    Follows initial (.subscribed Topic.update (b.issued + 1) ::
      .subscribed Topic.registration b.issued :: deeds) (start b initial) := by
  have hfirst := h.subscribe Topic.registration
  have hsecond := hfirst.subscribe Topic.update
  have hnone : ∀ which, waiting ((start b initial).number which) deeds = [] := by
    intro which
    cases which with
    | false => exact h.waiting_unborn (Nat.le_refl _)
    | true => exact h.waiting_unborn (Nat.le_succ _)
  refine ⟨hsecond, ?_, rfl, nofun, List.Perm.refl _, fun which => (hnone which).symm, ?_⟩
  · intro which
    cases which with
    | false => exact List.mem_append_right _ (List.mem_singleton_self _)
    | true => exact List.mem_append_right _ (List.mem_singleton_self _)
  · show [] = queue (fun which => waiting ((start b initial).number which) deeds) false
    simp only [queue, hnone]
    rfl

theorem topic_ne {which which' : Bool} (hne : which ≠ which') : topic which ≠ topic which' := by
  decide +revert

theorem Follows.number_ne (h : Follows initial deeds l) {which which' : Bool}
    (hne : which ≠ which') : l.number which ≠ l.number which' := by
  intro heq
  obtain ⟨s, hs, hat, hnumber⟩ := h.tells.mem_live.mp (h.lives which)
  obtain ⟨t, ht, hat', hnumber'⟩ := h.tells.mem_live.mp (h.lives which')
  obtain rfl := h.tells.eq_of_number hs ht (hnumber.trans (heq.trans hnumber'.symm))
  exact topic_ne hne (hat.symm.trans hat')

/-! ## Others -/

/-- What somebody else does brings the listener nothing, or one event. -/
theorem news_cases (b : Broker) (operation : Operation) :
    (news? (b.perform operation).1 = none ∧ ∀ which, operation.bring (topic which) = []) ∨
      ∃ e which, operation = .publish e ∧ news? (b.perform operation).1 = some e ∧
        e.topic = e.payload.topic ∧ e.topic = topic which := by
  cases operation with
  | publish e =>
    by_cases hright : e.topic = e.payload.topic
    · rw [deed_publish_right hright]
      by_cases htopic : e.topic ∈ Reconciler.topics
      · right
        have hwhich : e.topic = topic false ∨ e.topic = topic true := by
          simpa [Reconciler.topics, topic] using htopic
        rcases hwhich with heq | heq
        · exact ⟨e, false, rfl, if_pos htopic, hright, heq⟩
        · exact ⟨e, true, rfl, if_pos htopic, hright, heq⟩
      · left
        refine ⟨if_neg htopic, fun which => if_neg ?_⟩
        rintro ⟨-, heq⟩
        apply htopic
        rw [heq]
        cases which <;> simp [topic, Reconciler.topics]
    · left
      rw [deed_publish_wrong hright]
      exact ⟨rfl, fun which => if_neg fun hboth => hright hboth.1⟩
  | subscribe topic => exact .inl ⟨rfl, fun _ => rfl⟩
  | receive number => exact .inl ⟨rfl, fun _ => rfl⟩
  | drop number => exact .inl ⟨rfl, fun _ => rfl⟩
  | close => exact .inl ⟨rfl, fun _ => rfl⟩

theorem bring_publish {e : Event} (hright : e.topic = e.payload.topic) (topic : String) :
    Operation.bring topic (.publish e) = [e].filter fun e => e.topic == topic := by
  by_cases heq : e.topic = topic
  · rw [Operation.bring, if_pos ⟨hright, heq⟩]
    simp [heq]
  · rw [Operation.bring, if_neg fun hboth => heq hboth.2]
    simp [heq]

/-- The place in the queue of an event that is published. -/
theorem Follows.overtaken (h : Follows initial deeds l) {e : Event} {which : Bool}
    (htopic : e.topic = topic which)
    (hnew : ∀ which, w which = waiting (l.number which) deeds ++
      [e].filter fun e => e.topic == topic which) :
    ∃ front back, queue (fun which => waiting (l.number which) deeds) l.atUpdates = front ++ back ∧
      queue w l.atUpdates = front ++ e :: back ∧ back.length = l.overtaken e := by
  -- The event joins the queue of its own topic only.
  have hself := hnew which
  have hother := hnew (!which)
  have hne : topic which ≠ topic (!which) := topic_ne (by simp)
  rw [List.filter_cons_of_pos (by simpa using htopic)] at hself
  rw [List.filter_cons_of_neg (by rw [htopic]; simpa using hne), List.filter_nil,
    List.append_nil] at hother
  have hpending := h.tells.pending_eq (h.lives false)
  have hpending' := h.tells.pending_eq (h.lives true)
  simp only [number] at hpending hpending'
  simp only [Listening.overtaken, hpending, hpending']
  cases which with
  | false =>
    have hregistration : e.topic = Topic.registration := htopic
    rw [if_pos hregistration]
    exact queue_registration l.atUpdates hself hother
  | true =>
    have hupdate : e.topic ≠ Topic.registration := by
      rw [htopic]
      exact hne
    rw [if_neg hupdate]
    exact queue_update l.atUpdates hself hother

theorem Follows.meet (h : Follows initial deeds l) {operation : Operation}
    (hspares : ∀ which, operation.Spares (l.number which)) :
    Follows initial ((l.broker.perform operation).1 :: deeds) (l.meet operation) := by
  have htells := h.tells.perform operation
  have hlives := fun which => live_perform (b := l.broker) (hspares which) (h.lives which)
  have hwaiting := fun which => h.tells.waiting_perform (hspares which) (h.lives which)
  rcases news_cases l.broker operation with ⟨hnews, hbring⟩ | ⟨e, which, rfl, hnews, hright, htopic⟩
  · -- No news: the queues are as they were.
    simp only [hbring, List.append_nil] at hwaiting
    have hmeet : l.meet operation = { l with broker := (l.broker.perform operation).2 } := by
      simp only [Listening.meet, hnews]
    rw [hmeet]
    refine ⟨htells, hlives, h.applied, h.right, h.perm, ?_, ?_⟩
    · intro which
      exact (h.heard which).trans (congrArg _ (hwaiting which).symm)
    · refine h.ordered.trans (congrArg (l.taken ++ queue · l.atUpdates) ?_)
      funext which
      exact (hwaiting which).symm
  · simp only [bring_publish hright] at hwaiting
    have hmeet : l.meet (.publish e) =
        { l with
          broker := (l.broker.perform (.publish e)).2
          heard := l.heard ++ [e]
          order := l.order.insertIdx (l.order.length - l.overtaken e) e } := by
      simp only [Listening.meet, hnews]
    obtain ⟨front, back, hqueue, hqueue', hback⟩ := h.overtaken htopic hwaiting
    rw [hmeet]
    refine ⟨htells, hlives, h.applied, ?_, ?_, ?_, ?_⟩
    · intro f hf
      rcases List.mem_append.mp hf with hold | hnew
      · exact h.right f hold
      · obtain rfl := List.mem_singleton.mp hnew
        exact hright
    · have hinsert := List.perm_insertIdx e l.order
        (Nat.sub_le l.order.length (l.overtaken e))
      exact (hinsert.trans (h.perm.cons e)).trans (List.perm_append_singleton e l.heard).symm
    · intro which
      have hheard := h.heard which
      show (l.heard ++ [e]).filter _ = _ ++ waiting (l.number which) _
      rw [hwaiting, List.filter_append, hheard, List.append_assoc]
    · -- The event stands where the queue has it, before those that it overtakes.
      have hplace : l.order.length - l.overtaken e = (l.taken ++ front).length := by
        rw [h.ordered, hqueue, ← hback]
        simp only [List.length_append]
        omega
      have hbefore : l.order = (l.taken ++ front) ++ back := by
        rw [h.ordered, hqueue, List.append_assoc]
      calc l.order.insertIdx (l.order.length - l.overtaken e) e
        _ = (l.taken ++ front) ++ e :: back := by
          rw [hplace, hbefore, insertIdx_append_length]
        _ = l.taken ++ queue _ l.atUpdates := by
          rw [List.append_assoc, ← hqueue']
          rfl

/-! ## Looks -/

/-- No more events wait for the listener than the buffer holds. -/
def Fits (l : Listening) : Prop :=
  ∀ which, l.broker.pending (l.number which) ≤ l.broker.buffer

instance (l : Listening) : Decidable l.Fits :=
  inferInstanceAs (Decidable (∀ _, _))

theorem filter_taken_self {topic : String} {heard taken rest : List Event} {e : Event}
    (h : heard.filter (fun e => e.topic == topic) =
      taken.filter (fun e => e.topic == topic) ++ e :: rest) :
    e.topic = topic ∧ heard.filter (fun e => e.topic == topic) =
      (taken ++ [e]).filter (fun e => e.topic == topic) ++ rest := by
  have hmem : e ∈ heard.filter (fun e => e.topic == topic) := by
    rw [h]
    exact List.mem_append_right _ List.mem_cons_self
  have htopic : e.topic = topic := eq_of_beq (List.mem_filter.mp hmem).2
  refine ⟨htopic, ?_⟩
  rw [h, filter_snoc_self htopic, List.append_cons]

/-- A look that finds nothing only goes on with the round, unless it ends the listener. -/
theorem look_none (hruns : l.isRunning = true) (hruns' : l.look.isRunning = true)
    (hreceive : l.broker.receive l.next =
      (if l.broker.isOpen then .nothing else .closed, 0, l.broker)) :
    l.look = { l with atUpdates := !l.atUpdates } := by
  cases hopen : l.broker.isOpen with
  | true =>
    rw [hopen] at hreceive
    exact look_nothing hruns hreceive
  | false =>
    rw [hopen] at hreceive
    rw [look_closed hruns hreceive] at hruns'
    cases hruns'

theorem Follows.look (h : Follows initial deeds l) (hfits : l.Fits)
    (hruns' : l.look.isRunning = true) : ∃ deeds, Follows initial deeds l.look := by
  by_cases hruns : l.isRunning = true
  · have hlive := h.lives l.atUpdates
    cases hwaiting : waiting l.next deeds with
    | nil =>
      rw [look_none hruns hruns' (h.tells.receive_nothing hlive hwaiting)]
      refine ⟨deeds, h.tells, h.lives, h.applied, h.right, h.perm, h.heard, ?_⟩
      refine h.ordered.trans (congrArg (l.taken ++ ·) ?_)
      exact (queue_none (w := fun which => waiting (l.number which) deeds) hwaiting).symm
    | cons e rest =>
      obtain ⟨b, hreceive, htells⟩ :=
        h.tells.receive_first hlive hwaiting (hfits l.atUpdates)
      have hself : waiting l.next (.received l.next (.event e) 0 :: deeds) = rest := by
        rw [waiting_received_self, hwaiting, List.tail_cons]
      -- What waits for the other subscription stays there.
      have hother {which : Bool} (hne : which ≠ l.atUpdates) :
          waiting (l.number which) (.received l.next (.event e) 0 :: deeds) =
            waiting (l.number which) deeds :=
        waiting_received_other (h.number_ne hne.symm) (.event e) 0
      have hheard := h.heard l.atUpdates
      obtain ⟨htopic, hheard⟩ := filter_taken_self (hheard.trans (congrArg _ hwaiting))
      rw [look_event hruns hreceive]
      refine ⟨_, htells, h.lives, ?_, h.right, h.perm, ?_, ?_⟩
      · rw [List.foldl_append, ← h.applied]
        rfl
      · intro which
        by_cases heq : which = l.atUpdates
        · subst heq
          exact hheard.trans (congrArg _ hself.symm)
        · have hne : e.topic ≠ topic which := by
            rw [htopic]
            exact topic_ne (Ne.symm heq)
          rw [filter_snoc_other hne]
          exact (h.heard which).trans (congrArg _ (hother heq).symm)
      · have hqueue : queue (fun which => waiting (l.number which) deeds) l.atUpdates =
            e :: queue (fun which => waiting (l.number which)
              (.received l.next (.event e) 0 :: deeds)) false :=
          queue_first hwaiting hself (hother (by simp))
        rw [h.ordered, hqueue, List.append_assoc]
        rfl
  · -- A listener that has ended does not look.
    have hsame : l.look = l := if_neg hruns
    rw [hsame]
    exact ⟨deeds, h⟩

/-! ## All Turns -/

theorem number_turn (l : Listening) (t : Turn) (which : Bool) :
    (l.turn t).number which = l.number which := by
  cases t with
  | other operation =>
    simp only [turn, Listening.meet]
    split <;> rfl
  | look =>
    simp only [turn, Listening.look]
    split
    · split <;> rfl
    · rfl

theorem number_after (l : Listening) (turns : List Turn) (which : Bool) :
    (l.after turns).number which = l.number which := by
  induction turns with
  | nil => rfl
  | cons t earlier ih => exact (number_turn _ t which).trans ih

/-- A listener that has ended stays so. -/
theorem isRunning_of_turn {t : Turn} (hruns : (l.turn t).isRunning = true) :
    l.isRunning = true := by
  cases t with
  | other operation =>
    simp only [turn, Listening.meet] at hruns
    split at hruns <;> exact hruns
  | look =>
    by_contra hended
    rw [turn, Listening.look, if_neg hended] at hruns
    exact hended hruns

theorem Follows.after (h : Follows initial deeds l) {turns : List Turn}
    (hspares : ∀ t ∈ turns, t.Spares l) (hfits : ∀ earlier ∈ turns.tails, (l.after earlier).Fits)
    (hruns : (l.after turns).isRunning = true) : ∃ deeds, Follows initial deeds (l.after turns) := by
  induction turns with
  | nil => exact ⟨deeds, h⟩
  | cons t earlier ih =>
    rw [List.tails_cons, List.forall_mem_cons] at hfits
    rw [List.forall_mem_cons] at hspares
    obtain ⟨deeds, hearlier⟩ := ih hspares.2 hfits.2 (isRunning_of_turn hruns)
    -- The numbers of the subscriptions are the same throughout.
    cases t with
    | other operation =>
      refine ⟨_, hearlier.meet fun which => ?_⟩
      rw [number_after]
      exact hspares.1 which
    | look =>
      have hbefore : (l.after earlier).Fits :=
        hfits.2 earlier ((List.mem_tails earlier earlier).mpr (List.suffix_refl earlier))
      exact hearlier.look hbefore hruns

/-! ## Order -/

/-- Turns in which no event overtakes another. -/
def Orderly (l : Listening) : List Turn → Prop
  | [] => True
  | .look :: earlier => l.Orderly earlier
  | .other operation :: earlier =>
    (∀ e ∈ news? ((l.after earlier).broker.perform operation).1, (l.after earlier).overtaken e = 0) ∧
      l.Orderly earlier

instance decidableOrderly (l : Listening) : (turns : List Turn) → Decidable (l.Orderly turns)
  | [] => inferInstanceAs (Decidable True)
  | .look :: earlier => decidableOrderly l earlier
  | .other _ :: earlier =>
    have := decidableOrderly l earlier
    inferInstanceAs (Decidable (_ ∧ _))

theorem look_order (l : Listening) : l.look.order = l.order ∧ l.look.heard = l.heard := by
  rw [Listening.look]
  split
  · split <;> exact ⟨rfl, rfl⟩
  · exact ⟨rfl, rfl⟩

theorem Orderly.order_eq {turns : List Turn} (horderly : l.Orderly turns)
    (heq : l.order = l.heard) : (l.after turns).order = (l.after turns).heard := by
  induction turns with
  | nil => exact heq
  | cons t earlier ih =>
    cases t with
    | look =>
      obtain ⟨horder, hheard⟩ := (l.after earlier).look_order
      exact horder.trans ((ih horderly).trans hheard.symm)
    | other operation =>
      -- An event that overtakes none is inserted at the end.
      have hearlier := ih horderly.2
      simp only [Listening.after, turn, Listening.meet]
      cases hnews : news? ((l.after earlier).broker.perform operation).1 with
      | none => exact hearlier
      | some e =>
        have hlast := horderly.1 e hnews
        show (l.after earlier).order.insertIdx _ e = (l.after earlier).heard ++ [e]
        rw [hlast, Nat.sub_zero, List.insertIdx_length_self, hearlier]

/-! ## Listeners with Nothing Left to Take -/

/-- What a listener has come to that has taken all events. -/
structure Settled (initial : Reconciler) (l : Listening) : Prop where
  /-- The reconciler has followed the events in their order of taking. -/
  applied : l.reconciler = l.order.foldl Reconciler.heed initial
  /-- These are the events that were published, every one of them once. -/
  perm : l.order.Perm l.heard
  /-- The events of each topic are in the order in which they were published. -/
  each : ∀ which, l.order.filter (fun e => e.topic == topic which) =
    l.heard.filter fun e => e.topic == topic which
  /-- The credentials are as if all events were. -/
  credentials : l.reconciler.credentials = (l.heard.foldl Reconciler.heed initial).credentials

/-- Nothing waits for the listener. -/
def Drained (l : Listening) : Prop :=
  ∀ which, l.broker.pending (l.number which) = 0

instance (l : Listening) : Decidable l.Drained :=
  inferInstanceAs (Decidable (∀ _, _))

theorem Follows.settled (h : Follows initial deeds l) (hdrained : l.Drained) :
    Settled initial l := by
  have hnone : ∀ which, waiting (l.number which) deeds = [] := by
    intro which
    rw [← List.length_eq_zero_iff, ← h.tells.pending_eq (h.lives which)]
    exact hdrained which
  -- With empty queues the order of taking has been gone through to its end.
  have htaken : l.order = l.taken := by
    rw [h.ordered]
    simp [queue, hnone]
  have heach : ∀ which, l.order.filter (fun e => e.topic == topic which) =
      l.heard.filter fun e => e.topic == topic which := by
    intro which
    rw [h.heard which, hnone, List.append_nil, htaken]
  have happlied : l.reconciler = l.order.foldl Reconciler.heed initial := by
    rw [htaken]
    exact h.applied
  refine ⟨happlied, h.perm, heach, ?_⟩
  -- Only the registrations matter, and they are in their order.
  have hright : ∀ e ∈ l.order, e.topic = e.payload.topic := by
    intro e he
    exact h.right e (h.perm.mem_iff.mp he)
  rw [happlied, Reconciler.credentials_foldl_heed rfl hright,
    Reconciler.credentials_foldl_heed rfl h.right]
  exact congrArg (fun events => (events.foldl Reconciler.heed initial).credentials) (heach false)

/-- A listener that begins at a broker with some history. -/
def join (capacity : Nat) (operations : List Operation) (initial : Reconciler) : Listening :=
  start ((Broker.new capacity).after operations).2 initial

/-- Whatever is published between its looks, a listener that never falls behind the buffer
settles; if no event overtakes another, it is as if it had followed them as published. -/
theorem settled_of_drained (capacity : Nat) (operations : List Operation) (initial : Reconciler)
    (turns : List Turn) (hspares : ∀ t ∈ turns, t.Spares (join capacity operations initial))
    (hfits : ∀ earlier ∈ turns.tails, ((join capacity operations initial).after earlier).Fits)
    (hruns : ((join capacity operations initial).after turns).isRunning = true)
    (hdrained : ((join capacity operations initial).after turns).Drained) :
    Settled initial ((join capacity operations initial).after turns) ∧
      ((join capacity operations initial).Orderly turns →
        ((join capacity operations initial).after turns).reconciler =
          ((join capacity operations initial).after turns).heard.foldl Reconciler.heed initial) := by
  have htells := tells_after (tells_new capacity) operations
  obtain ⟨deeds, hfollows⟩ := (start_follows htells initial).after hspares hfits hruns
  have hsettled := hfollows.settled hdrained
  refine ⟨hsettled, fun horderly => ?_⟩
  have heq := horderly.order_eq rfl
  exact hsettled.applied.trans (congrArg (List.foldl Reconciler.heed initial) heq)

/-- A registration and an update, each taken before the other is published. -/
def oneByOne : List Turn :=
  [.look, .look, .other (.publish (.of "refresh" (.updated ⟨["c"]⟩))), .look,
    .other (.publish (.of "registration" (.registered ⟨⟨"robot", "registry", "secret"⟩, ["b"]⟩)))]

theorem settled_of_drained_oneByOne :
    Settled ⟨.empty, []⟩ ((join 1 [] ⟨.empty, []⟩).after oneByOne) ∧
      ((join 1 [] ⟨.empty, []⟩).after oneByOne).reconciler =
        ((join 1 [] ⟨.empty, []⟩).after oneByOne).heard.foldl Reconciler.heed ⟨.empty, []⟩ := by
  have hsettled := settled_of_drained 1 [] ⟨.empty, []⟩ oneByOne (by decide +kernel)
    (by decide +kernel) (by decide +kernel) (by decide +kernel)
  exact ⟨hsettled.1, hsettled.2 (by decide +kernel)⟩

/-- An update and a registration that is published before the update is taken. -/
def atOnce : List Turn :=
  [.look, .look, .look,
    .other (.publish (.of "registration" (.registered ⟨⟨"robot", "registry", "secret"⟩, ["b"]⟩))),
    .other (.publish (.of "refresh" (.updated ⟨["a"]⟩)))]

/-- The locators are not always as if the events had been followed as published. -/
theorem locators_not_as_published :
    ¬ ∀ (capacity : Nat) (operations : List Operation) (initial : Reconciler) (turns : List Turn),
      (∀ t ∈ turns, t.Spares (join capacity operations initial)) →
      (∀ earlier ∈ turns.tails, ((join capacity operations initial).after earlier).Fits) →
      ((join capacity operations initial).after turns).isRunning = true →
      ((join capacity operations initial).after turns).Drained →
      ((join capacity operations initial).after turns).reconciler.locators =
        (((join capacity operations initial).after turns).heard.foldl Reconciler.heed
          initial).locators := by
  intro hall
  have hsame := hall 1 [] ⟨.empty, []⟩ atOnce (by decide +kernel) (by decide +kernel)
    (by decide +kernel) (by decide +kernel)
  have hlast : ((join 1 [] ⟨.empty, []⟩).after atOnce).reconciler.locators = ["a"] := by
    decide +kernel
  have hpublished : (((join 1 [] ⟨.empty, []⟩).after atOnce).heard.foldl Reconciler.heed
      ⟨.empty, []⟩).locators = ["b"] := by
    decide +kernel
  rw [hlast, hpublished] at hsame
  exact absurd hsame (by decide)

end Listening

end EdgeSync
