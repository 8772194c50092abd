import EdgeSync.Proofs.Event.History
import Mathlib.Algebra.Group.Nat.Defs
import Mathlib.Data.List.Nodup
import Mathlib.Order.Bounds.Basic

/-!
# Delivery of Events

Every subscription sees the events of its topic as if it had an unbounded queue of its own,
except that it loses the oldest ones whenever more are waiting than the buffer holds. The
broker keeps no such queues: a subscription has only its place in the log of its topic, of
which the newest events are kept. What ties the two together is kept by every operation.

## Main definitions

- `Broker.Tells`: what a history tells about the subscriptions and the channels of a broker
- `Broker.Delivers`: what each operation answers, by the history before it

## Main results

- `Broker.Tells.perform`: each operation keeps the history and the broker together
- `Broker.delivers_after`: delivery after all operations
-/

namespace EdgeSync

namespace Broker

/-! ## What Histories Tell -/

/-- A history tells where the subscriptions of a broker are, and what its channels keep. -/
structure Tells (deeds : List Deed) (b : Broker) : Prop where
  isOpen : b.isOpen = stays deeds
  numbers : (b.subscriptions.map (·.number)).Nodup
  issued : ∀ s ∈ b.subscriptions, s.number < b.issued
  subscribed : ∀ topic number, .subscribed topic number ∈ deeds → number < b.issued
  unborn : ∀ number, b.issued ≤ number → offered number deeds = []
  live : ∀ topic, live topic deeds =
    (b.subscriptions.filter fun s => s.topic == topic).map (·.number)
  channels : ∀ topic, (b.channel topic).Records b.buffer (sentTo topic deeds)
  places : ∀ s ∈ b.subscriptions, s.next ≤ (sentTo s.topic deeds).length
  waiting : ∀ s ∈ b.subscriptions,
    waiting s.number deeds = (sentTo s.topic deeds).drop s.next
  passed : ∀ number, passed number deeds ≤ (offered number deeds).length
  yielded : ∀ number,
    (yielded number deeds).Sublist ((offered number deeds).take (Broker.passed number deeds))

theorem tells_new (capacity : Nat) : Tells [] (new capacity) where
  isOpen := rfl
  numbers := List.nodup_nil
  issued := nofun
  subscribed := nofun
  unborn := fun _ _ => rfl
  live := fun _ => rfl
  channels := fun topic => Channel.records_empty _ topic
  places := nofun
  waiting := nofun
  passed := fun _ => Nat.le_refl _
  yielded := fun _ => List.Sublist.refl _

variable {deeds : List Deed} {b : Broker}

theorem Tells.mem_live (h : Tells deeds b) {topic : String} {number : Nat} :
    number ∈ Broker.live topic deeds ↔
      ∃ s ∈ b.subscriptions, s.topic = topic ∧ s.number = number := by
  rw [h.live]
  simp [and_assoc]

/-- A subscription is told by its number. -/
theorem Tells.eq_of_number (h : Tells deeds b) {s t : Subscription} (hs : s ∈ b.subscriptions)
    (ht : t ∈ b.subscriptions) (heq : s.number = t.number) : s = t :=
  List.inj_on_of_nodup_map h.numbers hs ht heq

theorem Tells.count (h : Tells deeds b) (topic : String) :
    b.count topic = (Broker.live topic deeds).length := by
  rw [h.live, List.length_map]
  rfl

/-! ## Operations without Effect -/

/-- A deed that a history tells nothing by, of an operation that changes nothing. -/
theorem Tells.silent (h : Tells deeds b) {deed : Deed}
    (hstays : stays (deed :: deeds) = stays deeds)
    (hdeed : ∀ topic number, deed ≠ .subscribed topic number)
    (hlive : ∀ topic, Broker.live topic (deed :: deeds) = Broker.live topic deeds)
    (hsent : ∀ topic, sentTo topic (deed :: deeds) = sentTo topic deeds)
    (hoffered : ∀ number, offered number (deed :: deeds) = offered number deeds)
    (hyielded : ∀ number, Broker.yielded number (deed :: deeds) = Broker.yielded number deeds)
    (hmissed : ∀ number, missed number (deed :: deeds) = missed number deeds) :
    Tells (deed :: deeds) b := by
  have hpassed : ∀ number, Broker.passed number (deed :: deeds) = Broker.passed number deeds := by
    intro number
    rw [Broker.passed, hyielded, hmissed, Broker.passed]
  refine ⟨h.isOpen.trans hstays.symm, h.numbers, h.issued, ?_, ?_, ?_, ?_, ?_, ?_, ?_, ?_⟩
  · intro topic number hmem
    rcases List.mem_cons.mp hmem with heq | hearlier
    · exact absurd heq.symm (hdeed topic number)
    · exact h.subscribed topic number hearlier
  · intro number hnumber
    rw [hoffered, h.unborn number hnumber]
  · intro topic
    rw [hlive, h.live]
  · intro topic
    rw [hsent]
    exact h.channels topic
  · intro s hs
    rw [hsent]
    exact h.places s hs
  · intro s hs
    rw [hsent, Broker.waiting, hoffered, hpassed]
    exact h.waiting s hs
  · intro number
    rw [hpassed, hoffered]
    exact h.passed number
  · intro number
    rw [hpassed, hoffered, hyielded]
    exact h.yielded number

theorem Tells.refused (h : Tells deeds b) (e : Event) (fault : TopicMismatch) :
    Tells (.published e (.error fault) :: deeds) b :=
  h.silent rfl nofun (fun _ => rfl) (fun _ => rfl) (fun _ => rfl) (fun _ => rfl) fun _ => rfl

/-- An event that nobody waits for is offered to nobody. -/
theorem Tells.unheard (h : Tells deeds b) {e : Event} (hnone : b.count e.topic = 0) :
    Tells (.published e (.ok 0) :: deeds) b := by
  have hlive : Broker.live e.topic deeds = [] := by
    rw [← List.length_eq_zero_iff, ← h.count]
    exact hnone
  refine h.silent rfl nofun (fun _ => rfl) (fun _ => rfl) ?_ (fun _ => rfl) fun _ => rfl
  intro number
  rw [offered, hlive]
  exact if_neg List.not_mem_nil

theorem Tells.unyielding (h : Tells deeds b) (number lost : Nat) {receipt : Receipt}
    (hreceipt : ∀ e, receipt ≠ .event e) : Tells (.received number receipt lost :: deeds) b := by
  cases receipt with
  | event e => exact absurd rfl (hreceipt e)
  | nothing =>
    exact h.silent rfl nofun (fun _ => rfl) (fun _ => rfl) (fun _ => rfl) (fun _ => rfl)
      fun _ => rfl
  | closed =>
    exact h.silent rfl nofun (fun _ => rfl) (fun _ => rfl) (fun _ => rfl) (fun _ => rfl)
      fun _ => rfl

/-! ## Subscriptions Come and Go -/

/-- Nothing waits for a number that has not been issued. -/
theorem Tells.waiting_unborn (h : Tells deeds b) {number : Nat} (hnumber : b.issued ≤ number) :
    Broker.waiting number deeds = [] := by
  rw [Broker.waiting, h.unborn number hnumber]
  exact List.drop_nil

theorem Tells.subscribe (h : Tells deeds b) (topic : String) :
    Tells (.subscribed topic b.issued :: deeds) (b.subscribe topic).2 := by
  have hunborn := h.waiting_unborn (Nat.le_refl _)
  refine ⟨h.isOpen, ?_, ?_, ?_, ?_, ?_, h.channels, ?_, ?_, h.passed, h.yielded⟩
  · -- The new number is above all those that are there.
    have hnew : b.issued ∉ b.subscriptions.map (·.number) := by
      intro hmem
      obtain ⟨s, hs, hnumber⟩ := List.mem_map.mp hmem
      exact absurd hnumber (Nat.ne_of_lt (h.issued s hs))
    simpa [Broker.subscribe, List.nodup_append] using
      ⟨h.numbers, fun s hs heq => hnew (List.mem_map.mpr ⟨s, hs, heq⟩)⟩
  · intro s hs
    rcases List.mem_append.mp hs with hbefore | hnew
    · exact Nat.lt_succ_of_lt (h.issued s hbefore)
    · obtain rfl := List.mem_singleton.mp hnew
      exact Nat.lt_succ_self b.issued
  · intro t number hmem
    rcases List.mem_cons.mp hmem with heq | hearlier
    · obtain ⟨-, rfl⟩ := Deed.subscribed.inj heq
      exact Nat.lt_succ_self b.issued
    · exact Nat.lt_succ_of_lt (h.subscribed t number hearlier)
  · intro number hnumber
    exact h.unborn number (Nat.le_of_succ_le hnumber)
  · intro t
    by_cases ht : topic = t
    · simp [Broker.live, Broker.subscribe, h.live, ht]
    · simp [Broker.live, Broker.subscribe, h.live, ht]
  · intro s hs
    rcases List.mem_append.mp hs with hbefore | hnew
    · exact h.places s hbefore
    · obtain rfl := List.mem_singleton.mp hnew
      exact Nat.le_of_eq (h.channels topic).sent
  · intro s hs
    rcases List.mem_append.mp hs with hbefore | hnew
    · exact h.waiting s hbefore
    · -- What was sent before the subscription is not offered to it.
      obtain rfl := List.mem_singleton.mp hnew
      have hdrop : (sentTo topic deeds).drop (b.channel topic).sent = [] :=
        List.drop_eq_nil_of_le (Nat.le_of_eq (h.channels topic).sent.symm)
      exact hunborn.trans hdrop.symm

theorem Tells.drop (h : Tells deeds b) (number : Nat) :
    Tells (.dropped number :: deeds) (b.drop number).2 := by
  have hmem : ∀ s ∈ (b.drop number).2.subscriptions, s ∈ b.subscriptions := by
    intro s hs
    exact (List.mem_filter.mp hs).1
  refine ⟨h.isOpen, ?_, ?_, ?_, h.unborn, ?_, h.channels, ?_, ?_, h.passed, h.yielded⟩
  · exact h.numbers.sublist (List.filter_sublist.map _)
  · intro s hs
    exact h.issued s (hmem s hs)
  · intro t n hdeed
    rcases List.mem_cons.mp hdeed with heq | hearlier
    · cases heq
    · exact h.subscribed t n hearlier
  · intro t
    simp only [Broker.live, h.live, Broker.drop, List.filter_map, List.filter_filter]
    congr 1
    apply List.filter_congr
    intro s _
    exact Bool.and_comm _ _
  · intro s hs
    exact h.places s (hmem s hs)
  · intro s hs
    exact h.waiting s (hmem s hs)

theorem Tells.close (h : Tells deeds b) : Tells (.closed :: deeds) b.close := by
  refine ⟨rfl, h.numbers, h.issued, ?_, h.unborn, h.live, h.channels, h.places, h.waiting,
    h.passed, h.yielded⟩
  intro t n hdeed
  rcases List.mem_cons.mp hdeed with heq | hearlier
  · cases heq
  · exact h.subscribed t n hearlier

/-! ## Publishing -/

/-- An event that somebody waits for is put into the log of its topic, and offered to all
who live there. -/
theorem Tells.send (h : Tells deeds b) (e : Event) (others : Nat) :
    Tells (.published e (.ok (others + 1)) :: deeds)
      (b.putChannel ((b.channel e.topic).send b.buffer e)) := by
  have htopic : ((b.channel e.topic).send b.buffer e).topic = e.topic := b.channel_topic e.topic
  have hsent (topic : String) : sentTo topic (.published e (.ok (others + 1)) :: deeds) =
      if e.topic = topic then sentTo topic deeds ++ [e] else sentTo topic deeds := rfl
  have hoffered (number : Nat) : offered number (.published e (.ok (others + 1)) :: deeds) =
      if number ∈ Broker.live e.topic deeds then offered number deeds ++ [e]
      else offered number deeds := rfl
  have hpassed (number : Nat) : Broker.passed number (.published e (.ok (others + 1)) :: deeds) =
      Broker.passed number deeds := rfl
  refine ⟨h.isOpen, h.numbers, h.issued, ?_, ?_, h.live, ?_, ?_, ?_, ?_, ?_⟩
  · intro t n hdeed
    rcases List.mem_cons.mp hdeed with heq | hearlier
    · cases heq
    · exact h.subscribed t n hearlier
  · intro number hnumber
    have hdead : number ∉ Broker.live e.topic deeds := by
      intro hlive
      obtain ⟨s, hs, -, rfl⟩ := h.mem_live.mp hlive
      exact Nat.not_lt.mpr hnumber (h.issued s hs)
    rw [hoffered, if_neg hdead, h.unborn number hnumber]
  · intro topic
    rw [hsent]
    by_cases heq : e.topic = topic
    · subst heq
      have hself := b.channel_putChannel_self ((b.channel e.topic).send b.buffer e)
      rw [htopic] at hself
      rw [if_pos rfl, hself]
      exact (h.channels e.topic).send e
    · rw [if_neg heq, b.channel_putChannel_other (by rwa [htopic])]
      exact h.channels topic
  · intro s hs
    rw [hsent]
    split
    · rw [List.length_append]
      exact Nat.le_add_right_of_le (h.places s hs)
    · exact h.places s hs
  · -- Who lives at the topic of the event waits for it too; nobody else does.
    intro s hs
    rw [hsent, Broker.waiting, hpassed, hoffered]
    by_cases heq : e.topic = s.topic
    · rw [if_pos (h.mem_live.mpr ⟨s, hs, heq.symm, rfl⟩), if_pos heq,
        List.drop_append_of_le_length (h.passed s.number),
        List.drop_append_of_le_length (h.places s hs), ← h.waiting s hs]
      rfl
    · have hdead : s.number ∉ Broker.live e.topic deeds := by
        intro hlive
        obtain ⟨t, ht, htopic, hnumber⟩ := h.mem_live.mp hlive
        obtain rfl := h.eq_of_number ht hs hnumber
        exact heq htopic.symm
      rw [if_neg hdead, if_neg heq, ← h.waiting s hs]
      rfl
  · intro number
    rw [hpassed, hoffered]
    split
    · rw [List.length_append]
      exact Nat.le_add_right_of_le (h.passed number)
    · exact h.passed number
  · intro number
    rw [hpassed, hoffered]
    split
    · rw [List.take_append_of_le_length (h.passed number)]
      exact h.yielded number
    · exact h.yielded number

/-! ## Receiving -/

theorem putSubscription_numbers (b : Broker) (s : Subscription) :
    (b.putSubscription s).subscriptions.map (·.number) = b.subscriptions.map (·.number) := by
  simp only [putSubscription, List.map_map]
  apply List.map_congr_left
  intro t _
  by_cases heq : t.number = s.number
  · simp [heq]
  · simp [heq]

theorem mem_putSubscription {s t : Subscription} (ht : t ∈ (b.putSubscription s).subscriptions) :
    t = s ∨ t ∈ b.subscriptions ∧ t.number ≠ s.number := by
  obtain ⟨u, hu, rfl⟩ := List.mem_map.mp ht
  by_cases heq : u.number = s.number
  · exact .inl (by simp [heq])
  · exact .inr (by simp [heq, hu])

/-- A subscription that goes on to another place stays where it lives. -/
theorem Tells.putSubscription_live (h : Tells deeds b) {s : Subscription}
    (hs : s ∈ b.subscriptions) (next : Nat) (topic : String) :
    ((b.putSubscription { s with next }).subscriptions.filter fun t => t.topic == topic).map
        (·.number) = Broker.live topic deeds := by
  rw [h.live, putSubscription, List.filter_map, List.map_map]
  have hfilter : (b.subscriptions.filter
      ((fun t => t.topic == topic) ∘
        fun t => if t.number == s.number then { s with next } else t)) =
      b.subscriptions.filter fun t => t.topic == topic := by
    apply List.filter_congr
    intro t ht
    by_cases heq : t.number = s.number
    · obtain rfl := h.eq_of_number ht hs heq
      simp
    · simp [heq]
  rw [hfilter]
  apply List.map_congr_left
  intro t _
  by_cases heq : t.number = s.number
  · simp [heq]
  · simp [heq]

/-- A subscription that waits for events takes the oldest of the newest ones. -/
theorem Tells.take (h : Tells deeds b) {s : Subscription} (hs : s ∈ b.subscriptions) {lost : Nat}
    {e : Event} (he : (Broker.waiting s.number deeds)[lost]? = some e) :
    Tells (.received s.number (.event e) lost :: deeds)
      (b.putSubscription { s with next := s.next + lost + 1 }) := by
  have hyielded (number : Nat) :
      Broker.yielded number (.received s.number (.event e) lost :: deeds) =
        if s.number = number then Broker.yielded number deeds ++ [e]
        else Broker.yielded number deeds := rfl
  have hpassed (number : Nat) :
      Broker.passed number (.received s.number (.event e) lost :: deeds) =
        if s.number = number then Broker.passed number deeds + (lost + 1)
        else Broker.passed number deeds := by
    simp only [Broker.passed, hyielded, missed]
    split
    · rw [List.length_append, List.length_singleton]
      omega
    · rfl
  obtain ⟨hlost, -⟩ := List.getElem?_eq_some_iff.mp he
  refine ⟨h.isOpen, ?_, ?_, ?_, h.unborn, ?_, h.channels, ?_, ?_, ?_, ?_⟩
  · rw [putSubscription_numbers]
    exact h.numbers
  · intro t ht
    rcases mem_putSubscription ht with rfl | ⟨ht, -⟩
    · exact h.issued s hs
    · exact h.issued t ht
  · intro t n hdeed
    rcases List.mem_cons.mp hdeed with heq | hearlier
    · cases heq
    · exact h.subscribed t n hearlier
  · intro topic
    exact (h.putSubscription_live hs _ topic).symm
  · intro t ht
    rcases mem_putSubscription ht with rfl | ⟨ht, -⟩
    · rw [h.waiting s hs, List.length_drop] at hlost
      show s.next + lost + 1 ≤ (sentTo s.topic deeds).length
      omega
    · exact h.places t ht
  · intro t ht
    rw [Broker.waiting, hpassed]
    rcases mem_putSubscription ht with rfl | ⟨ht, hne⟩
    · have hwaiting := congrArg (List.drop (lost + 1)) (h.waiting s hs)
      rw [Broker.waiting, List.drop_drop, List.drop_drop] at hwaiting
      rw [if_pos rfl]
      exact hwaiting
    · rw [if_neg (Ne.symm hne)]
      exact h.waiting t ht
  · intro number
    rw [hpassed]
    split
    · next heq =>
      subst heq
      rw [Broker.waiting, List.length_drop] at hlost
      show Broker.passed s.number deeds + (lost + 1) ≤ (offered s.number deeds).length
      omega
    · exact h.passed number
  · intro number
    rw [hpassed, hyielded]
    split
    · next heq =>
      -- The event comes after all that has been passed, and at the end of what is lost.
      subst heq
      show (Broker.yielded s.number deeds ++ [e]).Sublist
        ((offered s.number deeds).take (Broker.passed s.number deeds + (lost + 1)))
      rw [List.take_add]
      apply (h.yielded s.number).append
      rw [List.singleton_sublist]
      apply List.mem_of_getElem?
      exact (List.getElem?_take_of_lt (Nat.lt_succ_self lost)).trans he
    · exact h.yielded number

/-- What a live subscription receives, by what is waiting for it. -/
theorem Tells.receive_eq (h : Tells deeds b) {s : Subscription} (hs : s ∈ b.subscriptions) :
    b.receive s.number =
      match (Broker.waiting s.number deeds)[(Broker.waiting s.number deeds).length - b.buffer]? with
      | none => (if b.isOpen then .nothing else .closed, 0, b)
      | some e => (.event e, (Broker.waiting s.number deeds).length - b.buffer,
          b.putSubscription { s with
            next := s.next + ((Broker.waiting s.number deeds).length - b.buffer) + 1 }) := by
  rw [h.waiting s hs]
  exact receive_live (subscription?_of_mem h.numbers hs) (h.channels s.topic)

theorem receive_dead (hnone : b.subscription? number = none) :
    b.receive number = (.closed, 0, b) := by
  rw [receive, hnone]

theorem Tells.receive (h : Tells deeds b) (number : Nat) :
    Tells (.received number (b.receive number).1 (b.receive number).2.1 :: deeds)
      (b.receive number).2.2 := by
  cases hfound : b.subscription? number with
  | none =>
    rw [receive_dead hfound]
    exact h.unyielding number 0 nofun
  | some s =>
    have hs : s ∈ b.subscriptions := List.mem_of_find?_eq_some hfound
    obtain rfl : s.number = number := by
      have hbeq := List.find?_some hfound
      exact eq_of_beq hbeq
    rw [h.receive_eq hs]
    cases he : (Broker.waiting s.number deeds)[(Broker.waiting s.number deeds).length - b.buffer]? with
    | none =>
      refine h.unyielding s.number 0 ?_
      intro e
      dsimp only
      split <;> simp
    | some e => exact h.take hs he

/-! ## All Operations -/

theorem publish_refused {e : Event} (hwrong : e.topic ≠ e.payload.topic) :
    b.publish e = (.error ⟨e.topic, e.payload.topic⟩, b) := by
  rw [publish, Event.check, if_neg hwrong]

theorem publish_unheard {e : Event} (hright : e.topic = e.payload.topic)
    (hnone : b.count e.topic = 0) : b.publish e = (.ok 0, b) := by
  rw [publish, Event.check, if_pos hright]
  exact if_pos hnone

theorem publish_heard {e : Event} (hright : e.topic = e.payload.topic)
    (hsome : b.count e.topic ≠ 0) :
    b.publish e = (.ok (b.count e.topic), b.putChannel ((b.channel e.topic).send b.buffer e)) := by
  rw [publish, Event.check, if_pos hright]
  exact if_neg hsome

theorem publish_right {e : Event} (hright : e.topic = e.payload.topic) :
    (b.publish e).1 = .ok (b.count e.topic) := by
  by_cases hcount : b.count e.topic = 0
  · rw [publish_unheard hright hcount, hcount]
  · rw [publish_heard hright hcount]

theorem Tells.publish (h : Tells deeds b) (e : Event) :
    Tells (.published e (b.publish e).1 :: deeds) (b.publish e).2 := by
  by_cases hright : e.topic = e.payload.topic
  · cases hcount : b.count e.topic with
    | zero =>
      rw [publish_unheard hright hcount]
      exact h.unheard hcount
    | succ others =>
      rw [publish_heard hright (by simp [hcount]), hcount]
      exact h.send e others
  · rw [publish_refused hright]
    exact h.refused e _

/-- Each operation keeps the history and the broker together. -/
theorem Tells.perform (h : Tells deeds b) (operation : Operation) :
    Tells ((b.perform operation).1 :: deeds) (b.perform operation).2 := by
  cases operation with
  | subscribe topic => exact h.subscribe topic
  | publish e => exact h.publish e
  | receive number => exact h.receive number
  | drop number => exact h.drop number
  | close => exact h.close

theorem tells_after (h : Tells [] b) (operations : List Operation) :
    Tells (b.after operations).1 (b.after operations).2 := by
  induction operations with
  | nil => exact h
  | cons operation earlier ih => exact ih.perform operation

theorem buffer_perform (b : Broker) (operation : Operation) :
    (b.perform operation).2.buffer = b.buffer := by
  cases operation with
  | publish e =>
    simp only [Broker.perform, Broker.publish]
    split
    · rfl
    · split <;> rfl
  | receive number =>
    simp only [Broker.perform, Broker.receive]
    split
    · rfl
    · split <;> rfl
  | _ => rfl

theorem buffer_after (b : Broker) (operations : List Operation) :
    (b.after operations).2.buffer = b.buffer := by
  induction operations with
  | nil => rfl
  | cons operation earlier ih => exact (buffer_perform _ operation).trans ih

/-! ## The Size of the Buffer -/

/-- The buffer for a capacity is the least power of two that is large enough. -/
theorem isLeast_bufferFor (capacity : Nat) :
    IsLeast {n | max capacity 1 ≤ n ∧ ∃ k, n = 2 ^ k} (bufferFor capacity) := by
  unfold bufferFor
  split
  · next hsmall =>
    refine ⟨⟨by omega, 0, rfl⟩, ?_⟩
    rintro n ⟨hn, -⟩
    omega
  · next hlarge =>
    have hlog := Nat.log2_self_le (n := capacity - 1) (by omega)
    have hlt := Nat.lt_log2_self (n := capacity - 1)
    refine ⟨⟨?_, Nat.log2 (capacity - 1) + 1, rfl⟩, ?_⟩
    · show max capacity 1 ≤ 2 ^ (Nat.log2 (capacity - 1) + 1)
      omega
    · -- A smaller power of two is at most the one below the capacity.
      rintro n ⟨hn, k, rfl⟩
      apply Nat.pow_le_pow_right (by decide)
      have hpow : 2 ^ Nat.log2 (capacity - 1) < 2 ^ k := by omega
      exact (Nat.pow_lt_pow_iff_right (by decide)).mp hpow

/-! ## Delivery -/

/-- What a broker with some history answers next, and what its subscriptions have yielded. -/
structure Delivers (buffer : Nat) (deeds : List Deed) (b : Broker) : Prop where
  /-- A new subscription gets a number that none has had before. -/
  fresh : ∀ topic t number, .subscribed t number ∈ deeds → (b.subscribe topic).1 ≠ number
  /-- A subscription has yielded a part of what it was offered, in that order. -/
  yields : ∀ number,
    (yielded number deeds).Sublist ((offered number deeds).take (passed number deeds))
  /-- The others that it has passed are those that it has lost. -/
  passes : ∀ number, passed number deeds ≤ (offered number deeds).length
  /-- If events are waiting, the oldest ones are lost if there are more than the buffer holds,
  and the next one is received. -/
  receives : ∀ topic, ∀ number ∈ live topic deeds, waiting number deeds ≠ [] →
    ∃ e rest after, (waiting number deeds).drop ((waiting number deeds).length - buffer) = e :: rest ∧
      b.receive number = (.event e, (waiting number deeds).length - buffer, after)
  /-- If none is waiting, there is nothing, or the end if the broker has gone. -/
  ends : ∀ topic, ∀ number ∈ live topic deeds, waiting number deeds = [] →
    b.receive number = (if stays deeds then .nothing else .closed, 0, b)
  /-- An event under a wrong topic is refused. -/
  refuses : ∀ e, e.topic ≠ e.payload.topic → b.publish e = (.error ⟨e.topic, e.payload.topic⟩, b)
  /-- Any other event reaches all who live at its topic. -/
  reaches : ∀ e, e.topic = e.payload.topic → (b.publish e).1 = .ok (live e.topic deeds).length

theorem Tells.delivers (h : Tells deeds b) (hbuffer : 0 < b.buffer) :
    Delivers b.buffer deeds b := by
  refine ⟨?_, h.yielded, h.passed, ?_, ?_, fun e => publish_refused, ?_⟩
  · intro topic t number hdeed
    exact Ne.symm (Nat.ne_of_lt (h.subscribed t number hdeed))
  · intro topic number hlive hwaiting
    obtain ⟨s, hs, -, rfl⟩ := h.mem_live.mp hlive
    have hlt : (Broker.waiting s.number deeds).length - b.buffer <
        (Broker.waiting s.number deeds).length := by
      have hpos := List.length_pos_of_ne_nil hwaiting
      omega
    have hreceive := h.receive_eq hs
    rw [List.getElem?_eq_getElem hlt] at hreceive
    exact ⟨_, _, _, List.drop_eq_getElem_cons hlt, hreceive⟩
  · intro topic number hlive hwaiting
    obtain ⟨s, hs, -, rfl⟩ := h.mem_live.mp hlive
    rw [h.receive_eq hs, hwaiting, h.isOpen]
    rfl
  · intro e hright
    rw [← h.count]
    exact publish_right hright

/-- Whatever is done with a broker, it delivers. -/
theorem delivers_after (capacity : Nat) (operations : List Operation) :
    IsLeast {n | max capacity 1 ≤ n ∧ ∃ k, n = 2 ^ k} (bufferFor capacity) ∧
      Delivers (bufferFor capacity) ((new capacity).after operations).1
        ((new capacity).after operations).2 := by
  have hsize := isLeast_bufferFor capacity
  have hbuffer := buffer_after (new capacity) operations
  have htells := tells_after (tells_new capacity) operations
  have hpos : 0 < ((new capacity).after operations).2.buffer := by
    rw [hbuffer]
    exact Nat.lt_of_lt_of_le Nat.one_pos (Nat.le_trans (Nat.le_max_right _ _) hsize.1.1)
  refine ⟨hsize, ?_⟩
  have hdelivers := htells.delivers hpos
  rwa [hbuffer] at hdelivers

-- Three events for a subscription with room for two: the first one is lost.
example :
    let operations : List Operation := [.subscribe Topic.update, .publish (.of "a" (.updated ⟨[]⟩)),
      .publish (.of "b" (.updated ⟨[]⟩)), .publish (.of "c" (.updated ⟨[]⟩))]
    let b := operations.foldl (fun b operation => (b.perform operation).2) (new 2)
    (b.receive 0).1 = .event (.of "b" (.updated ⟨[]⟩)) ∧ (b.receive 0).2.1 = 1 := by
  decide +kernel

end Broker

end EdgeSync
