import EdgeSync.Proofs.Event.Delivery

/-!
# What Waits for a Subscription

The events that wait for a subscription are a queue of its own. Only an event that is
published to its topic makes it longer, and only a receipt makes it shorter; what others do
with the broker does not touch it.

## Main definitions

- `Broker.Operation.Spares`: an operation that leaves a subscription to its holder
- `Broker.Operation.bring`: the event that an operation brings to a topic

## Main results

- `Broker.Tells.waiting_perform`: what waits after an operation
- `Broker.Tells.pending_eq`: how many events wait
- `Broker.Tells.receive_first`: the first of them is received
-/

namespace EdgeSync

/-! ## The Events of a Topic -/

theorem filter_snoc_self {topic : String} {e : Event} (htopic : e.topic = topic)
    (events : List Event) : (events ++ [e]).filter (fun e => e.topic == topic) =
      events.filter (fun e => e.topic == topic) ++ [e] := by
  rw [List.filter_append]
  simp [htopic]

theorem filter_snoc_other {topic : String} {e : Event} (hother : e.topic ≠ topic)
    (events : List Event) : (events ++ [e]).filter (fun e => e.topic == topic) =
      events.filter (fun e => e.topic == topic) := by
  rw [List.filter_append]
  simp [hother]

namespace Broker

/-! ## Operations of Others -/

/-- An operation that neither receives from the subscription of a number nor drops it. -/
def Operation.Spares (number : Nat) (operation : Operation) : Prop :=
  operation ≠ .receive number ∧ operation ≠ .drop number

instance (number : Nat) (operation : Operation) : Decidable (operation.Spares number) :=
  inferInstanceAs (Decidable (_ ∧ _))

/-- The event that an operation brings to a topic. -/
def Operation.bring (topic : String) : Operation → List Event
  | .publish e => if e.topic = e.payload.topic ∧ e.topic = topic then [e] else []
  | _ => []

variable {deeds : List Deed} {b : Broker} {topic : String} {number : Nat}

theorem deed_publish_right {e : Event} (hright : e.topic = e.payload.topic) :
    (b.perform (.publish e)).1 = .published e (.ok (b.count e.topic)) := by
  rw [← publish_right hright]
  rfl

theorem deed_publish_wrong {e : Event} (hwrong : e.topic ≠ e.payload.topic) :
    (b.perform (.publish e)).1 = .published e (.error ⟨e.topic, e.payload.topic⟩) := by
  simp only [perform, publish_refused hwrong]

theorem live_perform {operation : Operation} (hspares : operation.Spares number)
    (hlive : number ∈ live topic deeds) :
    number ∈ live topic ((b.perform operation).1 :: deeds) := by
  cases operation with
  | subscribe t =>
    show number ∈ if t = topic then live topic deeds ++ [b.issued] else live topic deeds
    split
    · exact List.mem_append_left _ hlive
    · exact hlive
  | drop n =>
    show number ∈ (live topic deeds).filter (· != n)
    have hne : number ≠ n := by
      rintro rfl
      exact hspares.2 rfl
    simp [List.mem_filter, hlive, hne]
  | publish e => exact hlive
  | receive n => exact hlive
  | close => exact hlive

/-! ## The Queue of a Subscription -/

theorem waiting_received_other {n : Nat} (hne : n ≠ number) (receipt : Receipt) (lost : Nat) :
    waiting number (.received n receipt lost :: deeds) = waiting number deeds := by
  have hyielded : yielded number (.received n receipt lost :: deeds) = yielded number deeds := by
    cases receipt with
    | event e => exact if_neg hne
    | nothing => rfl
    | closed => rfl
  have hmissed : missed number (.received n receipt lost :: deeds) = missed number deeds := by
    cases receipt with
    | event e => exact if_neg hne
    | nothing => rfl
    | closed => rfl
  rw [waiting, passed, hyielded, hmissed]
  rfl

theorem waiting_received_self (e : Event) :
    waiting number (.received number (.event e) 0 :: deeds) = (waiting number deeds).tail := by
  have hpassed : passed number (.received number (.event e) 0 :: deeds) =
      passed number deeds + 1 := by
    simp only [passed, yielded, missed, if_pos, List.length_append, List.length_singleton]
    omega
  rw [waiting, hpassed, waiting, List.tail_drop]
  rfl

/-- Only an event that is published for a live subscription changes what waits for it, as long
as nobody else receives from it. -/
theorem Tells.waiting_perform (h : Tells deeds b) {operation : Operation}
    (hspares : operation.Spares number) (hlive : number ∈ Broker.live topic deeds) :
    Broker.waiting number ((b.perform operation).1 :: deeds) =
      Broker.waiting number deeds ++ operation.bring topic := by
  -- All but a publication leave what was offered, and others do not receive for the number.
  cases operation with
  | subscribe t => exact (List.append_nil _).symm
  | drop n => exact (List.append_nil _).symm
  | close => exact (List.append_nil _).symm
  | receive n =>
    have hne : n ≠ number := by
      rintro rfl
      exact hspares.1 rfl
    exact (waiting_received_other hne _ _).trans (List.append_nil _).symm
  | publish e =>
    by_cases hright : e.topic = e.payload.topic
    · rw [deed_publish_right hright, Operation.bring]
      by_cases htopic : e.topic = topic
      · rw [if_pos ⟨hright, htopic⟩, Broker.waiting, offered, htopic, if_pos hlive]
        exact List.drop_append_of_le_length (h.passed number)
      · -- A subscription lives at one topic only.
        have hdead : number ∉ Broker.live e.topic deeds := by
          intro hmem
          obtain ⟨s, hs, hat, rfl⟩ := h.mem_live.mp hlive
          obtain ⟨t, ht, hat', hnumber⟩ := h.mem_live.mp hmem
          obtain rfl := h.eq_of_number ht hs hnumber
          exact htopic (hat'.symm.trans hat)
        rw [if_neg (fun hboth => htopic hboth.2), Broker.waiting, offered, if_neg hdead,
          List.append_nil]
        rfl
    · rw [deed_publish_wrong hright, Operation.bring, if_neg (fun hboth => hright hboth.1),
        List.append_nil]
      rfl

theorem Tells.pending_eq (h : Tells deeds b) (hlive : number ∈ Broker.live topic deeds) :
    b.pending number = (Broker.waiting number deeds).length := by
  obtain ⟨s, hs, -, rfl⟩ := h.mem_live.mp hlive
  rw [h.waiting s hs, List.length_drop, ← (h.channels s.topic).sent, pending,
    subscription?_of_mem h.numbers hs]

theorem Tells.receive_nothing (h : Tells deeds b) (hlive : number ∈ Broker.live topic deeds)
    (hnone : Broker.waiting number deeds = []) :
    b.receive number = (if b.isOpen then .nothing else .closed, 0, b) := by
  obtain ⟨s, hs, -, rfl⟩ := h.mem_live.mp hlive
  rw [h.receive_eq hs, hnone]
  rfl

/-- Unless more events wait than the buffer holds, the first of them is received. -/
theorem Tells.receive_first (h : Tells deeds b) (hlive : number ∈ Broker.live topic deeds)
    {e : Event} {rest : List Event} (hwaiting : Broker.waiting number deeds = e :: rest)
    (hfits : b.pending number ≤ b.buffer) :
    ∃ after, b.receive number = (.event e, 0, after) ∧
      Tells (.received number (.event e) 0 :: deeds) after := by
  have hlost : (Broker.waiting number deeds).length - b.buffer = 0 := by
    rw [← h.pending_eq hlive]
    exact Nat.sub_eq_zero_of_le hfits
  obtain ⟨s, hs, -, rfl⟩ := h.mem_live.mp hlive
  have hreceive := h.receive_eq hs
  have htells := h.receive s.number
  rw [hlost, hwaiting] at hreceive
  rw [hreceive] at htells
  exact ⟨_, hreceive, htells⟩

end Broker

end EdgeSync
