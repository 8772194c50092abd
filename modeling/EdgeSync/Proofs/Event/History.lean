import EdgeSync.Event.Broker

/-!
# Histories of a Broker

A history lists what has been asked of a broker and what it has answered, the latest first.
It says by itself which events were offered to a subscription, which of them it has yielded,
and which are still pending: those that it has neither yielded nor lost.

## Main definitions

- `Broker.Operation`, `Broker.Deed`, `Broker.after`: what is asked, and what comes of it
- `Broker.live`, `Broker.offered`, `Broker.yielded`, `Broker.waiting`: what a history says

## Main results

- `Channel.Records.send`, `Channel.Records.event?_eq`: a channel keeps the newest events of its log
- `Broker.receive_live`: what a subscription receives, by the log of its topic
-/

namespace EdgeSync

/-! ## Channels and Their Logs -/

namespace Channel

/-- A channel whose topic has a log of sent events, of which the newest are kept. -/
structure Records (buffer : Nat) (c : Channel) (log : List Event) : Prop where
  sent : c.sent = log.length
  kept : c.kept = log.drop (log.length - buffer)

theorem records_empty (buffer : Nat) (topic : String) : (empty topic).Records buffer [] := by
  refine ⟨rfl, ?_⟩
  rw [List.drop_nil]
  rfl

variable {buffer : Nat} {c : Channel} {log : List Event}

theorem Records.send (h : c.Records buffer log) (e : Event) :
    (c.send buffer e).Records buffer (log ++ [e]) := by
  obtain ⟨hsent, hkept⟩ := h
  refine ⟨?_, ?_⟩
  · simp [Channel.send, hsent]
  · -- Both sides drop from the longer log; only the numbers have to be compared.
    have hall : log.drop (log.length - buffer) ++ [e] =
        (log ++ [e]).drop (log.length - buffer) :=
      (List.drop_append_of_le_length (Nat.sub_le _ _)).symm
    simp only [Channel.send, hkept, hall, List.drop_drop, List.length_drop, List.length_append,
      List.length_singleton]
    congr 1
    omega

/-- The place of the oldest event that is kept. -/
theorem Records.oldest (h : c.Records buffer log) :
    c.sent - c.kept.length = log.length - buffer := by
  rw [h.sent, h.kept, List.length_drop]
  omega

theorem Records.event?_eq (h : c.Records buffer log) {place : Nat}
    (hplace : log.length - buffer ≤ place) : c.event? place = log[place]? := by
  simp only [event?, h.oldest]
  rw [if_neg (Nat.not_lt.mpr hplace), h.kept, List.getElem?_drop, Nat.add_sub_cancel' hplace]

end Channel

namespace Broker

/-! ## Operations and Deeds -/

/-- What is asked of a broker. -/
inductive Operation where
  | subscribe (topic : String)
  | publish (event : Event)
  | receive (number : Nat)
  | drop (number : Nat)
  | close
  deriving DecidableEq, Repr

/-- What was asked of a broker, and what came of it. -/
inductive Deed where
  | subscribed (topic : String) (number : Nat)
  | published (event : Event) (answer : Except TopicMismatch Nat)
  | received (number : Nat) (receipt : Receipt) (lost : Nat)
  | dropped (number : Nat)
  | closed

/-- Do what is asked. -/
def perform (b : Broker) : Operation → Deed × Broker
  | .subscribe topic =>
    let (number, b) := b.subscribe topic
    (.subscribed topic number, b)
  | .publish e =>
    let (answer, b) := b.publish e
    (.published e answer, b)
  | .receive number =>
    let (receipt, lost, b) := b.receive number
    (.received number receipt lost, b)
  | .drop number => (.dropped number, (b.drop number).2)
  | .close => (.closed, b.close)

/-- The history of some operations, the latest first, and the broker after them. -/
def after (b : Broker) : List Operation → List Deed × Broker
  | [] => ([], b)
  | operation :: earlier =>
    let (deeds, b) := after b earlier
    let (deed, b) := b.perform operation
    (deed :: deeds, b)

/-! ## What a History Says -/

/-- The numbers of the live subscriptions to a topic. -/
def live (topic : String) : List Deed → List Nat
  | [] => []
  | .subscribed t number :: earlier =>
    if t = topic then live topic earlier ++ [number] else live topic earlier
  | .dropped number :: earlier => (live topic earlier).filter (· != number)
  | _ :: earlier => live topic earlier

/-- The events published to the topic of a subscription since it subscribed. -/
def offered (number : Nat) : List Deed → List Event
  | [] => []
  | .published e (.ok _) :: earlier =>
    if number ∈ live e.topic earlier then offered number earlier ++ [e]
    else offered number earlier
  | _ :: earlier => offered number earlier

/-- The events that a subscription has yielded. -/
def yielded (number : Nat) : List Deed → List Event
  | [] => []
  | .received n (.event e) _ :: earlier =>
    if n = number then yielded number earlier ++ [e] else yielded number earlier
  | _ :: earlier => yielded number earlier

/-- The number of events that a subscription has lost. -/
def missed (number : Nat) : List Deed → Nat
  | [] => 0
  | .received n (.event _) lost :: earlier =>
    if n = number then missed number earlier + lost else missed number earlier
  | _ :: earlier => missed number earlier

/-- The number of events that a subscription has yielded or lost. -/
def passed (number : Nat) (deeds : List Deed) : Nat :=
  (yielded number deeds).length + missed number deeds

/-- The events that were offered to a subscription and that it has neither yielded nor lost. -/
def waiting (number : Nat) (deeds : List Deed) : List Event :=
  (offered number deeds).drop (passed number deeds)

/-- Whether the broker has not gone. -/
def stays : List Deed → Bool
  | [] => true
  | .closed :: _ => false
  | _ :: earlier => stays earlier

/-- The events that a topic has been sent: those that reached somebody. -/
def sentTo (topic : String) : List Deed → List Event
  | [] => []
  | .published e (.ok (_ + 1)) :: earlier =>
    if e.topic = topic then sentTo topic earlier ++ [e] else sentTo topic earlier
  | _ :: earlier => sentTo topic earlier

/-! ## Looking Up -/

theorem channel_topic (b : Broker) (topic : String) : (b.channel topic).topic = topic := by
  unfold channel
  cases hfound : b.channels.find? fun c => c.topic == topic with
  | none => rfl
  | some c =>
    have hbeq := List.find?_some hfound
    exact eq_of_beq hbeq

theorem channel_putChannel_self (b : Broker) (c : Channel) :
    (b.putChannel c).channel c.topic = c := by
  simp [channel, putChannel]

theorem channel_putChannel_other (b : Broker) {c : Channel} {topic : String}
    (hother : c.topic ≠ topic) : (b.putChannel c).channel topic = b.channel topic := by
  have hkeep : (b.channels.filter fun d => d.topic != c.topic).find? (fun d => d.topic == topic) =
      b.channels.find? fun d => d.topic == topic := by
    rw [List.find?_filter]
    congr 1
    funext d
    by_cases hd : d.topic = topic
    · simp [hd, hother.symm]
    · simp [hd]
  simp [channel, putChannel, hother, hkeep]

/-- With numbers that differ, a subscription is found by its number. -/
theorem subscription?_of_mem {b : Broker} (hnumbers : (b.subscriptions.map (·.number)).Nodup)
    {s : Subscription} (hs : s ∈ b.subscriptions) : b.subscription? s.number = some s := by
  unfold subscription?
  generalize b.subscriptions = subscriptions at hnumbers hs
  induction subscriptions with
  | nil => cases hs
  | cons t rest ih =>
    rw [List.map_cons, List.nodup_cons] at hnumbers
    rcases List.mem_cons.mp hs with rfl | hrest
    · simp
    · have hne : t.number ≠ s.number := by
        intro heq
        apply hnumbers.1
        rw [heq]
        exact List.mem_map_of_mem hrest
      rw [List.find?_cons_of_neg (by simpa using hne)]
      exact ih hnumbers.2 hrest

/-! ## Receiving -/

/-- What a live subscription receives: the oldest of the newest events that are kept, and
what comes before it is lost. -/
theorem receive_live {b : Broker} {s : Subscription} {log : List Event}
    (hs : b.subscription? s.number = some s)
    (hlog : (b.channel s.topic).Records b.buffer log) :
    b.receive s.number =
      match (log.drop s.next)[(log.drop s.next).length - b.buffer]? with
      | none => (if b.isOpen then .nothing else .closed, 0, b)
      | some e => (.event e, (log.drop s.next).length - b.buffer,
          b.putSubscription
            { s with next := s.next + ((log.drop s.next).length - b.buffer) + 1 }) := by
  have hplace : max s.next (log.length - b.buffer) =
      s.next + ((log.drop s.next).length - b.buffer) := by
    rw [List.length_drop]
    omega
  have hle : log.length - b.buffer ≤ s.next + ((log.drop s.next).length - b.buffer) := by
    rw [← hplace]
    exact Nat.le_max_right _ _
  rw [List.getElem?_drop]
  cases hevent : log[s.next + ((log.drop s.next).length - b.buffer)]? with
  | none => simp only [receive, hs, hlog.oldest, hplace, hlog.event?_eq hle, hevent]
  | some e =>
    simp only [receive, hs, hlog.oldest, hplace, hlog.event?_eq hle, hevent,
      Nat.add_sub_cancel_left]

end Broker

end EdgeSync
