import EdgeSync.Event.Event

/-!
# The Broker

The broker delivers events to the subscriptions of their topics. Each topic keeps
its newest events, up to the size of the buffer. A subscription knows the place of
the next event that it has not taken; if that event is no longer kept, the
subscription loses it together with those up to the oldest one kept, and learns
how many it has lost. An event that no subscription waits for is not kept.

## Main definitions

- `Broker`: channels and subscriptions
- `Broker.subscribe`, `Broker.publish`, `Broker.receive`, `Broker.drop`,
  `Broker.close`: the operations
- `Receipt`: what a subscription receives
-/

namespace EdgeSync

/-! ## Channels and subscriptions -/

/-- The events of a topic: how many have been sent, and the newest of them, the
oldest first. -/
structure Channel where
  topic : String
  sent : Nat
  kept : List Event
  deriving DecidableEq, Repr

/-- A subscription to a topic. `next` is the number of events of the topic that
were sent before the next one that it takes. -/
structure Subscription where
  number : Nat
  topic : String
  next : Nat
  deriving DecidableEq, Repr

/-- Channels, live subscriptions, and the size of the buffer of each channel. -/
structure Broker where
  buffer : Nat
  channels : List Channel
  subscriptions : List Subscription
  issued : Nat
  isOpen : Bool
  deriving DecidableEq, Repr

/-- What a subscription receives: an event, or nothing for now, or the news that
the broker is gone. -/
inductive Receipt where
  | event (event : Event)
  | nothing
  | closed
  deriving DecidableEq, Repr

namespace Channel

/-- The channel of a topic before any event. -/
def empty (topic : String) : Channel := ⟨topic, 0, []⟩

/-- Send one event; at most `buffer` are kept. -/
def send (buffer : Nat) (c : Channel) (e : Event) : Channel :=
  let kept := c.kept ++ [e]
  ⟨c.topic, c.sent + 1, kept.drop (kept.length - buffer)⟩

/-- The event at a place, if it is kept. -/
def event? (c : Channel) (place : Nat) : Option Event :=
  let oldest := c.sent - c.kept.length
  if place < oldest then none else c.kept[place - oldest]?

end Channel

namespace Broker

/-- The buffer for a capacity: the least power of two that is not below it. -/
def bufferFor (capacity : Nat) : Nat :=
  if capacity ≤ 1 then 1 else Nat.pow 2 (Nat.log2 (capacity - 1) + 1)

/-- The capacity if none is asked for. -/
def defaultCapacity : Nat := 64

/-- A broker for a capacity. -/
def new (capacity : Nat) : Broker := ⟨bufferFor capacity, [], [], 0, true⟩

/-! ## Looking up -/

/-- The channel of a topic. -/
def channel (b : Broker) (topic : String) : Channel :=
  (b.channels.find? fun c => c.topic == topic).getD (.empty topic)

/-- The live subscription of a number. -/
def subscription? (b : Broker) (number : Nat) : Option Subscription :=
  b.subscriptions.find? fun s => s.number == number

/-- The number of live subscriptions to a topic. -/
def count (b : Broker) (topic : String) : Nat :=
  (b.subscriptions.filter fun s => s.topic == topic).length

/-- The number of events that a subscription has not taken, lost ones included. -/
def pending (b : Broker) (number : Nat) : Nat :=
  match b.subscription? number with
  | none => 0
  | some s => (b.channel s.topic).sent - s.next

/-- The number of events that some subscriptions have not taken. -/
def pendingAll (b : Broker) (numbers : List Nat) : Nat :=
  numbers.foldr (fun number total => b.pending number + total) 0

/-! ## Operations -/

/-- Replace the channel of a topic. -/
def putChannel (b : Broker) (c : Channel) : Broker :=
  { b with channels := c :: b.channels.filter fun d => d.topic != c.topic }

/-- Replace a subscription. -/
def putSubscription (b : Broker) (s : Subscription) : Broker :=
  { b with subscriptions := b.subscriptions.map fun t => if t.number == s.number then s else t }

/-- Subscribe to a topic; events sent so far are not delivered. -/
def subscribe (b : Broker) (topic : String) : Nat × Broker :=
  (b.issued,
    { b with
      subscriptions := b.subscriptions ++ [⟨b.issued, topic, (b.channel topic).sent⟩]
      issued := b.issued + 1 })

/-- Publish an event; the answer is the number of subscriptions that it reaches. -/
def publish (b : Broker) (e : Event) : Except TopicMismatch Nat × Broker :=
  match e.check with
  | .error fault => (.error fault, b)
  | .ok _ =>
    let reached := b.count e.topic
    if reached = 0 then (.ok 0, b)
    else (.ok reached, b.putChannel ((b.channel e.topic).send b.buffer e))

/-- Take the next event of a subscription; the number is that of the events lost on
the way. -/
def receive (b : Broker) (number : Nat) : Receipt × Nat × Broker :=
  match b.subscription? number with
  | none => (.closed, 0, b)
  | some s =>
    let c := b.channel s.topic
    -- What is no longer kept is passed over.
    let place := max s.next (c.sent - c.kept.length)
    match c.event? place with
    | none => (if b.isOpen then .nothing else .closed, 0, b)
    | some e => (.event e, place - s.next, b.putSubscription { s with next := place + 1 })

/-- End a subscription; the answer says whether it was live. -/
def drop (b : Broker) (number : Nat) : Bool × Broker :=
  ((b.subscription? number).isSome,
    { b with subscriptions := b.subscriptions.filter fun s => s.number != number })

/-- The broker goes; subscriptions may still take what they have not taken. -/
def close (b : Broker) : Broker :=
  { b with isOpen := false }

end Broker

end EdgeSync
