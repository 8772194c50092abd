import EdgeSync.Event.Broker

/-!
# Followers

A follower waits on several subscriptions at once. Whenever it runs it takes the
next event of the first subscription that has one; it looks at them in a fixed
order, anew for each event. It ends as soon as a subscription that it looks at has
nothing left and the broker is gone, or when it is stopped.

## Main definitions

- `Follower`, `Follower.start`, `Follower.stop`: followers and their subscriptions
- `Follower.poll`: the next event
- `Follower.drain`: all events that are there
-/

namespace EdgeSync

/-- A follower and the numbers of its subscriptions, the preferred ones first. -/
structure Follower where
  subscriptions : List Nat
  isRunning : Bool
  deriving DecidableEq, Repr

/-- Some events of a topic were lost. -/
structure Loss where
  topic : String
  count : Nat
  deriving DecidableEq, Repr

/-- An event that was taken, and what was lost just before it. -/
structure Delivery where
  loss : Option Loss
  event : Event
  deriving DecidableEq, Repr

/-- What a follower finds: an event, or nothing for now, or its end. -/
inductive Poll where
  | delivery (delivery : Delivery)
  | nothing
  | ended
  deriving DecidableEq, Repr

namespace Follower

/-! ## Start and end -/

/-- Subscribe to topics one after the other. -/
def subscribeAll (b : Broker) : List String → List Nat × Broker
  | [] => ([], b)
  | topic :: rest =>
    let (number, b) := b.subscribe topic
    let (numbers, b) := subscribeAll b rest
    (number :: numbers, b)

/-- A follower of topics, the preferred ones first. -/
def start (b : Broker) (topics : List String) : Follower × Broker :=
  let (numbers, b) := subscribeAll b topics
  (⟨numbers, true⟩, b)

/-- The follower ends, and with it its subscriptions. -/
def stop (f : Follower) (b : Broker) : Follower × Broker :=
  ({ f with isRunning := false }, f.subscriptions.foldl (fun b number => (b.drop number).2) b)

/-! ## Events -/

/-- The loss that a number of lost events means. -/
def lossOf (topic : String) (count : Nat) : Option Loss :=
  if count = 0 then none else some ⟨topic, count⟩

/-- Look at subscriptions in their order for the next event. -/
def poll (b : Broker) : List Nat → Poll × Broker
  | [] => (.nothing, b)
  | number :: rest =>
    match b.receive number with
    | (.event e, lost, b) => (.delivery ⟨lossOf e.topic lost, e⟩, b)
    | (.closed, _, b) => (.ended, b)
    | (.nothing, _, b) => poll b rest

/-- Take at most `fuel` events. -/
def takeUpTo : Nat → Follower → Broker → List Delivery × Follower × Broker
  | 0, f, b => ([], f, b)
  | fuel + 1, f, b =>
    match poll b f.subscriptions with
    | (.delivery d, b) =>
      let (rest, f, b) := takeUpTo fuel f b
      (d :: rest, f, b)
    | (.nothing, b) => ([], f, b)
    | (.ended, b) => ([], f.stop b)

/-- Take all events that are there. Each of them is pending, and one more step finds
that there are none left. -/
def drain (f : Follower) (b : Broker) : List Delivery × Follower × Broker :=
  if f.isRunning then takeUpTo (b.pendingAll f.subscriptions + 1) f b else ([], f, b)

end Follower

end EdgeSync
