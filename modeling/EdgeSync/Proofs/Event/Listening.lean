import EdgeSync.Proofs.Event.Delivery
import EdgeSync.Sync.Reconciliation

/-!
# Listening, Look by Look

A reconciler that listens goes round its two subscriptions: it looks for a registration
first, and for an update if there is none; after an event it begins anew. Others may do
something with the broker between any two looks, also in the middle of a round.

The events are taken in an order of their own. An event goes to the end of it, except
that it may overtake events of the other topic that are still pending; how many, the
state of the round says.

## Main definitions

- `Listening`, `Listening.look`, `Listening.meet`: the listener among others
- `Listening.overtaken`: the number of events that an event overtakes

## Main results

- `Scene.listen_eq_looks`: following all events that are there is a number of looks
-/

namespace EdgeSync

/-! ## The Listener among Others -/

/-- A reconciler that listens at a broker. Of a round, `atUpdates` says that the registrations
have been looked at; `heard` are the events for it in the order in which they were published,
`order` are the same in the order in which they are taken, and `taken` those it has taken. -/
structure Listening where
  registrations : Nat
  updates : Nat
  isRunning : Bool
  atUpdates : Bool
  reconciler : Reconciler
  broker : Broker
  heard : List Event
  order : List Event
  taken : List Event

namespace Listening

/-- What comes next: somebody else does something with the broker, or the listener looks. -/
inductive Turn where
  | other (operation : Broker.Operation)
  | look
  deriving DecidableEq, Repr

/-- The listener as a follower of its subscriptions. -/
def listener (l : Listening) : Follower :=
  ⟨[l.registrations, l.updates], l.isRunning⟩

/-- Begin to listen. -/
def start (b : Broker) (r : Reconciler) : Listening where
  registrations := b.issued
  updates := b.issued + 1
  isRunning := true
  atUpdates := false
  reconciler := r
  broker := (Follower.start b Reconciler.topics).2
  heard := []
  order := []
  taken := []

/-- The event that a deed brings to the listener. -/
def news? : Broker.Deed → Option Event
  | .published e (.ok _) => if e.topic ∈ Reconciler.topics then some e else none
  | _ => none

/-- The number of pending events that an event overtakes. A registration overtakes the updates,
except the one that is looked at next; an update that is looked at next overtakes the
registrations. -/
def overtaken (l : Listening) (e : Event) : Nat :=
  let updates := l.broker.pending l.updates
  if e.topic = Topic.registration then
    if l.atUpdates then updates - 1 else updates
  else if l.atUpdates && updates == 0 then l.broker.pending l.registrations
  else 0

/-- Somebody else does something with the broker. -/
def meet (l : Listening) (operation : Broker.Operation) : Listening :=
  let (deed, broker) := l.broker.perform operation
  match news? deed with
  | none => { l with broker }
  | some e =>
    { l with
      broker
      heard := l.heard ++ [e]
      order := l.order.insertIdx (l.order.length - l.overtaken e) e }

/-- The topic of the registrations, or that of the updates. -/
def topic : Bool → String
  | false => Topic.registration
  | true => Topic.update

/-- The subscription to the registrations, or that to the updates. -/
def number (l : Listening) : Bool → Nat
  | false => l.registrations
  | true => l.updates

/-- The subscription that is looked at next. -/
def next (l : Listening) : Nat :=
  l.number l.atUpdates

/-- The listener looks at its next subscription. -/
def look (l : Listening) : Listening :=
  if l.isRunning then
    match l.broker.receive l.next with
    | (.event e, _, broker) =>
      { l with
        broker
        atUpdates := false
        reconciler := l.reconciler.heed e
        taken := l.taken ++ [e] }
    | (.nothing, _, broker) => { l with broker, atUpdates := !l.atUpdates }
    | (.closed, _, broker) => { l with isRunning := false, broker := (l.listener.stop broker).2 }
  else l

/-- What comes of a turn. -/
def turn (l : Listening) : Turn → Listening
  | .other operation => l.meet operation
  | .look => l.look

/-- What comes of some turns, the latest first. -/
def after (l : Listening) : List Turn → Listening
  | [] => l
  | turn :: earlier => (l.after earlier).turn turn

theorem after_append (l : Listening) (later earlier : List Turn) :
    l.after (later ++ earlier) = (l.after earlier).after later := by
  induction later with
  | nil => rfl
  | cons t later ih => exact congrArg (Listening.turn · t) ih

/-! ## Looks without Interruption -/

/-- From one listener to another by looks alone, in which it takes some events. -/
def Looks (l l' : Listening) (events : List Event) : Prop :=
  ∃ count, l' = l.after (List.replicate count .look) ∧ l'.taken = l.taken ++ events ∧
    l'.reconciler = events.foldl Reconciler.heed l.reconciler

theorem Looks.refl (l : Listening) : l.Looks l [] :=
  ⟨0, rfl, (List.append_nil _).symm, rfl⟩

theorem Looks.trans {l m n : Listening} {first second : List Event} (h : l.Looks m first)
    (hrest : m.Looks n second) : l.Looks n (first ++ second) := by
  obtain ⟨i, rfl, htaken, hreconciler⟩ := h
  obtain ⟨j, rfl, htaken', hreconciler'⟩ := hrest
  refine ⟨j + i, ?_, ?_, ?_⟩
  · rw [← List.replicate_append_replicate, after_append]
  · rw [htaken', htaken, List.append_assoc]
  · rw [hreconciler', hreconciler, List.foldl_append]

variable {l : Listening}

theorem look_nothing (hruns : l.isRunning = true) {lost : Nat} {b : Broker}
    (hreceive : l.broker.receive l.next = (.nothing, lost, b)) :
    l.look = { l with broker := b, atUpdates := !l.atUpdates } := by
  rw [look, if_pos hruns, hreceive]

theorem look_event (hruns : l.isRunning = true) {e : Event} {lost : Nat} {b : Broker}
    (hreceive : l.broker.receive l.next = (.event e, lost, b)) :
    l.look = { l with
      broker := b
      atUpdates := false
      reconciler := l.reconciler.heed e
      taken := l.taken ++ [e] } := by
  rw [look, if_pos hruns, hreceive]

theorem look_closed (hruns : l.isRunning = true) {lost : Nat} {b : Broker}
    (hreceive : l.broker.receive l.next = (.closed, lost, b)) :
    l.look = { l with isRunning := false, broker := (l.listener.stop b).2 } := by
  rw [look, if_pos hruns, hreceive]

theorem Looks.once (hruns : l.isRunning = true) {e : Event} {lost : Nat} {b : Broker}
    (hreceive : l.broker.receive l.next = (.event e, lost, b)) : l.Looks l.look [e] := by
  refine ⟨1, rfl, ?_, ?_⟩
  · rw [look_event hruns hreceive]
  · rw [look_event hruns hreceive]
    rfl

/-- A poll is some looks, up to the first event or to the end of the round. -/
def Polls (l : Listening) : Poll × Broker → Prop
  | (.delivery d, b) =>
    ∃ l', l.Looks l' [d.event] ∧ l'.broker = b ∧ l'.atUpdates = false ∧ l'.listener = l.listener
  | (.nothing, b) => ∃ l', l.Looks l' [] ∧ l'.broker = b ∧ l'.listener = l.listener
  | (.ended, b) => ∃ l', l.Looks l' [] ∧ (l'.listener, l'.broker) = l.listener.stop b

/-- If one look finds nothing, the rest of the poll decides. -/
theorem polls_look (hruns : l.isRunning = true) {rest : List Nat}
    (hrest : l.atUpdates = !l.look.atUpdates → l.look.listener = l.listener →
      l.look.Polls (Follower.poll l.look.broker rest)) :
    l.Polls (Follower.poll l.broker (l.next :: rest)) := by
  rcases hreceive : l.broker.receive l.next with ⟨receipt, lost, b⟩
  cases receipt with
  | event e =>
    have heq := look_event hruns hreceive
    simp only [Follower.poll, hreceive]
    refine ⟨l.look, Looks.once hruns hreceive, ?_, ?_, ?_⟩
    · rw [heq]
    · rw [heq]
    · rw [heq]
      rfl
  | closed =>
    have heq := look_closed hruns hreceive
    simp only [Follower.poll, hreceive]
    refine ⟨l.look, ⟨1, rfl, ?_, ?_⟩, ?_⟩
    · rw [heq, List.append_nil]
    · rw [heq]
      rfl
    · rw [heq]
      rfl
  | nothing =>
    have heq := look_nothing hruns hreceive
    have hone : l.Looks l.look [] := by
      refine ⟨1, rfl, ?_, ?_⟩
      · rw [heq, List.append_nil]
      · rw [heq]
        rfl
    have hlistener : l.look.listener = l.listener := by
      rw [heq]
      rfl
    have hbroker : l.look.broker = b := by rw [heq]
    have hat : l.atUpdates = !l.look.atUpdates := by
      rw [heq]
      exact (Bool.not_not _).symm
    have htail := hrest hat hlistener
    simp only [Follower.poll, hreceive]
    rw [hbroker] at htail
    -- The rest of the poll starts from the listener after the look.
    rcases hpoll : Follower.poll b rest with ⟨found, after⟩
    rw [hpoll] at htail
    cases found with
    | delivery d =>
      obtain ⟨l', hlooks, hafter, hround, hsame⟩ := htail
      exact ⟨l', hone.trans hlooks, hafter, hround, hsame.trans hlistener⟩
    | nothing =>
      obtain ⟨l', hlooks, hafter, hsame⟩ := htail
      exact ⟨l', hone.trans hlooks, hafter, hsame.trans hlistener⟩
    | ended =>
      obtain ⟨l', hlooks, hstop⟩ := htail
      rw [hlistener] at hstop
      exact ⟨l', hone.trans hlooks, hstop⟩

/-- A poll of a follower is a round of the listener. -/
theorem polls_round (hruns : l.isRunning = true) (hround : l.atUpdates = false) :
    l.Polls (Follower.poll l.broker l.listener.subscriptions) := by
  have hfirst : l.next = l.registrations := by rw [next, hround]; rfl
  show l.Polls (Follower.poll l.broker [l.registrations, l.updates])
  rw [← hfirst]
  -- The round goes on only if the first look finds nothing; then the second one is its end.
  refine polls_look hruns fun hat hlistener => ?_
  have hruns' : l.look.isRunning = true := by
    have hsame := congrArg Follower.isRunning hlistener
    exact hsame.trans hruns
  have hat' : l.look.atUpdates = true := by
    rw [hround] at hat
    simpa using hat.symm
  have hsecond : l.look.next = l.updates := by
    have hsame := congrArg Follower.subscriptions hlistener
    simp only [listener, List.cons.injEq] at hsame
    rw [next, hat']
    exact hsame.2.1
  rw [← hsecond]
  exact polls_look hruns' fun _ _ => ⟨_, Looks.refl _, rfl, rfl⟩

theorem looks_takeUpTo (fuel : Nat) (hruns : l.isRunning = true) (hround : l.atUpdates = false) :
    ∃ l', l.Looks l' ((Follower.takeUpTo fuel l.listener l.broker).1.map Delivery.event) ∧
      (Follower.takeUpTo fuel l.listener l.broker).2 = (l'.listener, l'.broker) := by
  -- Each event that is taken uses up one unit of fuel and ends a round.
  induction fuel generalizing l with
  | zero => exact ⟨l, Looks.refl l, rfl⟩
  | succ fuel ih =>
    have hpolls := polls_round hruns hround
    rw [Follower.takeUpTo]
    rcases hpoll : Follower.poll l.broker l.listener.subscriptions with ⟨found, b⟩
    rw [hpoll] at hpolls
    cases found with
    | delivery d =>
      obtain ⟨m, hlooks, rfl, hround', hlistener⟩ := hpolls
      have hruns' : m.isRunning = true := (congrArg Follower.isRunning hlistener).trans hruns
      obtain ⟨l', hrest, hend⟩ := ih hruns' hround'
      rw [hlistener] at hrest hend
      exact ⟨l', hlooks.trans hrest, hend⟩
    | nothing =>
      obtain ⟨l', hlooks, rfl, hlistener⟩ := hpolls
      rw [← hlistener]
      exact ⟨l', hlooks, rfl⟩
    | ended =>
      obtain ⟨l', hlooks, hstop⟩ := hpolls
      exact ⟨l', hlooks, hstop.symm⟩

end Listening

/-- Following all events that are there is a number of looks without interruption. -/
theorem Scene.listen_eq_looks (s : Scene) (l : Listening) (hround : l.atUpdates = false)
    (hbroker : l.broker = s.site.broker) (hreconciler : l.reconciler = s.reconciler) :
    ∃ count, ∃ l', l' = l.after (List.replicate count .look) ∧
      s.listen l.listener = (l'.listener,
        { s with site := { s.site with broker := l'.broker }, reconciler := l'.reconciler }) := by
  cases hruns : l.isRunning with
  | false =>
    refine ⟨0, l, rfl, ?_⟩
    rw [hbroker, hreconciler, Scene.listen, Follower.drain]
    simp [Listening.listener, hruns]
  | true =>
    obtain ⟨l', ⟨count, hafter, -, hrec⟩, hend⟩ :=
      l.looks_takeUpTo (l.broker.pendingAll l.listener.subscriptions + 1) hruns hround
    refine ⟨count, l', hafter, ?_⟩
    rw [hreconciler] at hrec
    rw [hbroker] at hrec hend
    have hdrain : l.listener.drain s.site.broker = Follower.takeUpTo
        (s.site.broker.pendingAll l.listener.subscriptions + 1) l.listener s.site.broker := by
      rw [Follower.drain]
      exact if_pos hruns
    simp only [Scene.listen, hdrain, hend, hrec]

end EdgeSync
