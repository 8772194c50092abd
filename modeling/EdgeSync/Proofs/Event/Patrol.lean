import EdgeSync.Event.Follower

/-!
# Patrols

A follower does not take all events at once. It goes round its subscriptions and looks at one
after the other; others may do something with the broker between any two looks, also in the
middle of a round. After an event it begins a new round. At the end of a round it waits until
there is something new; to look once more while there is nothing does no harm.

## Main definitions

- `Patrol`, `Patrol.look`: a follower on its round, and one look
- `Patrol.Watches`: several looks between which nothing else happens

## Main results

- `Patrol.watches_drain`: to take all events that are there is a number of looks
-/

namespace EdgeSync

/-- A follower on its round, with the position of the subscription that it looks at next. -/
structure Patrol where
  follower : Follower
  position : Nat
  deriving DecidableEq, Repr

namespace Patrol

/-- A follower that begins a round. -/
def of (f : Follower) : Patrol := ⟨f, 0⟩

/-- The patrol ends, and with it its subscriptions. -/
def stop (p : Patrol) (b : Broker) : Patrol × Broker :=
  let (f, b) := p.follower.stop b
  (.of f, b)

/-- Look at the next subscription, or begin a new round if there is none. -/
def look (p : Patrol) (b : Broker) : Option Delivery × Patrol × Broker :=
  if p.follower.isRunning then
    match p.follower.subscriptions[p.position]? with
    | none => (none, .of p.follower, b)
    | some number =>
      match b.receive number with
      | (.event e, lost, b) => (some ⟨Follower.lossOf e.topic lost, e⟩, .of p.follower, b)
      | (.nothing, _, b) => (none, { p with position := p.position + 1 }, b)
      | (.closed, _, b) => (none, p.stop b)
  else (none, p, b)

/-- A follower with a scope looks at it at the beginning of a round, and ends if it is canceled. -/
def poll (p : Patrol) (isCanceled : Bool) (b : Broker) : Option Delivery × Patrol × Broker :=
  if isCanceled && p.follower.isRunning && p.position == 0 then (none, p.stop b) else p.look b

variable {p : Patrol} {b : Broker}

/-! ## What a Look Finds -/

theorem look_ended (h : p.follower.isRunning = false) : p.look b = (none, p, b) := by
  rw [look, h]
  rfl

theorem look_around (hruns : p.follower.isRunning = true)
    (h : p.follower.subscriptions[p.position]? = none) :
    p.look b = (none, .of p.follower, b) := by
  rw [look, if_pos hruns, h]

variable {number lost : Nat} {after : Broker}

theorem look_event (hruns : p.follower.isRunning = true)
    (hat : p.follower.subscriptions[p.position]? = some number) {e : Event}
    (h : b.receive number = (.event e, lost, after)) :
    p.look b = (some ⟨Follower.lossOf e.topic lost, e⟩, .of p.follower, after) := by
  rw [look, if_pos hruns, hat]
  simp only [h]

theorem look_nothing (hruns : p.follower.isRunning = true)
    (hat : p.follower.subscriptions[p.position]? = some number)
    (h : b.receive number = (.nothing, lost, after)) :
    p.look b = (none, { p with position := p.position + 1 }, after) := by
  rw [look, if_pos hruns, hat]
  simp only [h]

theorem look_closed (hruns : p.follower.isRunning = true)
    (hat : p.follower.subscriptions[p.position]? = some number)
    (h : b.receive number = (.closed, lost, after)) :
    p.look b = (none, p.stop after) := by
  rw [look, if_pos hruns, hat]
  simp only [h]

/-- A follower keeps the numbers of its subscriptions. -/
theorem subscriptions_look (p : Patrol) (b : Broker) :
    (p.look b).2.1.follower.subscriptions = p.follower.subscriptions := by
  unfold look
  split
  · split
    · rfl
    · split <;> rfl
  · rfl

theorem poll_open (p : Patrol) (b : Broker) : p.poll false b = p.look b := rfl

/-- A follower that has ended does nothing. -/
theorem poll_ended (hended : p.follower.isRunning = false) (isCanceled : Bool) (b : Broker) :
    p.poll isCanceled b = (none, p, b) := by
  rw [poll, hended, look_ended hended]
  cases isCanceled <;> rfl

/-- A follower at the beginning of a round ends if its scope is canceled. -/
theorem poll_canceled (hruns : p.follower.isRunning = true) (hround : p.position = 0)
    (b : Broker) : p.poll true b = (none, p.stop b) := by
  rw [poll, hruns, hround]
  rfl

/-! ## Looks without Interruption -/

/-- From one patrol to another by polls alone, which find some events. -/
inductive Watches (isCanceled : Bool) : Patrol → Broker → List Delivery → Patrol → Broker → Prop
  | refl (p : Patrol) (b : Broker) : Watches isCanceled p b [] p b
  | poll {p p' : Patrol} {b b' : Broker} {found : List Delivery}
      (hrest : Watches isCanceled (p.poll isCanceled b).2.1 (p.poll isCanceled b).2.2 found p' b') :
      Watches isCanceled p b ((p.poll isCanceled b).1.toList ++ found) p' b'

variable {isCanceled : Bool}

theorem Watches.trans {p q r : Patrol} {b c d : Broker} {first second : List Delivery}
    (h : Watches isCanceled p b first q c) (hrest : Watches isCanceled q c second r d) :
    Watches isCanceled p b (first ++ second) r d := by
  induction h with
  | refl p b => exact hrest
  | poll _ ih =>
    rw [List.append_assoc]
    exact .poll (ih hrest)

/-- A poll whose result is known. -/
theorem Watches.step {p' p'' : Patrol} {b' b'' : Broker} {found : List Delivery}
    {d : Option Delivery} (hpoll : p.poll isCanceled b = (d, p', b'))
    (hrest : Watches isCanceled p' b' found p'' b'') :
    Watches isCanceled p b (d.toList ++ found) p'' b'' := by
  have h : Watches isCanceled (p.poll isCanceled b).2.1 (p.poll isCanceled b).2.2 found p''
      b'' := by
    rw [hpoll]
    exact hrest
  have hall := h.poll
  rwa [hpoll] at hall

theorem Watches.look {p' p'' : Patrol} {b' b'' : Broker} {found : List Delivery}
    {d : Option Delivery} (hlook : p.look b = (d, p', b'))
    (hrest : Watches false p' b' found p'' b'') :
    Watches false p b (d.toList ++ found) p'' b'' :=
  .step ((poll_open p b).trans hlook) hrest

/-- A poll of the subscriptions that are left of a round is some looks. -/
theorem watches_poll {f : Follower} (hruns : f.isRunning = true) (front : List Nat)
    {rest : List Nat} (hall : f.subscriptions = front ++ rest) (b : Broker) :
    match Follower.poll b rest with
    | (.delivery d, after) => Watches false ⟨f, front.length⟩ b [d] (.of f) after
    | (.nothing, after) => Watches false ⟨f, front.length⟩ b [] (.of f) after
    | (.ended, after) =>
      Watches false ⟨f, front.length⟩ b [] (Patrol.stop (.of f) after).1
        (Patrol.stop (.of f) after).2 := by
  induction rest generalizing front b with
  | nil =>
    have hend : f.subscriptions[front.length]? = none := by simp [hall]
    exact .look (look_around hruns hend) (.refl _ _)
  | cons number rest ih =>
    have hat : f.subscriptions[front.length]? = some number := by simp [hall]
    rw [Follower.poll]
    rcases hreceive : b.receive number with ⟨receipt, lost, after⟩
    cases receipt with
    | event e => exact .look (look_event hruns hat hreceive) (.refl _ _)
    | closed => exact .look (look_closed hruns hat hreceive) (.refl _ _)
    | nothing =>
      -- The look goes on to the next subscription, and the rest of the poll decides.
      have hlook := look_nothing (p := ⟨f, front.length⟩) hruns hat hreceive
      have hrest := ih (front ++ [number]) (by rw [hall, List.append_cons]) after
      rw [List.length_append, List.length_singleton] at hrest
      dsimp only
      rcases hpoll : Follower.poll after rest with ⟨found, last⟩
      rw [hpoll] at hrest
      cases found with
      | delivery d => exact .look hlook hrest
      | nothing => exact .look hlook hrest
      | ended => exact .look hlook hrest

theorem watches_takeUpTo (fuel : Nat) {f : Follower} (hruns : f.isRunning = true) (b : Broker) :
    Watches false (.of f) b (f.takeUpTo fuel b).1 (.of (f.takeUpTo fuel b).2.1)
      (f.takeUpTo fuel b).2.2 := by
  -- Each event that is taken uses up one unit of fuel and ends a round.
  induction fuel generalizing b with
  | zero => exact .refl _ _
  | succ fuel ih =>
    have hpoll := watches_poll hruns [] rfl b
    rw [Follower.takeUpTo]
    rcases hfound : Follower.poll b f.subscriptions with ⟨found, after⟩
    rw [hfound] at hpoll
    cases found with
    | delivery d => exact hpoll.trans (ih after)
    | nothing => exact hpoll
    | ended => exact hpoll

/-- To take all events that are there is a number of looks. -/
theorem watches_drain (f : Follower) (b : Broker) :
    Watches false (.of f) b (f.drain b).1 (.of (f.drain b).2.1) (f.drain b).2.2 := by
  rw [Follower.drain]
  split
  · next hruns => exact watches_takeUpTo _ hruns b
  · exact .refl _ _

/-! ## The End -/

/-- A look ends the follower, or begins a new round, or goes on with one that is not over. -/
theorem look_cases (hruns : p.follower.isRunning = true) (b : Broker) :
    (p.look b).2.1.follower.isRunning = false ∨ (p.look b).2.1 = .of p.follower ∨
      p.position < p.follower.subscriptions.length ∧
        (p.look b).2.1 = { p with position := p.position + 1 } := by
  cases hat : p.follower.subscriptions[p.position]? with
  | none =>
    rw [look_around hruns hat]
    exact .inr (.inl rfl)
  | some number =>
    rcases hreceive : b.receive number with ⟨receipt, lost, after⟩
    cases receipt with
    | event e =>
      rw [look_event hruns hat hreceive]
      exact .inr (.inl rfl)
    | nothing =>
      obtain ⟨hlt, -⟩ := List.getElem?_eq_some_iff.mp hat
      rw [look_nothing hruns hat hreceive]
      exact .inr (.inr ⟨hlt, rfl⟩)
    | closed =>
      rw [look_closed hruns hat hreceive]
      exact .inl rfl

/-- At the beginning of a round a follower with a canceled scope ends at once. -/
theorem watches_end_round (f : Follower) (b : Broker) :
    ∃ p b', Watches true (.of f) b [] p b' ∧ p.follower.isRunning = false := by
  cases hruns : f.isRunning with
  | false => exact ⟨.of f, b, .refl _ _, hruns⟩
  | true =>
    have hpoll := poll_canceled (p := .of f) hruns rfl b
    exact ⟨_, _, .step hpoll (.refl _ _), rfl⟩

/-- A follower with a canceled scope ends, wherever it is in its round. -/
theorem watches_end (p : Patrol) (b : Broker) :
    ∃ found p' b', Watches true p b found p' b' ∧ p'.follower.isRunning = false := by
  by_cases hruns : p.follower.isRunning = true
  · by_cases hround : p.position = 0
    · have hp : p = .of p.follower := by rw [of, ← hround]
      obtain ⟨p', b', hwatches, hended⟩ := watches_end_round p.follower b
      rw [← hp] at hwatches
      exact ⟨_, p', b', hwatches, hended⟩
    · -- The round that it is in has an end, and in the next one it looks at the scope.
      have hpoll : p.poll true b = ((p.look b).1, (p.look b).2.1, (p.look b).2.2) := by
        simp [poll, hround]
      rcases look_cases hruns b with hended | hnew | ⟨hlt, hnext⟩
      · exact ⟨_, _, _, .step hpoll (.refl _ _), hended⟩
      · rw [hnew] at hpoll
        obtain ⟨p', b', hwatches, hended⟩ := watches_end_round p.follower (p.look b).2.2
        exact ⟨_, p', b', .step hpoll hwatches, hended⟩
      · rw [hnext] at hpoll
        obtain ⟨found, p', b', hwatches, hended⟩ :=
          watches_end { p with position := p.position + 1 } (p.look b).2.2
        exact ⟨_, p', b', .step hpoll hwatches, hended⟩
  · exact ⟨[], p, b, .refl p b, Bool.not_eq_true _ |>.mp hruns⟩
termination_by p.follower.subscriptions.length - p.position

end Patrol

end EdgeSync
