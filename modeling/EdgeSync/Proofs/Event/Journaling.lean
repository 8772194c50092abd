import EdgeSync.Observe.Journal
import EdgeSync.Proofs.Event.Patrol
import EdgeSync.Proofs.Event.Waiting
import Mathlib.Data.List.Infix
import Mathlib.Data.List.Nodup
import Mathlib.Data.List.Perm.Subperm

/-!
# What the Journal Logs

The journal goes round its three subscriptions, while others publish, also in the middle of a
round. As long as the broker is there nothing is lost: every event is logged with its own
record, once, and those of each topic as they were published.

## Main definitions

- `Journaling`, `Journaling.meet`, `Journaling.look`: the journal among others
- `Journaling.Finds`: what a look can find
- `Journaling.Logs`: what the journal has logged

## Main results

- `Journaling.run_eq_looks`: to log all events that are there is a number of looks
- `Journaling.Keeps.look`, `Journaling.Keeps.meet`: what a look finds, and what others leave
- `Journaling.Steady.after`, `Journaling.Steady.logs`: after any turns
-/

namespace EdgeSync

open Broker

/-- Whether an operation can be done: once the broker has gone, only subscriptions are left. -/
def Broker.Operation.isPossible (b : Broker) : Operation → Bool
  | .receive _ => true
  | .drop _ => true
  | _ => b.isOpen

/-- The events that a deed brings to the topics. -/
def Broker.Deed.news : Deed → List Event
  | .published e (.ok _) => [e]
  | _ => []

/-- A broker that has gone does not come back. -/
theorem Broker.isOpen_of_perform {b : Broker} {operation : Operation}
    (hopen : (b.perform operation).2.isOpen = true) : b.isOpen = true := by
  cases operation with
  | publish e =>
    simp only [Broker.perform, Broker.publish] at hopen
    split at hopen
    · exact hopen
    · split at hopen <;> exact hopen
  | receive number =>
    simp only [Broker.perform, Broker.receive] at hopen
    split at hopen
    · exact hopen
    · split at hopen <;> exact hopen
  | close => cases hopen
  | subscribe topic => exact hopen
  | drop number => exact hopen

/-! ## The Journal among Others -/

/-- The journal at a broker: what it has logged, the events that were published since it began,
in the order in which they were, and those that it has taken. -/
structure Journaling where
  patrol : Patrol
  broker : Broker
  records : List LogRecord
  heard : List Event
  taken : List Event

namespace Journaling

/-- What comes next: somebody else does something with the broker, or the journal looks. -/
inductive Turn where
  | other (operation : Operation)
  | look
  deriving DecidableEq, Repr

/-- The journal of a broker begins. -/
def start (b : Broker) : Journaling where
  patrol := .of (Journal.start b).1
  broker := (Journal.start b).2
  records := []
  heard := []
  taken := []

/-- The numbers of the subscriptions of the journal. -/
def numbers (l : Journaling) : List Nat :=
  l.patrol.follower.subscriptions

/-- Whether the journal has not ended. -/
def isRunning (l : Journaling) : Bool :=
  l.patrol.follower.isRunning

/-- Somebody else does something with the broker, if it is possible. -/
def meet (l : Journaling) (operation : Operation) : Journaling :=
  if operation.isPossible l.broker then
    let (deed, broker) := l.broker.perform operation
    { l with broker, heard := l.heard ++ deed.news }
  else l

/-- The journal looks at its next subscription, and logs what it finds. -/
def look (l : Journaling) : Journaling :=
  let (found, patrol, broker) := l.patrol.look l.broker
  { l with
    patrol, broker
    records := l.records ++ found.toList.flatMap Delivery.records
    taken := l.taken ++ found.toList.map Delivery.event }

/-- What comes of a turn. -/
def turn (l : Journaling) : Turn → Journaling
  | .other operation => l.meet operation
  | .look => l.look

/-- What comes of some turns, the latest first. -/
def after (l : Journaling) : List Turn → Journaling
  | [] => l
  | turn :: earlier => (l.after earlier).turn turn

theorem after_append (l : Journaling) (later earlier : List Turn) :
    l.after (later ++ earlier) = (l.after earlier).after later := by
  induction later with
  | nil => rfl
  | cons t later ih => exact congrArg (Journaling.turn · t) ih

variable {deeds : List Deed} {l : Journaling} {position number : Nat} {topic : String}

theorem meet_possible {operation : Operation} (hpossible : operation.isPossible l.broker = true) :
    l.meet operation =
      { l with
        broker := (l.broker.perform operation).2
        heard := l.heard ++ (l.broker.perform operation).1.news } :=
  if_pos hpossible

theorem meet_impossible {operation : Operation}
    (himpossible : ¬ operation.isPossible l.broker = true) : l.meet operation = l :=
  if_neg himpossible

/-! ## Looks without Interruption -/

theorem look_of_watches {p p' : Patrol} {b b' : Broker} {found : List Delivery}
    (h : Patrol.Watches false p b found p' b') {l : Journaling} (hpatrol : l.patrol = p)
    (hbroker : l.broker = b) :
    ∃ count, l.after (List.replicate count .look) =
      { l with
        patrol := p'
        broker := b'
        records := l.records ++ found.flatMap Delivery.records
        taken := l.taken ++ found.map Delivery.event } := by
  induction h generalizing l with
  | refl p b =>
    subst hpatrol hbroker
    exact ⟨0, by simp [after]⟩
  | poll hrest ih =>
    subst hpatrol hbroker
    obtain ⟨count, hcount⟩ := ih (l := l.look) rfl rfl
    refine ⟨count + 1, ?_⟩
    rw [← List.replicate_append_replicate, after_append]
    refine hcount.trans ?_
    simp [look, Patrol.poll_open]

/-- To log all events that are there is a number of looks without interruption. -/
theorem run_eq_looks (l : Journaling) (hround : l.patrol.position = 0) :
    ∃ count, ∃ l', l' = l.after (List.replicate count .look) ∧
      Journal.run l.patrol.follower l.broker =
        (l'.records.drop l.records.length, l'.patrol.follower, l'.broker) := by
  have hpatrol : l.patrol = .of l.patrol.follower := by
    rw [Patrol.of, ← hround]
  obtain ⟨count, hcount⟩ :=
    look_of_watches (Patrol.watches_drain l.patrol.follower l.broker) hpatrol rfl
  refine ⟨count, _, rfl, ?_⟩
  rw [hcount]
  simp [Journal.run, Patrol.of]

/-! ## The Queues of the Journal -/

/-- A subscription of the journal, with its place in a round and its topic. -/
def Attends (l : Journaling) (position number : Nat) (topic : String) : Prop :=
  l.numbers[position]? = some number ∧ Journal.topics[position]? = some topic

/-- With the history of the broker, what the journal has taken and what waits for it are the
events that it has heard of. -/
structure Keeps (deeds : List Deed) (l : Journaling) : Prop where
  tells : Tells deeds l.broker
  every : l.numbers.length = Journal.topics.length
  lives : ∀ {position number topic}, l.Attends position number topic → number ∈ live topic deeds
  heard : ∀ {position number topic}, l.Attends position number topic →
    l.heard.filter (fun e => e.topic == topic) =
      l.taken.filter (fun e => e.topic == topic) ++ waiting number deeds

/-- A journal that has just begun has heard of nothing. -/
theorem start_keeps {b : Broker} (h : Tells deeds b) :
    ∃ deeds, Keeps deeds (start b) := by
  have hfirst := h.subscribe Topic.registration
  have hsecond := hfirst.subscribe Topic.update
  have hthird := hsecond.subscribe Topic.stop
  refine ⟨_, hthird, rfl, ?_, ?_⟩
  · intro position number topic hattends
    -- The numbers were given for the topics one after the other.
    have hlive : ∀ p ∈ [b.issued, b.issued + 1, b.issued + 2].zip Journal.topics, p.1 ∈ live p.2
        (.subscribed Topic.stop (b.issued + 2) :: .subscribed Topic.update (b.issued + 1) ::
          .subscribed Topic.registration b.issued :: deeds) := by
      simp [Journal.topics, live, Topic.registration, Topic.update, Topic.stop]
    exact hlive (number, topic) (List.mem_of_getElem? (List.getElem?_zip_eq_some.mpr hattends))
  · -- The numbers are new, and nothing waits for a new number.
    intro position number topic hattends
    have hmem : number ∈ [b.issued, b.issued + 1, b.issued + 2] :=
      List.mem_of_getElem? hattends.1
    have hnew : b.issued ≤ number := by
      simp only [List.mem_cons, List.not_mem_nil, or_false] at hmem
      omega
    exact (h.waiting_unborn hnew).symm

theorem Keeps.exists_topic (h : Keeps deeds l) (hnumber : l.numbers[position]? = some number) :
    ∃ topic, l.Attends position number topic := by
  obtain ⟨hlt, -⟩ := List.getElem?_eq_some_iff.mp hnumber
  rw [h.every] at hlt
  exact ⟨_, hnumber, List.getElem?_eq_getElem hlt⟩

theorem Keeps.exists_number (h : Keeps deeds l) (htopic : Journal.topics[position]? = some topic) :
    ∃ number, l.Attends position number topic := by
  obtain ⟨hlt, -⟩ := List.getElem?_eq_some_iff.mp htopic
  rw [← h.every] at hlt
  exact ⟨_, List.getElem?_eq_getElem hlt, htopic⟩

theorem Attends.mem (h : l.Attends position number topic) : number ∈ l.numbers :=
  List.mem_of_getElem? h.1

/-- Each topic has one place in a round. -/
theorem Attends.position_eq (h : l.Attends position number topic) {position' number' : Nat}
    (h' : l.Attends position' number' topic) : position = position' := by
  have hnodup : Journal.topics.Nodup := by decide
  obtain ⟨hlt, -⟩ := List.getElem?_eq_some_iff.mp h.2
  exact (List.getElem?_inj hlt hnodup).mp (h.2.trans h'.2.symm)

/-- Subscriptions to different topics have different numbers. -/
theorem Keeps.number_ne (h : Keeps deeds l) {position' number' : Nat} {topic' : String}
    (hattends : l.Attends position number topic) (hattends' : l.Attends position' number' topic')
    (hne : topic ≠ topic') : number ≠ number' := by
  rintro rfl
  obtain ⟨s, hs, hat, hnumber⟩ := h.tells.mem_live.mp (h.lives hattends)
  obtain ⟨t, ht, hat', hnumber'⟩ := h.tells.mem_live.mp (h.lives hattends')
  obtain rfl := h.tells.eq_of_number hs ht (hnumber.trans hnumber'.symm)
  exact hne (hat.symm.trans hat')

/-! ## Others -/

theorem bring_eq_news (b : Broker) (operation : Operation) (topic : String) :
    operation.bring topic =
      (b.perform operation).1.news.filter fun e => e.topic == topic := by
  cases operation with
  | publish e =>
    by_cases hright : e.topic = e.payload.topic
    · rw [deed_publish_right hright, Operation.bring]
      by_cases htopic : e.topic = topic
      · simp [Deed.news, htopic, ← hright]
      · simp [Deed.news, htopic]
    · rw [deed_publish_wrong hright, Operation.bring, if_neg fun hboth => hright hboth.1]
      rfl
  | subscribe t => rfl
  | receive n => rfl
  | drop n => rfl
  | close => rfl

/-- What is published belongs to one of the topics. -/
theorem topic_mem_of_news {b : Broker} {operation : Operation} {e : Event}
    (he : e ∈ (b.perform operation).1.news) : e.topic ∈ Journal.topics := by
  cases operation with
  | publish f =>
    by_cases hright : f.topic = f.payload.topic
    · rw [deed_publish_right hright] at he
      obtain rfl := List.mem_singleton.mp he
      rw [hright]
      cases e.payload <;> simp [Payload.topic, Journal.topics]
    · rw [deed_publish_wrong hright] at he
      cases he
  | subscribe t => cases he
  | receive n => cases he
  | drop n => cases he
  | close => cases he

theorem Keeps.meet (h : Keeps deeds l) {operation : Operation}
    (hspares : ∀ number ∈ l.numbers, operation.Spares number) :
    ∃ deeds, Keeps deeds (l.meet operation) := by
  by_cases hpossible : operation.isPossible l.broker = true
  · rw [meet_possible hpossible]
    refine ⟨_, h.tells.perform operation, h.every, ?_, ?_⟩
    · intro position number topic hattends
      exact live_perform (hspares number hattends.mem) (h.lives hattends)
    · intro position number topic hattends
      have hwaiting := h.tells.waiting_perform (hspares number hattends.mem) (h.lives hattends)
      rw [List.filter_append, h.heard hattends, List.append_assoc, hwaiting,
        bring_eq_news l.broker]
  · rw [meet_impossible hpossible]
    exact ⟨deeds, h⟩

/-! ## Looks -/

/-- No more events wait for the journal than the buffer holds. -/
def Fits (l : Journaling) : Prop :=
  ∀ number ∈ l.numbers, l.broker.pending number ≤ l.broker.buffer

instance (l : Journaling) : Decidable l.Fits :=
  inferInstanceAs (Decidable (∀ number ∈ l.numbers, _))

/-- A new round begins. -/
def goRound (l : Journaling) : Journaling :=
  { l with patrol := .of l.patrol.follower }

/-- The next subscription of the round is looked at next. -/
def goOn (l : Journaling) : Journaling :=
  { l with patrol := { l.patrol with position := l.patrol.position + 1 } }

/-- An event is taken and logged, and a new round begins. -/
def log (l : Journaling) (e : Event) (broker : Broker) : Journaling :=
  { l.goRound with broker, records := l.records ++ [e.record], taken := l.taken ++ [e] }

/-- The journal ends. -/
def finish (l : Journaling) : Journaling :=
  { l with patrol := (l.patrol.stop l.broker).1, broker := (l.patrol.stop l.broker).2 }

/-- What a look of a running journal can find. -/
inductive Finds (deeds : List Deed) (l : Journaling) : Journaling → Prop
  /-- The round is over. -/
  | around (hend : Journal.topics[l.patrol.position]? = none) : Finds deeds l l.goRound
  /-- The first event that waits is logged. -/
  | event {number : Nat} {topic : String} {e : Event} {rest : List Event} {broker : Broker}
      (hattends : l.Attends l.patrol.position number topic)
      (hwaiting : waiting number deeds = e :: rest) (htopic : e.topic = topic)
      (htells : Tells (.received number (.event e) 0 :: deeds) broker) :
    Finds deeds l (l.log e broker)
  /-- Nothing waits, and the journal goes on. -/
  | nothing {number : Nat} {topic : String} (hattends : l.Attends l.patrol.position number topic)
      (hwaiting : waiting number deeds = []) (hopen : l.broker.isOpen = true) :
    Finds deeds l l.goOn
  /-- Nothing waits, and the broker has gone. -/
  | closed {number : Nat} {topic : String} (hattends : l.Attends l.patrol.position number topic)
      (hwaiting : waiting number deeds = []) (hclosed : l.broker.isOpen = false) :
    Finds deeds l l.finish

/-- An event that waits belongs to the topic of its queue. -/
theorem Keeps.topic_eq (h : Keeps deeds l) (hattends : l.Attends position number topic) {e : Event}
    (he : e ∈ waiting number deeds) : e.topic = topic := by
  have hmem : e ∈ l.heard.filter (fun e => e.topic == topic) := by
    rw [h.heard hattends]
    exact List.mem_append_right _ he
  exact eq_of_beq (List.mem_filter.mp hmem).2

theorem Keeps.look (h : Keeps deeds l) (hruns : l.isRunning = true) (hfits : l.Fits) :
    Finds deeds l l.look := by
  -- First by whether the round is over, then by what waits, and by whether the broker has gone.
  cases hat : l.numbers[l.patrol.position]? with
  | none =>
    have hend : Journal.topics[l.patrol.position]? = none := by
      rw [List.getElem?_eq_none_iff] at hat ⊢
      rwa [← h.every]
    have hlook : l.look = l.goRound := by
      simp [Journaling.look, Patrol.look_around hruns hat, goRound]
    rw [hlook]
    exact .around hend
  | some number =>
    obtain ⟨topic, hattends⟩ := h.exists_topic hat
    have hlive := h.lives hattends
    cases hwaiting : waiting number deeds with
    | nil =>
      have hreceive := h.tells.receive_nothing hlive hwaiting
      cases hopen : l.broker.isOpen with
      | true =>
        rw [hopen] at hreceive
        have hlook : l.look = l.goOn := by
          simp [Journaling.look, Patrol.look_nothing hruns hat hreceive, goOn]
        rw [hlook]
        exact .nothing hattends hwaiting hopen
      | false =>
        rw [hopen] at hreceive
        have hlook : l.look = l.finish := by
          simp [Journaling.look, Patrol.look_closed hruns hat hreceive, finish]
        rw [hlook]
        exact .closed hattends hwaiting hopen
    | cons e rest =>
      obtain ⟨broker, hreceive, htells⟩ :=
        h.tells.receive_first hlive hwaiting (hfits number hattends.mem)
      have htopic : e.topic = topic := by
        apply h.topic_eq hattends
        rw [hwaiting]
        exact List.mem_cons_self
      have hlook : l.look = l.log e broker := by
        simp [Journaling.look, Patrol.look_event hruns hat hreceive, Delivery.records,
          Follower.lossOf, log, goRound]
      rw [hlook]
      exact .event hattends hwaiting htopic htells

/-! ## What a Look Leaves -/

/-- A journal that has not ended keeps its queues. -/
theorem Finds.keeps {l' : Journaling} (hfinds : Finds deeds l l') (h : Keeps deeds l)
    (hruns : l'.isRunning = true) : ∃ deeds, Keeps deeds l' := by
  cases hfinds with
  | around hend => exact ⟨deeds, h.tells, h.every, h.lives, h.heard⟩
  | nothing hattends hwaiting hopen => exact ⟨deeds, h.tells, h.every, h.lives, h.heard⟩
  | closed hattends hwaiting hclosed => cases hruns
  | @event number topic e rest broker hattends hwaiting htopic htells =>
    refine ⟨_, htells, h.every, h.lives, ?_⟩
    intro position' number' topic' hattends'
    show l.heard.filter _ = (l.taken ++ [e]).filter _ ++ _
    by_cases heq : topic' = topic
    · -- The queue of the event gives its first one away.
      subst heq
      obtain rfl := hattends.position_eq hattends'
      obtain rfl : number = number' := Option.some.inj (hattends.1.symm.trans hattends'.1)
      rw [waiting_received_self, hwaiting, List.tail_cons, filter_snoc_self htopic,
        h.heard hattends, hwaiting, List.append_assoc]
      rfl
    · have hne := h.number_ne hattends hattends' (Ne.symm heq)
      rw [waiting_received_other hne, filter_snoc_other (by rw [htopic]; exact Ne.symm heq)]
      exact h.heard hattends'

/-! ## What the Journal Has Logged -/

/-- Nothing waits for the journal. -/
def Drained (l : Journaling) : Prop :=
  ∀ number ∈ l.numbers, l.broker.pending number = 0

instance (l : Journaling) : Decidable l.Drained :=
  inferInstanceAs (Decidable (∀ number ∈ l.numbers, _))

/-- What a journal has logged of the events that were published since it began. -/
structure Logs (l : Journaling) : Prop where
  /-- Each event that it has taken is logged by the record of its own. -/
  records : l.records = l.taken.map Event.record
  /-- No event is taken more often than it was published. -/
  once : l.taken.Subperm l.heard
  /-- The events of each topic are taken as they were published, and none is passed over. -/
  ordered : ∀ topic, l.taken.filter (fun e => e.topic == topic) <+:
    l.heard.filter fun e => e.topic == topic
  /-- The journal runs until the broker has gone. -/
  runs : l.broker.isOpen = true → l.isRunning = true
  /-- As long as it runs, all events are logged as soon as none is pending. -/
  complete : l.isRunning = true → l.Drained → l.taken.Perm l.heard

/-- What every turn keeps. -/
structure Steady (l : Journaling) : Prop where
  records : l.records = l.taken.map Event.record
  ordered : ∀ topic, l.taken.filter (fun e => e.topic == topic) <+:
    l.heard.filter fun e => e.topic == topic
  known : ∀ e ∈ l.heard, e.topic ∈ Journal.topics
  runs : l.broker.isOpen = true → l.isRunning = true
  keeps : l.isRunning = true → ∃ deeds, Keeps deeds l

theorem start_steady {b : Broker} (h : Tells deeds b) : Steady (start b) :=
  ⟨rfl, fun _ => List.prefix_refl _, nofun, fun _ => rfl, fun _ => start_keeps h⟩

theorem Steady.meet (h : Steady l) {operation : Operation}
    (hspares : ∀ number ∈ l.numbers, operation.Spares number) : Steady (l.meet operation) := by
  have hkeeps (hruns : l.isRunning = true) : ∃ deeds, Keeps deeds (l.meet operation) := by
    obtain ⟨deeds, hkeeps⟩ := h.keeps hruns
    exact hkeeps.meet hspares
  by_cases hpossible : operation.isPossible l.broker = true
  · rw [meet_possible hpossible] at hkeeps ⊢
    refine ⟨h.records, ?_, ?_, ?_, hkeeps⟩
    · intro topic
      rw [List.filter_append]
      exact (h.ordered topic).trans (List.prefix_append _ _)
    · intro e he
      rcases List.mem_append.mp he with hold | hnew
      · exact h.known e hold
      · exact topic_mem_of_news hnew
    · intro hopen
      exact h.runs (isOpen_of_perform hopen)
  · rw [meet_impossible hpossible]
    exact h

/-- Dropping subscriptions leaves the broker to all others. -/
theorem isOpen_stop (p : Patrol) (b : Broker) : (p.stop b).2.isOpen = b.isOpen := by
  show (List.foldl (fun b number => (b.drop number).2) b p.follower.subscriptions).isOpen = _
  induction p.follower.subscriptions generalizing b with
  | nil => rfl
  | cons number rest ih => exact ih (b.drop number).2

/-- A journal that has ended does not look. -/
theorem look_ended (hended : l.isRunning = false) : l.look = l := by
  simp [Journaling.look, Patrol.look_ended hended]

/-- A look of a running journal leaves it running, unless the broker has gone. -/
theorem Finds.runs {l' : Journaling} (hfinds : Finds deeds l l') (hruns : l.isRunning = true)
    (hopen : l'.broker.isOpen = true) : l'.isRunning = true := by
  cases hfinds with
  | closed hattends hwaiting hclosed =>
    have hgone : l.finish.broker.isOpen = false := (isOpen_stop l.patrol l.broker).trans hclosed
    exact absurd hopen (by simp [hgone])
  | _ => exact hruns

theorem Finds.records {l' : Journaling} (hfinds : Finds deeds l l')
    (h : l.records = l.taken.map Event.record) : l'.records = l'.taken.map Event.record := by
  cases hfinds with
  | @event number topic e rest broker hattends hwaiting htopic htells =>
    show l.records ++ [e.record] = (l.taken ++ [e]).map Event.record
    rw [h, List.map_append, List.map_singleton]
  | _ => exact h

theorem Finds.heard {l' : Journaling} (hfinds : Finds deeds l l') : l'.heard = l.heard := by
  cases hfinds with
  | _ => rfl

theorem Finds.ordered {l' : Journaling} (hfinds : Finds deeds l l') (hkeeps : Keeps deeds l)
    (h : ∀ topic, l.taken.filter (fun e => e.topic == topic) <+:
      l.heard.filter fun e => e.topic == topic) (topic : String) :
    l'.taken.filter (fun e => e.topic == topic) <+: l'.heard.filter fun e => e.topic == topic := by
  cases hfinds with
  | @event number topic' e rest broker hattends hwaiting htopic htells =>
    show (l.taken ++ [e]).filter _ <+: l.heard.filter _
    by_cases heq : topic' = topic
    · -- The event is the one that comes next in its topic.
      subst heq
      rw [filter_snoc_self htopic, hkeeps.heard hattends, hwaiting, List.append_cons _ e rest]
      exact List.prefix_append _ _
    · rw [filter_snoc_other (by rwa [htopic])]
      exact h topic
  | _ => exact h topic

theorem Steady.look (h : Steady l) (hfits : l.Fits) : Steady l.look := by
  cases hruns : l.isRunning with
  | false =>
    rw [look_ended hruns]
    exact h
  | true =>
    obtain ⟨deeds, hkeeps⟩ := h.keeps hruns
    have hfinds := hkeeps.look hruns hfits
    refine ⟨hfinds.records h.records, hfinds.ordered hkeeps h.ordered, ?_, hfinds.runs hruns,
      hfinds.keeps hkeeps⟩
    rw [hfinds.heard]
    exact h.known

/-- Events that are in order topic by topic are no more than those that they are taken from. -/
theorem subperm_of_prefix {taken heard : List Event}
    (h : ∀ topic, taken.filter (fun e => e.topic == topic) <+:
      heard.filter fun e => e.topic == topic) : taken.Subperm heard := by
  rw [List.subperm_ext_iff]
  intro e _
  have hcount := (h e.topic).sublist.count_le e
  rwa [List.count_filter (by simp), List.count_filter (by simp)] at hcount

theorem Steady.logs (h : Steady l) : Logs l := by
  have hsub := subperm_of_prefix h.ordered
  refine ⟨h.records, hsub, h.ordered, h.runs, fun hruns hdrained => ?_⟩
  obtain ⟨deeds, hkeeps⟩ := h.keeps hruns
  refine hsub.antisymm (List.subperm_ext_iff.mpr fun e he => ?_)
  -- Nothing waits at the topic of an event that was heard of.
  obtain ⟨position, htopic⟩ := List.getElem?_of_mem (h.known e he)
  obtain ⟨number, hattends⟩ := hkeeps.exists_number htopic
  have hnone : waiting number deeds = [] := by
    rw [← List.length_eq_zero_iff, ← hkeeps.tells.pending_eq (hkeeps.lives hattends)]
    exact hdrained number hattends.mem
  have hheard := hkeeps.heard hattends
  rw [hnone, List.append_nil] at hheard
  have hcount := congrArg (List.count e) hheard
  rw [List.count_filter (by simp), List.count_filter (by simp)] at hcount
  exact hcount.le

/-! ## All Turns -/

/-- A turn in which nobody else receives from the subscriptions of the journal or drops them. -/
def Turn.Spares (l : Journaling) : Turn → Prop
  | .other operation => ∀ number ∈ l.numbers, operation.Spares number
  | .look => True

instance (l : Journaling) : (t : Turn) → Decidable (t.Spares l)
  | .other operation => inferInstanceAs (Decidable (∀ number ∈ l.numbers, operation.Spares number))
  | .look => inferInstanceAs (Decidable True)

theorem numbers_turn (l : Journaling) (t : Turn) : (l.turn t).numbers = l.numbers := by
  cases t with
  | other operation =>
    show (l.meet operation).numbers = l.numbers
    rw [Journaling.meet]
    split <;> rfl
  | look => exact Patrol.subscriptions_look l.patrol l.broker

theorem numbers_after (l : Journaling) (turns : List Turn) :
    (l.after turns).numbers = l.numbers := by
  induction turns with
  | nil => rfl
  | cons t earlier ih => exact (numbers_turn _ t).trans ih

theorem Steady.after (h : Steady l) {turns : List Turn} (hspares : ∀ t ∈ turns, t.Spares l)
    (hfits : ∀ earlier ∈ turns.tails, (l.after earlier).Fits) : Steady (l.after turns) := by
  induction turns with
  | nil => exact h
  | cons t earlier ih =>
    rw [List.tails_cons, List.forall_mem_cons] at hfits
    rw [List.forall_mem_cons] at hspares
    have hearlier := ih hspares.2 hfits.2
    cases t with
    | other operation =>
      apply hearlier.meet
      rw [numbers_after]
      exact hspares.1
    | look =>
      apply hearlier.look
      exact hfits.2 earlier ((List.mem_tails earlier earlier).mpr (List.suffix_refl earlier))

end Journaling

end EdgeSync
