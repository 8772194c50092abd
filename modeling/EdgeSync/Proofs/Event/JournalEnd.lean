import EdgeSync.Proofs.Event.Journaling

/-!
# The End of the Journal

When the broker goes, the journal takes what is pending until it looks at a subscription for
which nothing is. This one ends it, whatever waits for the others: all registrations are still
logged, unless it is in the middle of a round, but of the updates and the requests to stop at
most the one that it looks at next.

## Main definitions

- `Journaling.plan`: what the journal still takes if the broker goes now
- `Journaling.Ends`: what it comes to after that

## Main results

- `Journaling.Finds.taken_append_plan`: the plan is followed
- `Journaling.Closes.look`, `Journaling.Closes.meet`: each turn keeps to it
- `Journaling.logs_after`: after any turns
- `Journaling.pending_update_lost`: not every event is logged
-/

namespace EdgeSync

open Broker

namespace Journaling

variable {deeds : List Deed} {l : Journaling} {position number : Nat} {topic : String}

/-! ## Plans -/

/-- The events of a topic that the journal has heard of and not taken. -/
def left (l : Journaling) (topic : String) : List Event :=
  (l.heard.filter fun e => e.topic == topic).drop
    (l.taken.filter fun e => e.topic == topic).length

/-- What the journal still takes if the broker goes now. At the beginning of a round these are
all registrations. In the middle of a round the first event of the subscription that it looks at
next comes before them; if that subscription has none, it is nothing at all. -/
def plan (l : Journaling) : List Event :=
  if l.isRunning then
    if l.patrol.position = 0 then l.left Topic.registration
    else
      match Journal.topics[l.patrol.position]? with
      | none => l.left Topic.registration
      | some topic => (l.left topic).head?.toList.flatMap fun e => e :: l.left Topic.registration
  else []

theorem Keeps.left_eq (h : Keeps deeds l) (hattends : l.Attends position number topic) :
    l.left topic = waiting number deeds := by
  rw [left, h.heard hattends, List.drop_left]

theorem left_snoc_self {e : Event} {rest : List Event} (htopic : e.topic = topic)
    (hleft : l.left topic = e :: rest) : left { l with taken := l.taken ++ [e] } topic = rest := by
  rw [left, filter_snoc_self htopic, List.length_append, List.length_singleton, ← List.drop_drop]
  exact congrArg (List.drop 1) hleft

theorem left_snoc_other {e : Event} (hother : e.topic ≠ topic) :
    left { l with taken := l.taken ++ [e] } topic = l.left topic := by
  rw [left, filter_snoc_other hother, left]

theorem plan_ended (hended : l.isRunning = false) : l.plan = [] := by
  rw [plan, hended]
  rfl

/-- At the beginning of a round. -/
theorem plan_round (hruns : l.isRunning = true)
    (hround : l.patrol.position = 0 ∨ Journal.topics[l.patrol.position]? = none) :
    l.plan = l.left Topic.registration := by
  rw [plan, if_pos hruns]
  rcases hround with hfirst | hend
  · rw [if_pos hfirst]
  · rw [hend, ite_self]

/-- In the middle of a round. -/
theorem plan_middle (hruns : l.isRunning = true) (hmiddle : l.patrol.position ≠ 0)
    (htopic : Journal.topics[l.patrol.position]? = some topic) :
    l.plan = (l.left topic).head?.toList.flatMap fun e => e :: l.left Topic.registration := by
  rw [plan, if_pos hruns, if_neg hmiddle, htopic]

/-- The first topic of a round. -/
theorem Attends.topic_eq (h : l.Attends position number topic) :
    position = 0 ↔ topic = Topic.registration := by
  have hnodup : Journal.topics.Nodup := by decide
  have hfirst : Journal.topics[0]? = some Topic.registration := rfl
  constructor
  · rintro rfl
    exact Option.some.inj (h.2.symm.trans hfirst)
  · rintro rfl
    obtain ⟨hlt, -⟩ := List.getElem?_eq_some_iff.mp h.2
    exact (List.getElem?_inj hlt hnodup).mp (h.2.trans hfirst.symm)

theorem Keeps.plan_nil (h : Keeps deeds l) (hruns : l.isRunning = true)
    (hattends : l.Attends l.patrol.position number topic) (hwaiting : waiting number deeds = []) :
    l.plan = [] := by
  have hleft := (h.left_eq hattends).trans hwaiting
  by_cases hfirst : l.patrol.position = 0
  · rw [plan_round hruns (.inl hfirst), ← hattends.topic_eq.mp hfirst, hleft]
  · rw [plan_middle hruns hfirst hattends.2, hleft]
    rfl

/-- The first event of a plan, and the rest of it. -/
theorem Keeps.plan_cons (h : Keeps deeds l) (hruns : l.isRunning = true)
    (hattends : l.Attends l.patrol.position number topic) {e : Event} {rest : List Event}
    (hwaiting : waiting number deeds = e :: rest) (htopic : e.topic = topic) :
    l.plan = e :: left { l with taken := l.taken ++ [e] } Topic.registration := by
  have hleft := (h.left_eq hattends).trans hwaiting
  by_cases hfirst : l.patrol.position = 0
  · have hregistration := hattends.topic_eq.mp hfirst
    subst hregistration
    rw [plan_round hruns (.inl hfirst), left_snoc_self htopic hleft, hleft]
  · have hother : e.topic ≠ Topic.registration := by
      rw [htopic]
      exact fun heq => hfirst (hattends.topic_eq.mpr heq)
    rw [plan_middle hruns hfirst hattends.2, hleft, left_snoc_other hother]
    exact List.append_nil _

/-- After the first event of its plan the journal follows the rest. -/
theorem Finds.taken_append_plan {l' : Journaling} (hfinds : Finds deeds l l')
    (hkeeps : Keeps deeds l) (hruns : l.isRunning = true) (hclosed : l.broker.isOpen = false) :
    l'.taken ++ l'.plan = l.taken ++ l.plan := by
  cases hfinds with
  | around hend =>
    have hplan := plan_round (l := l.goRound) hruns (.inl rfl)
    rw [hplan, plan_round hruns (.inr hend)]
    rfl
  | nothing hattends hwaiting hopen => exact absurd hopen (by simp [hclosed])
  | closed hattends hwaiting hgone =>
    have hplan := plan_ended (l := l.finish) rfl
    rw [hplan, hkeeps.plan_nil hruns hattends hwaiting]
    rfl
  | @event number topic e rest broker hattends hwaiting htopic htells =>
    have hplan := plan_round (l := l.log e broker) hruns (.inl rfl)
    rw [hplan, hkeeps.plan_cons hruns hattends hwaiting htopic, List.append_cons l.taken]
    rfl

/-- The number of looks up to the end once the broker has gone, at most. -/
def looksToEnd (l : Journaling) : Nat :=
  if l.isRunning then
    l.plan.length + if Journal.topics[l.patrol.position]? = none then 2 else 1
  else 0

theorem looksToEnd_le (l : Journaling) : l.looksToEnd ≤ l.plan.length + 2 := by
  rw [looksToEnd]
  split
  · split <;> omega
  · omega

theorem lt_looksToEnd (hruns : l.isRunning = true) : l.plan.length < l.looksToEnd := by
  rw [looksToEnd, if_pos hruns]
  split <;> omega

theorem looksToEnd_first (hruns : l.isRunning = true) (hfirst : l.patrol.position = 0) :
    l.looksToEnd = l.plan.length + 1 := by
  rw [looksToEnd, if_pos hruns, hfirst]
  rfl

theorem looksToEnd_around (hruns : l.isRunning = true)
    (hend : Journal.topics[l.patrol.position]? = none) : l.looksToEnd = l.plan.length + 2 := by
  rw [looksToEnd, if_pos hruns, if_pos hend]

theorem looksToEnd_ended (hended : l.isRunning = false) : l.looksToEnd = 0 := by
  rw [looksToEnd, hended]
  rfl

theorem Finds.looksToEnd_lt {l' : Journaling} (hfinds : Finds deeds l l') (hkeeps : Keeps deeds l)
    (hruns : l.isRunning = true) (hclosed : l.broker.isOpen = false) :
    l'.looksToEnd < l.looksToEnd := by
  -- What is taken is no longer planned, so each event shortens the plan.
  have hplan := congrArg List.length (hfinds.taken_append_plan hkeeps hruns hclosed)
  have hlt := lt_looksToEnd hruns
  rw [List.length_append, List.length_append] at hplan
  cases hfinds with
  | around hend =>
    have hfirst := looksToEnd_first (l := l.goRound) hruns rfl
    have htaken : l.goRound.taken = l.taken := rfl
    rw [looksToEnd_around hruns hend, hfirst]
    rw [htaken] at hplan
    omega
  | nothing hattends hwaiting hopen => exact absurd hopen (by simp [hclosed])
  | closed hattends hwaiting hgone =>
    have hended := looksToEnd_ended (l := l.finish) rfl
    omega
  | @event number topic e rest broker hattends hwaiting htopic htells =>
    have hfirst := looksToEnd_first (l := l.log e broker) hruns rfl
    have htaken : (l.log e broker).taken.length = l.taken.length + 1 := List.length_append
    omega

/-! ## After the Broker Has Gone -/

/-- What a journal keeps to that the broker has left at some moment: nothing is published any
more, it follows the plan of that moment, and each look brings it nearer to its end. -/
structure Closes (gone : Journaling) (looks : Nat) (l : Journaling) : Prop where
  closed : l.broker.isOpen = false
  heard : l.heard = gone.heard
  follows : l.taken ++ l.plan = gone.taken ++ gone.plan
  nears : l.looksToEnd ≤ gone.looksToEnd - looks

/-- Once the broker has gone nobody publishes. -/
theorem news_closed (hclosed : l.broker.isOpen = false) {operation : Operation}
    (hpossible : operation.isPossible l.broker = true) :
    (l.broker.perform operation).1.news = [] := by
  cases operation with
  | receive number => rfl
  | drop number => rfl
  | _ => exact absurd hpossible (by simp [Operation.isPossible, hclosed])

theorem isOpen_perform_of_closed {b : Broker} (hclosed : b.isOpen = false)
    (operation : Operation) : (b.perform operation).2.isOpen = false := by
  rw [← Bool.not_eq_true] at hclosed ⊢
  exact fun hopen => hclosed (isOpen_of_perform hopen)

variable {gone : Journaling} {looks : Nat}

theorem Closes.meet (h : Closes gone looks l) (operation : Operation) :
    Closes gone looks (l.meet operation) := by
  by_cases hpossible : operation.isPossible l.broker = true
  · rw [meet_possible hpossible, news_closed h.closed hpossible, List.append_nil]
    exact ⟨isOpen_perform_of_closed h.closed operation, h.heard, h.follows, h.nears⟩
  · rw [meet_impossible hpossible]
    exact h

theorem Finds.closed_of_closed {l' : Journaling} (hfinds : Finds deeds l l')
    (hkeeps : Keeps deeds l) (hclosed : l.broker.isOpen = false) : l'.broker.isOpen = false := by
  cases hfinds with
  | closed hattends hwaiting hgone => exact (isOpen_stop l.patrol l.broker).trans hgone
  | @event number topic e rest broker hattends hwaiting htopic htells =>
    -- The history says so before the event is taken, and after it.
    exact htells.isOpen.trans (hkeeps.tells.isOpen.symm.trans hclosed)
  | _ => exact hclosed

theorem Closes.look (h : Closes gone looks l) (hsteady : Steady l) (hfits : l.Fits) :
    Closes gone (looks + 1) l.look := by
  have hnears := h.nears
  cases hruns : l.isRunning with
  | false =>
    rw [look_ended hruns]
    refine ⟨h.closed, h.heard, h.follows, ?_⟩
    rw [looksToEnd_ended hruns]
    exact Nat.zero_le _
  | true =>
    obtain ⟨deeds, hkeeps⟩ := hsteady.keeps hruns
    have hfinds := hkeeps.look hruns hfits
    have hplan := hfinds.taken_append_plan hkeeps hruns h.closed
    have hlt := hfinds.looksToEnd_lt hkeeps hruns h.closed
    exact ⟨hfinds.closed_of_closed hkeeps h.closed, hfinds.heard.trans h.heard,
      hplan.trans h.follows, by omega⟩

/-- The broker goes. -/
theorem closes_close (l : Journaling) : Closes l 0 (l.meet .close) := by
  by_cases hpossible : Operation.close.isPossible l.broker = true
  · have hmeet : l.meet .close = { l with broker := l.broker.close } := by
      rw [meet_possible hpossible]
      exact congrArg (fun heard => { l with broker := l.broker.close, heard }) (List.append_nil _)
    rw [hmeet]
    exact ⟨rfl, rfl, rfl, Nat.le_refl _⟩
  · rw [meet_impossible hpossible]
    exact ⟨by simpa [Operation.isPossible] using hpossible, rfl, rfl, Nat.le_refl _⟩

/-- What a journal comes to that the broker has left at some moment. -/
structure Ends (gone : Journaling) (looks : Nat) (l : Journaling) : Prop where
  /-- Nothing is published any more. -/
  heard : l.heard = gone.heard
  /-- The journal takes what it had planned at that moment, as long as it runs. -/
  takes : l.taken <+: gone.taken ++ gone.plan
  /-- By its end it has taken all of that. -/
  ends : l.isRunning = false → l.taken = gone.taken ++ gone.plan
  /-- It ends after so many looks at the latest. -/
  soon : gone.plan.length + 2 ≤ looks → l.isRunning = false
  /-- All events are logged by its end just if nothing else was pending. -/
  whole : l.isRunning = false →
    (l.taken.Perm l.heard ↔ gone.taken.length + gone.plan.length = gone.heard.length)

theorem Closes.ends (h : Closes gone looks l) (hsteady : Steady l) : Ends gone looks l := by
  have hends (hended : l.isRunning = false) : l.taken = gone.taken ++ gone.plan := by
    rw [← h.follows, plan_ended hended, List.append_nil]
  refine ⟨h.heard, ⟨l.plan, h.follows⟩, hends, ?_, ?_⟩
  · intro hlooks
    have hle := gone.looksToEnd_le
    have hnears := h.nears
    rw [← Bool.not_eq_true]
    intro hruns
    have hlt := lt_looksToEnd hruns
    omega
  · intro hended
    rw [← List.length_append, ← hends hended, ← h.heard]
    refine ⟨List.Perm.length_eq, fun hlength => ?_⟩
    exact hsteady.logs.once.perm_of_length_le hlength.ge

theorem Closes.after {earlier : List Turn} (hsteady : Steady l) {later : List Turn}
    (hspares : ∀ t ∈ later ++ .other .close :: earlier, t.Spares l)
    (hfits : ∀ turns ∈ (later ++ .other .close :: earlier).tails, (l.after turns).Fits) :
    Closes (l.after earlier) (later.count .look) (l.after (later ++ .other .close :: earlier)) := by
  -- On the turns since the broker has gone; those before give the steady journal of each look.
  induction later with
  | nil => exact closes_close _
  | cons t later ih =>
    rw [List.cons_append, List.tails_cons, List.forall_mem_cons] at hfits
    rw [List.cons_append, List.forall_mem_cons] at hspares
    have hbefore := ih hspares.2 hfits.2
    cases t with
    | other operation =>
      rw [List.count_cons_of_ne (by simp)]
      exact hbefore.meet operation
    | look =>
      rw [List.count_cons_self]
      apply hbefore.look (hsteady.after hspares.2 hfits.2)
      exact hfits.2 _ ((List.mem_tails _ _).mpr (List.suffix_refl _))

/-! ## Results -/

/-- The journal of a broker with some history. -/
def join (capacity : Nat) (operations : List Operation) : Journaling :=
  start ((Broker.new capacity).after operations).2

/-- Whatever is published between its looks, a journal that never falls behind the buffer logs
every event once, and those of each topic as they were published, as long as the broker is there.
When the broker goes it still logs what it has planned at that moment. -/
theorem logs_after (capacity : Nat) (operations : List Operation) (turns : List Turn)
    (hspares : ∀ t ∈ turns, t.Spares (join capacity operations))
    (hfits : ∀ earlier ∈ turns.tails, ((join capacity operations).after earlier).Fits) :
    Logs ((join capacity operations).after turns) ∧
      ∀ later earlier, turns = later ++ .other .close :: earlier →
        Ends ((join capacity operations).after earlier) (later.count .look)
          ((join capacity operations).after turns) := by
  have hsteady := start_steady (tells_after (tells_new capacity) operations)
  have hall := hsteady.after hspares hfits
  refine ⟨hall.logs, ?_⟩
  rintro later earlier rfl
  exact (Closes.after hsteady hspares hfits).ends hall

/-- An update that is looked at next when the broker goes, after a registration has been taken. -/
def updateNext : List Turn :=
  [.look, .look, .other .close, .look, .look,
    .other (.publish (.of "registration" (.registered ⟨⟨"robot", "registry", "secret"⟩, ["b"]⟩))),
    .other (.publish (.of "refresh" (.updated ⟨["a"]⟩)))]

theorem logs_after_updateNext :
    ((join 1 []).after updateNext).taken.Perm ((join 1 []).after updateNext).heard := by
  have hlogs := logs_after 1 [] updateNext (by decide +kernel) (by decide +kernel)
  have hends := hlogs.2 _ _ (by rfl : updateNext = [.look, .look] ++ .other .close :: _)
  exact (hends.whole (by decide +kernel)).mpr (by decide +kernel)

/-- An update that is pending when the broker goes. -/
def updateLast : List Turn :=
  [.look, .other .close, .other (.publish (.of "refresh" (.updated ⟨["a"]⟩)))]

/-- Not every event that is published is logged by the end of the journal. -/
theorem pending_update_lost :
    ¬ ∀ (capacity : Nat) (operations : List Operation) (turns : List Turn),
      (∀ t ∈ turns, t.Spares (join capacity operations)) →
      (∀ earlier ∈ turns.tails, ((join capacity operations).after earlier).Fits) →
      ((join capacity operations).after turns).isRunning = false →
      ((join capacity operations).after turns).records.Perm
        (((join capacity operations).after turns).heard.map Event.record) := by
  intro hall
  have hperm := hall 1 [] updateLast (by decide +kernel) (by decide +kernel) (by decide +kernel)
  have hlength := hperm.length_eq
  exact absurd hlength (by decide +kernel)

end Journaling

end EdgeSync
