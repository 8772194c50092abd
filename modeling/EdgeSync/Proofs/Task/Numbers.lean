import EdgeSync.Proofs.Task.Roster

/-!
# Numbers of a Scheduler

To follow one task it is enough to follow its number: whether it is scheduled, and which loops wait
to tick it. An operation of the scheduler leaves a number alone, or removes it together with its
loops. A loop that goes on waiting concerns its own number only.

## Main definitions

- `Scheduler.loopsOf`: the loops of a number
- `Scheduler.Keeps`, `Scheduler.Lacks`: what becomes of a number

## Main results

- `Scheduler.unschedule_cases`, `Scheduler.heed_cases`: a number is left alone or removed
- `Scheduler.keeps_rearm`, `Scheduler.loopsOf_rearm`: loops that go on waiting
-/

namespace EdgeSync

open Schedule

namespace Scheduler

/-! ## A Number -/

/-- The loops that wait to tick a number. -/
def loopsOf (s : Scheduler) (id : TaskId) : List TickLoop :=
  s.loops.filter fun l => l.id == id

/-- Nothing is different for a number. -/
structure Keeps (s : Scheduler) (id : TaskId) (s' : Scheduler) : Prop where
  loops : s'.loopsOf id = s.loopsOf id
  isScheduled : s'.isScheduled id = s.isScheduled id

/-- A number is not scheduled, and nothing ticks it. -/
structure Lacks (s : Scheduler) (id : TaskId) : Prop where
  loops : s.loopsOf id = []
  isScheduled : s.isScheduled id = false

variable {id : TaskId} {s t u : Scheduler}

theorem Keeps.refl (s : Scheduler) (id : TaskId) : s.Keeps id s := ⟨rfl, rfl⟩

theorem Keeps.trans (h : s.Keeps id t) (h' : t.Keeps id u) : s.Keeps id u :=
  ⟨h'.loops.trans h.loops, h'.isScheduled.trans h.isScheduled⟩

theorem Lacks.keep (h : s.Lacks id) (hkeep : s.Keeps id t) : t.Lacks id :=
  ⟨hkeep.loops.trans h.loops, hkeep.isScheduled.trans h.isScheduled⟩

/-! ## Operations -/

/-- A task that is scheduled gets the next number, and a loop if there is a tick to come. -/
theorem schedule_inv {clock : Clock} {task : Nat} {name expression : String}
    (h : s.schedule clock task name expression = .ok (id, t)) :
    s.isCanceled = false ∧ ∃ schedule, Schedule.parse expression = .ok schedule ∧
      id = ⟨UInt64.ofNat (s.issued + 1)⟩ ∧
      t = { s with
        entries := s.entries ++ [(id, name)]
        loops := s.loops ++ loopFrom clock id task schedule
        issued := s.issued + 1 } := by
  cases hopen : s.isCanceled with
  | true =>
    rw [Roster.schedule_canceled hopen] at h
    cases h
  | false =>
    cases hparse : Schedule.parse expression with
    | error fault =>
      rw [Roster.schedule_malformed hopen hparse] at h
      cases h
    | ok schedule =>
      rw [Roster.schedule_ok hopen hparse] at h
      cases h
      refine ⟨rfl, schedule, rfl, rfl, ?_⟩
      rw [hopen]

theorem mem_loops_of_unschedule {l : TickLoop} (h : l ∈ (s.unschedule id).2.loops) :
    l ∈ s.loops := by
  unfold unschedule at h
  split at h
  · exact List.mem_of_mem_filter h
  · exact h

/-- Unscheduling leaves other numbers alone. -/
theorem keeps_unschedule {other : TaskId} (h : other ≠ id) (s : Scheduler) :
    s.Keeps id (s.unschedule other).2 := by
  have hbeq : ∀ i : TaskId, (i != other && i == id) = (i == id) := by
    intro i
    by_cases hi : i = id
    · subst hi
      simpa using h.symm
    · simp [hi]
  unfold unschedule
  split
  · refine ⟨?_, ?_⟩
    · simp only [loopsOf, List.filter_filter]
      exact List.filter_congr fun l _ => by rw [Bool.and_comm]; exact hbeq l.id
    · simp only [isScheduled, List.any_filter]
      exact congrArg (List.any s.entries) (funext fun entry => hbeq entry.1)
  · exact .refl s id

/-- A number that is unscheduled is gone, unless it was not there. -/
theorem unschedule_cases (s : Scheduler) (other id : TaskId) :
    s.Keeps id (s.unschedule other).2 ∨ other = id ∧ (s.unschedule other).2.Lacks id := by
  by_cases h : other = id
  · subst h
    unfold unschedule
    split
    · refine .inr ⟨rfl, ?_, ?_⟩
      · simp [loopsOf, List.filter_filter]
      · simp [isScheduled, List.any_filter]
    · exact .inl (.refl s other)
  · exact .inl (keeps_unschedule h s)

/-- Heeding an event leaves a number alone or unschedules it. -/
theorem heed_one_cases (s : Scheduler) (e : Event) (id : TaskId) :
    s.Keeps id (s.heed [e]) ∨
      (s.heed [e]).Lacks id ∧ ∃ request, e.payload = .stop request ∧ request.id = id := by
  by_cases hstop : ∃ request, e.payload = .stop request
  · obtain ⟨request, hstop⟩ := hstop
    rw [Roster.heed_stop s hstop]
    rcases s.unschedule_cases request.id id with hkeep | ⟨hid, hlacks⟩
    · exact .inl hkeep
    · exact .inr ⟨hlacks, request, hstop, hid⟩
  · rw [Roster.heed_other s fun request heq => hstop ⟨request, heq⟩]
    exact .inl (.refl s id)

/-- Events leave a number alone unless one of them asks to stop it. -/
theorem heed_cases (s : Scheduler) (events : List Event) (id : TaskId) :
    s.Keeps id (s.heed events) ∨
      (s.heed events).Lacks id ∧
        ∃ e ∈ events, ∃ request, e.payload = .stop request ∧ request.id = id := by
  induction events generalizing s with
  | nil => exact .inl (.refl s id)
  | cons e events ih =>
    have hheed : s.heed (e :: events) = (s.heed [e]).heed events := rfl
    rw [hheed]
    -- What the first event has removed is not there for the others.
    rcases ih (s.heed [e]) with hkeep | ⟨hlacks, e', he', hstop⟩
    · rcases s.heed_one_cases e id with hfirst | ⟨hlacks, hstop⟩
      · exact .inl (hfirst.trans hkeep)
      · exact .inr ⟨hlacks.keep hkeep, e, List.mem_cons_self, hstop⟩
    · exact .inr ⟨hlacks, e', List.mem_cons_of_mem _ he', hstop⟩

theorem heed_frame (s : Scheduler) (events : List Event) :
    (s.heed events).issued = s.issued ∧ (s.heed events).isCanceled = s.isCanceled ∧
      ∀ l ∈ (s.heed events).loops, l ∈ s.loops := by
  induction events generalizing s with
  | nil => exact ⟨rfl, rfl, fun _ h => h⟩
  | cons e events ih =>
    have hone : (s.heed [e]).issued = s.issued ∧ (s.heed [e]).isCanceled = s.isCanceled ∧
        ∀ l ∈ (s.heed [e]).loops, l ∈ s.loops := by
      by_cases hstop : ∃ request, e.payload = .stop request
      · obtain ⟨request, hstop⟩ := hstop
        rw [Roster.heed_stop s hstop]
        have hframe := s.unschedule_frame request.id
        exact ⟨hframe.1, hframe.2, fun l hl => mem_loops_of_unschedule hl⟩
      · rw [Roster.heed_other s fun request heq => hstop ⟨request, heq⟩]
        exact ⟨rfl, rfl, fun _ h => h⟩
    have hrest := ih (s.heed [e])
    exact ⟨hrest.1.trans hone.1, hrest.2.1.trans hone.2.1,
      fun l hl => hone.2.2 l (hrest.2.2 l hl)⟩

theorem id_of_mem_loopFrom {clock : Clock} {id : TaskId} {task : Nat} {schedule : Schedule}
    {l : TickLoop} (h : l ∈ loopFrom clock id task schedule) : l.id = id := by
  obtain ⟨due, -, rfl⟩ := List.mem_map.mp h
  rfl

/-- A loop that goes on waiting keeps its number. -/
theorem exists_of_mem_rearm {clock : Clock} {made l : TickLoop}
    (h : l ∈ (s.rearm clock made).loops) : ∃ l' ∈ s.loops, l'.id = l.id := by
  obtain ⟨l', hl', hmem⟩ := List.mem_flatMap.mp h
  refine ⟨l', hl', ?_⟩
  split at hmem
  · exact (id_of_mem_loopFrom hmem).symm
  · rw [List.mem_singleton.mp hmem]

/-- Scheduling leaves other numbers alone. -/
theorem keeps_schedule {clock : Clock} {task : Nat} {name expression : String} {other : TaskId}
    (h : s.schedule clock task name expression = .ok (other, t)) (hother : other ≠ id) :
    s.Keeps id t := by
  obtain ⟨-, schedule, -, -, rfl⟩ := schedule_inv h
  have hnone : (loopFrom clock other task schedule).filter (·.id == id) = [] := by
    rw [List.filter_eq_nil_iff]
    intro l hl heq
    exact hother ((id_of_mem_loopFrom hl).symm.trans (beq_iff_eq.mp heq))
  refine ⟨?_, ?_⟩
  · simp only [loopsOf, List.filter_append, hnone, List.append_nil]
  · simp [isScheduled, hother]

/-- When a loop goes on waiting, those of other numbers stay as they are. -/
theorem keeps_rearm {made : TickLoop} (h : made.id ≠ id) (s : Scheduler) (clock : Clock) :
    s.Keeps id (s.rearm clock made) := by
  refine ⟨?_, rfl⟩
  simp only [loopsOf, rearm]
  induction s.loops with
  | nil => rfl
  | cons l loops ih =>
    rw [List.flatMap_cons, List.filter_append, ih]
    split
    · next hmade =>
      have hl : l.id ≠ id := fun heq => h ((beq_iff_eq.mp hmade).symm.trans heq)
      have hnone : (loopFrom clock l.id l.task l.schedule).filter (·.id == id) = [] := by
        rw [List.filter_eq_nil_iff]
        intro m hm heq
        exact hl ((id_of_mem_loopFrom hm).symm.trans (beq_iff_eq.mp heq))
      simp [hnone, hl]
    · rw [← List.filter_append]
      rfl

/-- The loop itself waits for the next tick of its schedule. -/
theorem loopsOf_rearm (s : Scheduler) (clock : Clock) (made : TickLoop) :
    (s.rearm clock made).loopsOf made.id =
      (s.loopsOf made.id).flatMap fun l => loopFrom clock l.id l.task l.schedule := by
  simp only [loopsOf, rearm]
  induction s.loops with
  | nil => rfl
  | cons l loops ih =>
    rw [List.flatMap_cons, List.filter_append, ih]
    -- A loop of the number is replaced, and what replaces it has the same number.
    split
    · next hmade =>
      have hall : (loopFrom clock l.id l.task l.schedule).filter (·.id == made.id) =
          loopFrom clock l.id l.task l.schedule := by
        rw [List.filter_eq_self]
        intro m hm
        rw [id_of_mem_loopFrom hm]
        exact hmade
      simp only [hall, List.filter_cons, hmade, if_true, List.flatMap_cons]
    · next hother => simp [hother]

end Scheduler

end EdgeSync
