import EdgeSync.Schedule.Calendar
import Mathlib.Algebra.Order.Ring.Int
import Mathlib.Data.List.Basic

/-!
# Sweeps Over Candidates

A search visits the candidates of a unit in ascending order until one of them gives an
answer. Each candidate stands for the moments in which the unit has that value, and all of
them come before those of the next candidate; so if every visit finds the first moment of its
candidate, the sweep finds the first one of all.

Only the first candidate may be visited while smaller units still start where the search
does: it is then the value at which the search starts, and its earlier moments do not count.
An exhausted visit leaves the smaller units free for the next candidate.

## Main definitions

- `Answers`: a search has answered with the first moment of some
- `Sweeps`: what the visits of a unit have to do
- `passingOver`: visits for which a wrong day is no answer

## Main results

- `Sweeps.answers_free`, `Sweeps.answers_pinned`: a sweep answers with the first moment, of
  all or from the start on
- `sweep_pins_eq`, `sweep_frees`: the units that still start where the search does
-/

namespace EdgeSync.Schedule.Calendar

open EdgeSync.Time

/-! ## Answers -/

/-- A search has answered with the first of some moments, if there is one. It may also say
that their day is of the wrong weekday. -/
def Answers (rightDay : Prop) (P : Moment → Prop) : Search → Prop
  | .found m => rightDay ∧ P m ∧ ∀ m', P m' → m.toUnix ≤ m'.toUnix
  | .wrongDay => ¬ rightDay
  | .exhausted => ∀ m, ¬ P m

variable {rightDay : Prop} {P P' : Moment → Prop} {answer : Search}

theorem Answers.congr (h : Answers rightDay P answer) (hiff : ∀ m, P m ↔ P' m) :
    Answers rightDay P' answer := by
  obtain rfl : P = P' := funext fun m => propext (hiff m)
  exact h

/-! ## Sweeps -/

variable {visit : Nat → Pins → Search × Pins} {free : Pins → Prop} {inner : Nat → Moment → Prop}
  {values : List Nat} {pins : Pins}

/-- A sweep answers with the first moment of all candidates, whatever the first visit
starts from. -/
theorem sweep_answers (free : Pins → Prop)
    (hordered : values.Pairwise fun n n' =>
      ∀ m m', inner n m → inner n' m' → m.toUnix ≤ m'.toUnix)
    (hfirst : ∀ n ∈ values.head?, Answers rightDay (inner n) (visit n pins).1)
    (hlater : ∀ n ∈ values.tail, ∀ p, free p → Answers rightDay (inner n) (visit n p).1)
    (hfrees : ∀ n p, (visit n p).1 = .exhausted → free (visit n p).2) :
    Answers rightDay (fun m => ∃ n ∈ values, inner n m) (sweep visit values pins).1 := by
  induction values generalizing pins with
  | nil => simp [sweep, Answers]
  | cons n rest ih =>
    obtain ⟨hbefore, hrest⟩ := List.pairwise_cons.mp hordered
    have hn := hfirst n rfl
    have hfree := hfrees n pins
    rw [sweep]
    rcases hvisit : visit n pins with ⟨found | _ | _, p⟩
    · -- A moment of the first candidate comes before all later ones.
      rw [hvisit] at hn
      obtain ⟨hday, hfound, hleast⟩ := hn
      refine ⟨hday, ⟨n, List.mem_cons_self, hfound⟩, ?_⟩
      rintro m' ⟨n', hn', hm'⟩
      rcases List.mem_cons.mp hn' with rfl | hlater'
      · exact hleast m' hm'
      · exact hbefore n' hlater' _ _ hfound hm'
    · rw [hvisit] at hn
      exact hn
    · -- The first candidate has none, and the others are visited freely.
      rw [hvisit] at hn hfree
      have hfree' : free p := hfree rfl
      have hothers : Answers rightDay (fun m => ∃ n ∈ rest, inner n m) (sweep visit rest p).1 :=
        ih hrest (fun n' hn' => hlater n' (List.mem_of_head? hn') p hfree')
          (fun n' hn' => hlater n' (List.mem_of_mem_tail hn'))
      refine hothers.congr fun m => ?_
      simp only [List.mem_cons, exists_eq_or_imp]
      exact (or_iff_right (hn m)).symm

/-- What the visits of a unit have to do, so that a sweep over its values finds the first
moment. All candidates lie in one larger unit, and there the unit decides the order. -/
structure Sweeps (rightDay : Prop) (free : Pins → Prop) (values : List Nat)
    (inner : Nat → Moment → Prop) (visit : Nat → Pins → Search × Pins)
    (larger : Moment → Prop) (unit : Moment → Nat) : Prop where
  ascending : values.Pairwise (· < ·)
  answers : ∀ n ∈ values, ∀ p, free p → Answers rightDay (inner n) (visit n p).1
  frees : ∀ n p, (visit n p).1 = .exhausted → free (visit n p).2
  lies : ∀ n ∈ values, ∀ m, inner n m → larger m ∧ unit m = n
  ordered : ∀ m m', larger m → larger m' → unit m < unit m' → m.toUnix < m'.toUnix

theorem mem_candidates {n bound : Nat} :
    n ∈ candidates values bound ↔ n ∈ values ∧ bound ≤ n := by
  simp [candidates]

/-- The first candidate is the least. -/
theorem candidates_head_le (hascending : values.Pairwise (· < ·)) {first bound n : Nat}
    (hfirst : first ∈ (candidates values bound).head?) (hn : n ∈ candidates values bound) :
    first ≤ n := by
  obtain ⟨rest, hcons⟩ := List.head?_eq_some_iff.mp hfirst
  have hsorted : (candidates values bound).Pairwise (· < ·) := hascending.filter _
  rw [hcons] at hn hsorted
  rcases List.mem_cons.mp hn with rfl | hrest
  · exact le_refl _
  · exact ((List.pairwise_cons.mp hsorted).1 n hrest).le

theorem candidates_head_lt (hascending : values.Pairwise (· < ·)) {bound n : Nat}
    (hn : n ∈ (candidates values bound).tail) : bound < n := by
  have hsorted : (candidates values bound).Pairwise (· < ·) := hascending.filter _
  cases hcandidates : candidates values bound with
  | nil =>
    rw [hcandidates] at hn
    exact absurd hn List.not_mem_nil
  | cons first rest =>
    have hfirst : first ∈ candidates values bound := by
      rw [hcandidates]
      exact List.mem_cons_self
    rw [hcandidates] at hn hsorted
    exact (mem_candidates.mp hfirst).2.trans_lt ((List.pairwise_cons.mp hsorted).1 n hn)

namespace Sweeps

variable {larger : Moment → Prop} {unit : Moment → Nat} {bound : Nat} {start : Moment}

/-- If no smaller unit starts where the search does, the first moment of all is found. -/
theorem answers_free (h : Sweeps rightDay free values inner visit larger unit)
    (hfree : free pins) (hleast : ∀ n ∈ values, bound ≤ n) :
    Answers rightDay (fun m => ∃ n ∈ values, inner n m)
      (sweep visit (candidates values bound) pins).1 := by
  have hall : candidates values bound = values :=
    List.filter_eq_self.mpr fun n hn => decide_eq_true (hleast n hn)
  rw [hall]
  refine sweep_answers free ?_ ?_ ?_ h.frees
  · refine h.ascending.imp_of_mem fun hn hn' hlt m m' hm hm' => ?_
    obtain ⟨hlies, rfl⟩ := h.lies _ hn m hm
    obtain ⟨hlies', rfl⟩ := h.lies _ hn' m' hm'
    exact (h.ordered m m' hlies hlies' hlt).le
  · exact fun n hn => h.answers n (List.mem_of_head? hn) pins hfree
  · exact fun n hn => h.answers n (List.mem_of_mem_tail hn)

/-- Later candidates come after the start. -/
theorem start_le (h : Sweeps rightDay free values inner visit larger unit)
    (hstart : larger start) {n : Nat} (hn : n ∈ values) (hlt : unit start < n) {m : Moment}
    (hm : inner n m) : start.toUnix ≤ m.toUnix := by
  obtain ⟨hlies, rfl⟩ := h.lies n hn m hm
  exact (h.ordered start m hstart hlies hlt).le

/-- The first moment from the start on is found, if the first visit finds the one of its
candidate. -/
theorem answers_of_first (h : Sweeps rightDay free values inner visit larger unit)
    (hstart : larger start)
    (hfirst : ∀ n ∈ (candidates values (unit start)).head?,
      Answers rightDay (fun m => inner n m ∧ start.toUnix ≤ m.toUnix) (visit n pins).1) :
    Answers rightDay (fun m => (∃ n ∈ values, inner n m) ∧ start.toUnix ≤ m.toUnix)
      (sweep visit (candidates values (unit start)) pins).1 := by
  have hsweep : Answers rightDay
      (fun m => ∃ n ∈ candidates values (unit start), inner n m ∧ start.toUnix ≤ m.toUnix)
      (sweep visit (candidates values (unit start)) pins).1 := by
    refine sweep_answers free ?_ hfirst ?_ h.frees
    · -- The unit orders the candidates, whatever part of the first one counts.
      refine (h.ascending.filter _).imp_of_mem fun hn hn' hlt m m' hm hm' => ?_
      obtain ⟨hlies, rfl⟩ := h.lies _ (mem_candidates.mp hn).1 m hm.1
      obtain ⟨hlies', rfl⟩ := h.lies _ (mem_candidates.mp hn').1 m' hm'.1
      exact (h.ordered m m' hlies hlies' hlt).le
    · -- Later candidates lie after the start, which then does not matter.
      intro n hn p hfree
      have hmem := (mem_candidates.mp (List.mem_of_mem_tail hn)).1
      have hlt := candidates_head_lt h.ascending hn
      exact (h.answers n hmem p hfree).congr fun m =>
        ⟨fun hm => ⟨hm, h.start_le hstart hmem hlt hm⟩, And.left⟩
  refine hsweep.congr fun m => ?_
  constructor
  · rintro ⟨n, hn, hm, hle⟩
    exact ⟨⟨n, (mem_candidates.mp hn).1, hm⟩, hle⟩
  · rintro ⟨⟨n, hn, hm⟩, hle⟩
    obtain ⟨hlies, rfl⟩ := h.lies n hn m hm
    -- Nothing below the bound lies after the start.
    have hbound : unit start ≤ unit m := by
      by_contra hlt
      exact absurd (h.ordered m start hlies hstart (not_le.mp hlt)) (not_lt.mpr hle)
    exact ⟨unit m, mem_candidates.mpr ⟨hn, hbound⟩, hm, hle⟩

/-- The same, if the value where the search starts is visited with the smaller units at
their start, and any other value freely. -/
theorem answers_pinned (h : Sweeps rightDay free values inner visit larger unit)
    (hstart : larger start)
    (hlisted : unit start ∈ values →
      Answers rightDay (fun m => inner (unit start) m ∧ start.toUnix ≤ m.toUnix)
        (visit (unit start) pins).1)
    (hunlisted : unit start ∉ values → free pins) :
    Answers rightDay (fun m => (∃ n ∈ values, inner n m) ∧ start.toUnix ≤ m.toUnix)
      (sweep visit (candidates values (unit start)) pins).1 := by
  refine h.answers_of_first hstart ?_
  intro n hn
  obtain ⟨hmem, hle⟩ := mem_candidates.mp (List.mem_of_head? hn)
  by_cases hbound : unit start ∈ values
  · -- The value is a candidate, so it is the first one.
    have hfirst := candidates_head_le h.ascending hn
      (mem_candidates.mpr ⟨hbound, le_refl _⟩)
    obtain rfl : n = unit start := le_antisymm hfirst hle
    exact hlisted hbound
  · have hlt : unit start < n := lt_of_le_of_ne hle fun heq => hbound (heq ▸ hmem)
    exact (h.answers n hmem pins (hunlisted hbound)).congr fun m =>
      ⟨fun hm => ⟨hm, h.start_le hstart hmem hlt hm⟩, And.left⟩

end Sweeps

/-! ## Units That Start Where the Search Does -/

/-- If every visit leaves the same units at their start, so does the sweep. -/
theorem sweep_pins_eq {left : Pins} (hfirst : ∀ n, (visit n pins).2 = left)
    (hlater : ∀ n, (visit n left).2 = left) (hnone : values = [] → pins = left) :
    (sweep visit values pins).2 = left := by
  -- Whichever visit answers has left the pins so; after the first one nothing changes them.
  induction values generalizing pins with
  | nil => exact hnone rfl
  | cons n rest ih =>
    have hn := hfirst n
    rw [sweep]
    rcases hvisit : visit n pins with ⟨_ | _ | _, p⟩ <;> rw [hvisit] at hn <;> subst hn
    · rfl
    · rfl
    · exact ih hlater fun _ => rfl

/-- An exhausted sweep leaves the units free that its visits do. -/
theorem sweep_frees (free : Pins → Prop)
    (hfrees : ∀ n p, (visit n p).1 = .exhausted → free (visit n p).2)
    (hnone : values = [] → free pins) (h : (sweep visit values pins).1 = .exhausted) :
    free (sweep visit values pins).2 := by
  -- An exhausted sweep has exhausted every visit, and the last one decides.
  induction values generalizing pins with
  | nil => exact hnone rfl
  | cons n rest ih =>
    have hfree := hfrees n pins
    rw [sweep] at h ⊢
    rcases hvisit : visit n pins with ⟨_ | _ | _, p⟩ <;> rw [hvisit] at h hfree
    · cases h
    · cases h
    · exact ih (fun _ => hfree rfl) h

/-- A value that is listed is a candidate from itself on. -/
theorem candidates_ne_nil {n : Nat} (h : n ∈ values) : candidates values n ≠ [] :=
  List.ne_nil_of_mem (mem_candidates.mpr ⟨h, le_refl n⟩)

/-! ## Wrong Days -/

/-- Visits for which a wrong day is no answer. -/
def passingOver (visit : Nat → Pins → Search × Pins) (n : Nat) (pins : Pins) : Search × Pins :=
  match visit n pins with
  | (.wrongDay, pins) => (.exhausted, pins)
  | answer => answer

/-- Days are swept like other units, passing over the wrong ones. -/
theorem sweepDays_eq (visit : Nat → Pins → Search × Pins) (values : List Nat) (pins : Pins) :
    sweepDays visit values pins = sweep (passingOver visit) values pins := by
  induction values generalizing pins with
  | nil => rfl
  | cons n rest ih =>
    rw [sweepDays, sweep, passingOver]
    rcases visit n pins with ⟨_ | _ | _, p⟩
    · rfl
    · exact ih p
    · exact ih p

/-- A day that is passed over has no moment of the right weekday. -/
theorem Answers.passingOver {n : Nat}
    (h : Answers rightDay P (visit n pins).1) :
    Answers True (fun m => rightDay ∧ P m) (passingOver visit n pins).1 := by
  unfold Calendar.passingOver
  rcases hvisit : visit n pins with ⟨_ | _ | _, p⟩ <;> rw [hvisit] at h
  · obtain ⟨hday, hfound, hleast⟩ := h
    exact ⟨trivial, ⟨hday, hfound⟩, fun m' hm' => hleast m' hm'.2⟩
  · exact fun m hm => h hm.1
  · exact fun m hm => h m hm.2

end EdgeSync.Schedule.Calendar
