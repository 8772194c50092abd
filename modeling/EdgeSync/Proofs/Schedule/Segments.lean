import EdgeSync.Proofs.Text.Words
import EdgeSync.Schedule.Expression
import Mathlib.Algebra.BigOperators.Group.List.Basic
import Mathlib.Algebra.GroupWithZero.Nat
import Mathlib.Data.List.TakeWhile

/-!
# Intervals as Sums of Segments

A unit holds no digit and no point, so a text falls into segments in one way only: where a
number begins, a segment begins. Reading goes through them from the left and adds them up. It
fails at a segment or a sum that is too long, and at anything that is no segment.

## Main definitions

- `Segment`, `Segment.IsProper`: a number and its unit
- `SumsTo`: what segments add up to
- `SaysInterval`: a text that consists of segments with a positive sum

## Main results

- `readInterval_flatMap`: what is read of segments
- `exists_segments`: all that is read consists of segments
- `parse_every`: an interval behind its word
-/

namespace EdgeSync.Schedule

open EdgeSync.Text EdgeSync.Time

/-! ## Segments -/

/-- A number and the unit that it counts. -/
structure Segment where
  number : List Char
  unit : List Char
  deriving DecidableEq, Repr

/-- The names of the units. -/
def unitNames : List String :=
  ["h", "m", "s", "ms", "us", "\u00b5s", "ns"]

namespace Segment

/-- How a segment is written. -/
def text (s : Segment) : List Char :=
  s.number ++ s.unit

/-- The number consists of digits and at most one point, and the unit has a name. -/
structure IsProper (s : Segment) : Prop where
  numeral : ∀ c ∈ s.number, c.isDigit = true ∨ c = '.'
  digit : ∃ c ∈ s.number, c.isDigit = true
  point : s.number.count '.' ≤ 1
  unit : s.unit ∈ unitNames.map String.toList

/-- The length of a segment, unless it is too long. -/
def span? (s : Segment) : Option Span :=
  (unitScale? s.unit).bind (segmentSpan? s.number)

/-- The length of a segment in nanoseconds. -/
def nanos (s : Segment) : Nat :=
  (s.span?.map Span.nanos).getD 0

end Segment

theorem mem_unitNames_iff {unit : List Char} :
    unit ∈ unitNames.map String.toList ↔ unitScale? unit ≠ none := by
  have hnames : unitNames.map String.toList =
      [['h'], ['m'], ['s'], ['m', 's'], ['u', 's'], ['\u00b5', 's'], ['n', 's']] := by decide
  rw [hnames]
  unfold unitScale?
  split_ifs <;> simp_all
  tauto

/-- The name of a unit has no digit and no point. -/
theorem not_isNumeral_of_mem_unit {unit : List Char} (h : unit ∈ unitNames.map String.toList) :
    unit ≠ [] ∧ ∀ c ∈ unit, isNumeral c = false := by
  have hall : ∀ unit ∈ unitNames.map String.toList,
      (!unit.isEmpty && unit.all fun c => !isNumeral c) = true :=
    List.all_eq_true.mp (by decide)
  simpa using hall unit h

variable {s : Segment} {segs segs' : List Segment} {cs more number : List Char} {text : String}
  {fuel : Nat} {total t : Span}

theorem isNumeral_iff {c : Char} : isNumeral c = true ↔ c.isDigit = true ∨ c = '.' := by
  simp [isNumeral]

theorem isDecimal_iff : isDecimal number = true ↔
    (∃ c ∈ number, c.isDigit = true) ∧ number.count '.' ≤ 1 := by
  simp [isDecimal]

namespace Segment

theorem IsProper.isNumeral (hs : s.IsProper) : ∀ c ∈ s.number, isNumeral c = true :=
  fun c hc => isNumeral_iff.mpr (hs.numeral c hc)

theorem IsProper.number_ne_nil (hs : s.IsProper) : s.number ≠ [] := by
  obtain ⟨c, hc, -⟩ := hs.digit
  exact List.ne_nil_of_mem hc

/-- A segment begins with a digit or a point. -/
theorem IsProper.head (hs : s.IsProper) (more : List Char) :
    ∀ c ∈ (s.text ++ more).head?, Schedule.isNumeral c = true := by
  obtain ⟨c, number, hnumber⟩ := List.exists_cons_of_ne_nil hs.number_ne_nil
  intro d hd
  rw [text, hnumber, List.append_assoc, List.cons_append, List.head?_cons,
    Option.mem_some_iff] at hd
  subst hd
  exact hs.isNumeral c (hnumber ▸ List.mem_cons_self)

end Segment

theorem head_flatMap (hsegs : ∀ s ∈ segs, s.IsProper) :
    ∀ c ∈ (segs.flatMap Segment.text).head?, isNumeral c = true := by
  cases segs with
  | nil => exact nofun
  | cons s segs =>
    rw [List.flatMap_cons]
    exact (hsegs s List.mem_cons_self).head _

/-! ## Adding Segments Up -/

/-- The sum of a span and further segments, unless a segment or a sum is too long. -/
def sumFrom? (total : Span) (segs : List Segment) : Option Span :=
  segs.foldlM (fun total s => s.span?.bind total.add?) total

/-- One round takes the first segment. -/
theorem addSegments_cons (hs : s.IsProper) (hmore : ∀ c ∈ more.head?, isNumeral c = true) :
    addSegments text (fuel + 1) total (s.text ++ more) =
      match s.span?.bind total.add? with
      | none => .error (.outOfRange text)
      | some total => addSegments text fuel total more := by
  obtain ⟨hunitNe, hunit⟩ := not_isNumeral_of_mem_unit hs.unit
  have hdecimal := isDecimal_iff.mpr ⟨hs.digit, hs.point⟩
  obtain ⟨scale, hscale⟩ := Option.ne_none_iff_exists'.mp (mem_unitNames_iff.mp hs.unit)
  -- The number ends where the unit begins, and the unit where the next number does.
  have hunitMore : ∀ c ∈ (s.unit ++ more).head?, isNumeral c = false := by
    obtain ⟨c, unit, hcons⟩ := List.exists_cons_of_ne_nil hunitNe
    rw [hcons]
    rintro d ⟨⟩
    exact hunit _ (hcons ▸ List.mem_cons_self)
  have hunitNot : ∀ c ∈ s.unit, (!isNumeral c) = true := fun c hc => by simp [hunit c hc]
  have hmoreNot : ∀ c ∈ more.head?, (!isNumeral c) = false := fun c hc => by simp [hmore c hc]
  have hround : addSegments text (fuel + 1) total (s.text ++ more) =
      addSegments text (fuel + 1) total (s.number ++ (s.unit ++ more)) := by
    rw [Segment.text, List.append_assoc]
  rw [hround]
  obtain ⟨c, cs, hcons⟩ : ∃ c cs, s.number ++ (s.unit ++ more) = c :: cs :=
    List.exists_cons_of_ne_nil (List.append_ne_nil_of_left_ne_nil hs.number_ne_nil _)
  rw [hcons, addSegments, ← hcons]
  · cases hsum : (segmentSpan? s.number scale).bind total.add? <;>
      simp only [takeWhile_run hs.isNumeral hunitMore, dropWhile_run hs.isNumeral hunitMore,
        takeWhile_run hunitNot hmoreNot, dropWhile_run hunitNot hmoreNot, hdecimal, hscale,
        List.isEmpty_eq_false_iff.mpr hs.number_ne_nil, List.isEmpty_eq_false_iff.mpr hunitNe,
        Bool.not_true, Bool.false_eq_true, if_false, Segment.span?, Option.bind_some, hsum]
  · exact nofun

theorem addSegments_flatMap (hsegs : ∀ s ∈ segs, s.IsProper) (hfuel : segs.length ≤ fuel) :
    addSegments text fuel total (segs.flatMap Segment.text) =
      match sumFrom? total segs with
      | none => .error (.outOfRange text)
      | some t => .ok t := by
  induction segs generalizing fuel total with
  | nil => cases fuel <;> rfl
  | cons s segs ih =>
    rw [List.forall_mem_cons] at hsegs
    obtain ⟨fuel, rfl⟩ := Nat.exists_eq_succ_of_ne_zero (Nat.ne_of_gt (Nat.lt_of_lt_of_le
      (Nat.succ_pos segs.length) hfuel))
    rw [List.flatMap_cons, addSegments_cons hsegs.1 (head_flatMap hsegs.2), sumFrom?,
      List.foldlM_cons]
    cases hnext : s.span?.bind total.add? with
    | none => rfl
    | some next => exact ih hsegs.2 (Nat.le_of_succ_le_succ hfuel)

/-- All that is added up consists of segments. -/
theorem exists_segments (h : addSegments text fuel total cs = .ok t) :
    ∃ segs : List Segment, (∀ s ∈ segs, s.IsProper) ∧ cs = segs.flatMap Segment.text := by
  induction fuel generalizing total cs with
  | zero =>
    cases cs with
    | nil => exact ⟨[], nofun, rfl⟩
    | cons c cs => cases h
  | succ fuel ih =>
    cases cs with
    | nil => exact ⟨[], nofun, rfl⟩
    | cons c cs =>
      rw [addSegments] at h
      · -- Each check that is passed is a part of being proper.
        split at h
        · cases h
        split at h
        · cases h
        split at h
        · cases h
        split at h
        · cases h
        split at h
        · cases h
        next hdecimal _ _ scale hscale _ next hnext =>
        obtain ⟨segs, hsegs, hrest⟩ := ih h
        rw [Bool.not_eq_true', Bool.not_eq_false] at hdecimal
        obtain ⟨hdigit, hpoint⟩ := isDecimal_iff.mp hdecimal
        let first : Segment := ⟨(c :: cs).takeWhile isNumeral,
          ((c :: cs).dropWhile isNumeral).takeWhile fun c => !isNumeral c⟩
        have hunit : first.unit ∈ unitNames.map String.toList := by
          rw [mem_unitNames_iff, hscale]
          exact nofun
        have hfirst : first.IsProper :=
          ⟨fun d hd => isNumeral_iff.mp (List.mem_takeWhile_imp hd), hdigit, hpoint, hunit⟩
        refine ⟨first :: segs, List.forall_mem_cons.mpr ⟨hfirst, hsegs⟩, ?_⟩
        rw [List.flatMap_cons, ← hrest, Segment.text, List.append_assoc,
          List.takeWhile_append_dropWhile, List.takeWhile_append_dropWhile]
      · exact nofun

/-! ## Sums -/

/-- Segments add up to a span: none of them is too long, and neither is any sum on the way. -/
structure SumsTo (segs : List Segment) (total : Span) : Prop where
  fits : ∀ s ∈ segs, s.span? ≠ none
  partials : ∀ k, ((segs.take k).map Segment.nanos).sum < Span.limit
  total : total.nanos = (segs.map Segment.nanos).sum

theorem SumsTo.perm (h : SumsTo segs t) (hperm : segs.Perm segs') : SumsTo segs' t := by
  have hsum := (hperm.map Segment.nanos).sum_eq
  refine ⟨fun s hs => h.fits s (hperm.mem_iff.mpr hs), fun k => ?_, h.total.trans hsum⟩
  -- No sum on the way is more than the whole one.
  have hwhole := h.partials segs.length
  rw [List.take_length, hsum, ← List.take_append_drop k segs', List.map_append,
    List.sum_append] at hwhole
  exact Nat.lt_of_le_of_lt (Nat.le_add_right _ _) hwhole

theorem sumFrom?_eq_some_iff (htotal : total.nanos < Span.limit) :
    sumFrom? total segs = some t ↔ (∀ s ∈ segs, s.span? ≠ none) ∧
      (∀ k, total.nanos + ((segs.take k).map Segment.nanos).sum < Span.limit) ∧
      t.nanos = total.nanos + (segs.map Segment.nanos).sum := by
  induction segs generalizing total with
  | nil =>
    obtain ⟨nanos⟩ := total
    obtain ⟨nanos'⟩ := t
    simpa [sumFrom?, eq_comm] using fun _ => htotal
  | cons s segs ih =>
    rw [sumFrom?, List.foldlM_cons]
    cases hspan : s.span? with
    | none => exact iff_of_false nofun fun h => h.1 s List.mem_cons_self hspan
    | some span =>
      have hnanos : s.nanos = span.nanos := by rw [Segment.nanos, hspan]; rfl
      have hpartials : (∀ k, total.nanos + (((s :: segs).take k).map Segment.nanos).sum <
          Span.limit) ↔ ∀ k, total.nanos + span.nanos + ((segs.take k).map Segment.nanos).sum <
            Span.limit := by
        constructor
        · intro h k
          simpa [hnanos, Nat.add_assoc] using h (k + 1)
        · rintro h (_ | k)
          · simpa using htotal
          · simpa [hnanos, Nat.add_assoc] using h k
      rw [Option.bind_some, Span.add?, hpartials, List.map_cons, List.sum_cons, hnanos,
        ← Nat.add_assoc, List.forall_mem_cons]
      split
      · next hlt =>
        rw [Option.bind_eq_bind, Option.bind_some, ← sumFrom?, ih hlt]
        simp [hspan]
      · next hlong => exact iff_of_false nofun fun h => hlong (by simpa using h.2.1 0)

theorem sumFrom?_zero : sumFrom? .zero segs = some t ↔ SumsTo segs t := by
  rw [sumFrom?_eq_some_iff (by decide)]
  simp only [Span.zero, Nat.zero_add]
  exact ⟨fun ⟨hfits, hpartials, htotal⟩ => ⟨hfits, hpartials, htotal⟩,
    fun ⟨hfits, hpartials, htotal⟩ => ⟨hfits, hpartials, htotal⟩⟩

/-! ## Intervals -/

theorem length_le_length_flatMap (hsegs : ∀ s ∈ segs, s.IsProper) :
    segs.length ≤ (segs.flatMap Segment.text).length := by
  induction segs with
  | nil => exact Nat.le_refl 0
  | cons s segs ih =>
    rw [List.forall_mem_cons] at hsegs
    have hpos := List.length_pos_iff.mpr hsegs.1.number_ne_nil
    have hrest := ih hsegs.2
    simp only [List.flatMap_cons, Segment.text, List.length_cons, List.length_append]
    omega

/-- What is read of segments: their sum, if it is positive. -/
theorem readInterval_flatMap (hsegs : ∀ s ∈ segs, s.IsProper) :
    readInterval (segs.flatMap Segment.text) = .ok t ↔
      segs ≠ [] ∧ SumsTo segs t ∧ 0 < t.nanos := by
  cases segs with
  | nil => exact iff_of_false nofun fun h => h.1 rfl
  | cons s segs =>
    rw [← sumFrom?_zero]
    have hne : (s :: segs).flatMap Segment.text ≠ [] := by
      rw [List.flatMap_cons]
      have hnumber := (hsegs s List.mem_cons_self).number_ne_nil
      exact List.append_ne_nil_of_left_ne_nil (List.append_ne_nil_of_left_ne_nil hnumber _) _
    -- Every segment takes a character at least, so there are rounds enough.
    have hlength := length_le_length_flatMap hsegs
    rw [readInterval, if_neg (by simpa using hne), addSegments_flatMap hsegs hlength]
    cases hsum : sumFrom? .zero (s :: segs) with
    | none => simp
    | some total =>
      dsimp only
      split
      · next hzero =>
        refine iff_of_false nofun ?_
        rintro ⟨-, ⟨⟩, hpos⟩
        omega
      · next hpos =>
        rw [Except.ok.injEq, Option.some.injEq]
        refine ⟨?_, fun h => h.2.1⟩
        rintro rfl
        exact ⟨List.cons_ne_nil s segs, rfl, Nat.pos_of_ne_zero hpos⟩

/-- A text consists of segments with a positive sum. -/
def SaysInterval (cs : List Char) (total : Span) : Prop :=
  ∃ segs : List Segment, segs ≠ [] ∧ (∀ s ∈ segs, s.IsProper) ∧ cs = segs.flatMap Segment.text ∧
    SumsTo segs total ∧ 0 < total.nanos

theorem readInterval_eq_ok_iff : readInterval cs = .ok t ↔ SaysInterval cs t := by
  constructor
  · intro h
    obtain ⟨segs, hsegs, rfl⟩ : ∃ segs : List Segment, (∀ s ∈ segs, s.IsProper) ∧
        cs = segs.flatMap Segment.text := by
      unfold readInterval at h
      split at h
      · cases h
      · split at h
        · cases h
        · next hadded => exact exists_segments hadded
    obtain ⟨hne, hsum, hpos⟩ := (readInterval_flatMap hsegs).mp h
    exact ⟨segs, hne, hsegs, rfl, hsum, hpos⟩
  · rintro ⟨segs, hne, hsegs, rfl, hsum, hpos⟩
    exact (readInterval_flatMap hsegs).mpr ⟨hne, hsum, hpos⟩

/-! ## Expressions -/

/-- Trimming takes nothing from a word in front, and what it takes behind it does not matter. -/
theorem trimChars_everyWord (cs : List Char) :
    ∃ rest, trimChars (everyWord ++ cs) = everyWord ++ rest ∧ trimChars rest = trimChars cs := by
  obtain ⟨front, back, hfront, hback, hmargins⟩ := exists_margins cs
  have hbody := isTrim_trimChars cs
  generalize trimChars cs = body at hmargins hbody
  subst hmargins
  have hhead : ∀ rest, ∀ c ∈ (everyWord ++ rest).head?, isBlank c = false := by
    rintro rest c ⟨⟩
    rfl
  by_cases hnil : body = []
  · -- All that follows the word is blank.
    subst hnil
    have hblank : ∀ c ∈ front ++ back, isBlank c = true := by
      intro c hc
      exact (List.mem_append.mp hc).elim (hfront c) (hback c)
    have hlast : ∀ c ∈ everyWord.getLast?, isBlank c = false := by
      rintro c ⟨⟩
      rfl
    exact ⟨[], trimChars_margins (List.forall_mem_nil _) hblank ⟨hhead [], hlast⟩, rfl⟩
  · have hword : IsTrim (everyWord ++ (front ++ body)) := by
      refine ⟨hhead _, fun c hc => hbody.last c ?_⟩
      rwa [← List.append_assoc, List.getLast?_append_of_ne_nil _ hnil] at hc
    refine ⟨front ++ body, ?_, ?_⟩
    · simpa using trimChars_margins (List.forall_mem_nil _) hback hword
    · simpa using trimChars_margins hfront (List.forall_mem_nil _) hbody

/-- An interval may be surrounded by blanks. -/
theorem parse_every (s : String) :
    Schedule.parse ("@every" ++ s) =
      match readInterval (trimChars s.toList) with
      | .error fault => .error (.interval fault)
      | .ok interval => .ok (.every interval) := by
  obtain ⟨rest, hword, hrest⟩ := trimChars_everyWord s.toList
  have hchars : ("@every" ++ s).toList = everyWord ++ s.toList := String.toList_append
  have hprefix : everyWord.isPrefixOf (everyWord ++ rest) = true :=
    List.isPrefixOf_iff_prefix.mpr (List.prefix_append _ _)
  have hnonempty : ¬ (everyWord ++ rest).isEmpty = true := nofun
  unfold Schedule.parse
  cases hread : readInterval (trimChars s.toList) <;>
    simp only [hchars, hword, if_neg hnonempty, hprefix, if_true, List.drop_left, hrest, hread]

/-- A schedule is read behind the word of intervals exactly if the text there, without the blanks
around it, consists of segments that are in range with their sums and do not come to nothing. It
is then the interval of their sum, in whatever order they stand; any other text is refused. -/
theorem reads_sums_of_segments :
    (∀ s schedule, Schedule.parse ("@every" ++ s) = .ok schedule ↔
      ∃ total, schedule = .every total ∧ SaysInterval (trimChars s.toList) total) ∧
    (∀ s, (∀ total, ¬ SaysInterval (trimChars s.toList) total) →
      ∃ fault, Schedule.parse ("@every" ++ s) = .error (.interval fault)) ∧
    ∀ (s s' : String) (segs segs' : List Segment), (∀ x ∈ segs, x.IsProper) → segs.Perm segs' →
      trimChars s.toList = segs.flatMap Segment.text →
      trimChars s'.toList = segs'.flatMap Segment.text →
      ∀ schedule, Schedule.parse ("@every" ++ s) = .ok schedule ↔
        Schedule.parse ("@every" ++ s') = .ok schedule := by
  have hreads : ∀ s schedule, Schedule.parse ("@every" ++ s) = .ok schedule ↔
      ∃ total, schedule = .every total ∧ readInterval (trimChars s.toList) = .ok total := by
    intro s schedule
    rw [parse_every]
    cases readInterval (trimChars s.toList) with
    | error fault => simp
    | ok interval => simp [eq_comm]
  refine ⟨fun s schedule => ?_, fun s hnone => ?_, ?_⟩
  · simp only [hreads, readInterval_eq_ok_iff]
  · rw [parse_every]
    cases hread : readInterval (trimChars s.toList) with
    | error fault => exact ⟨fault, rfl⟩
    | ok interval => exact absurd (readInterval_eq_ok_iff.mp hread) (hnone interval)
  · intro s s' segs segs' hsegs hperm hs hs' schedule
    have hsegs' : ∀ x ∈ segs', x.IsProper := fun x hx => hsegs x (hperm.mem_iff.mpr hx)
    have hne : segs ≠ [] ↔ segs' ≠ [] := by
      rw [← List.length_pos_iff, ← List.length_pos_iff, hperm.length_eq]
    have hsum : ∀ total, SumsTo segs total ↔ SumsTo segs' total :=
      fun total => ⟨fun h => h.perm hperm, fun h => h.perm hperm.symm⟩
    simp only [hreads, hs, hs', readInterval_flatMap hsegs, readInterval_flatMap hsegs', hne, hsum]

/-- An hour and a half, with the larger unit first or last. -/
theorem reads_sums_of_segments_hourAndHalf :
    Schedule.parse ("@every" ++ " 1h30m") = .ok (.every ⟨5400000000000⟩) ∧
      Schedule.parse ("@every" ++ " 30m1h") = .ok (.every ⟨5400000000000⟩) := by
  let hour : Segment := ⟨['1'], ['h']⟩
  let half : Segment := ⟨['3', '0'], ['m']⟩
  have hhour : hour.IsProper :=
    ⟨List.forall_mem_singleton.mpr (Or.inl rfl), ⟨'1', .head _, rfl⟩, by decide, by decide⟩
  have hhalf : half.IsProper :=
    ⟨List.forall_mem_cons.mpr ⟨Or.inl rfl, List.forall_mem_singleton.mpr (Or.inl rfl)⟩,
      ⟨'3', .head _, rfl⟩, by decide, by decide⟩
  have hproper : ∀ x ∈ [hour, half], x.IsProper := by
    rw [List.forall_mem_cons, List.forall_mem_singleton]
    exact ⟨hhour, hhalf⟩
  have hread : Schedule.parse ("@every" ++ " 1h30m") = .ok (.every ⟨5400000000000⟩) := by
    decide +kernel
  have hswap := reads_sums_of_segments.2.2 " 1h30m" " 30m1h" [hour, half] [half, hour] hproper
    (List.Perm.swap half hour []) (by decide) (by decide)
  exact ⟨hread, (hswap _).mp hread⟩

end EdgeSync.Schedule
