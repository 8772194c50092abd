import EdgeSync.Proofs.Schedule.Upcoming

/-!
# Calendars With Years

The search of a calendar that lists its years begins in the first listed year that has not
passed. It enters that year at the month, day and time of the second after the present one,
whether or not the year is the present one. So when the listed year lies ahead, its seconds
before the entry are passed over: the delay leads to a later trigger than the next one, or there
is none although seconds that are allowed are still to come.

## Main definitions

- `Calendar.PassesOver`: a second lies in the first listed year, before the entry into it

## Main results

- `Calendar.triggers_from_entry_on`: the delay leads to the first allowed second that is not
  passed over
- `Calendar.no_delay_before_newYear2030`: no trigger, although one is still to come
-/

namespace EdgeSync.Schedule

open EdgeSync.Time

variable {s : Schedule} {c : Calendar} {q : Moment} {now : Instant} {t : Int}

namespace Calendar

/-- The first listed year that is not before that of a moment. -/
def IsFirstYear (c : Calendar) (q : Moment) (year : Nat) : Prop :=
  IsLeast {year ∈ c.yearValues | q.year ≤ year} year

/-- A second lies in the first listed year, which is still ahead, and before the entry into it. -/
def PassesOver (c : Calendar) (now : Instant) (t : Int) : Prop :=
  ∃ year, c.IsFirstYear (nextSecond now) year ∧ (nextSecond now).year < year ∧
    (Moment.ofUnix t).year = year ∧ (Moment.ofUnix t).Before (c.entry (nextSecond now) year)

theorem isFirstYear_of_head (hc : c.IsProper) {first : Nat}
    (hfirst : (c.yearsFrom q).head? = some first) : c.IsFirstYear q first := by
  refine ⟨mem_yearsFrom.mp (List.mem_of_head? hfirst), fun year hyear => ?_⟩
  exact candidates_head_le hc.years.ascending hfirst (mem_yearsFrom.mpr hyear)

/-- The search begins at the entry into the first listed year. -/
theorem start?_eq_some_iff (hc : c.IsProper) {start : Moment} :
    c.start? q = some start ↔ ∃ year, c.IsFirstYear q year ∧ c.entry q year = start := by
  constructor
  · intro hstart
    obtain ⟨first, hfirst, hentry⟩ := Option.map_eq_some_iff.mp hstart
    exact ⟨first, isFirstYear_of_head hc hfirst, hentry⟩
  · rintro ⟨year, hyear, rfl⟩
    have hmem : year ∈ c.yearsFrom q := mem_yearsFrom.mpr hyear.1
    have hhead := List.head?_eq_some_head (List.ne_nil_of_mem hmem)
    rw [start?, hhead, Option.map_some, (isFirstYear_of_head hc hhead).unique hyear]

/-- An allowed second is out of reach exactly if it is passed over. -/
theorem not_mem_reached_iff (hc : c.IsProper) (ht : t ∈ secondsAfter now c.allowed) :
    t ∉ c.reached now ↔ c.PassesOver now t := by
  have hq := isValid_nextSecond now
  have hm := Moment.isValid_ofUnix t
  have hle : (nextSecond now).toUnix ≤ (Moment.ofUnix t).toUnix := by
    rw [Moment.toUnix_ofUnix]
    exact (nanos_lt_iff now t).mp ht.2
  constructor
  · intro hnot
    -- Something keeps the second from being reached: the search begins after it.
    obtain ⟨start, hstart, hlt⟩ : ∃ start ∈ c.start? (nextSecond now), t < start.toUnix := by
      by_contra hall
      push Not at hall
      exact hnot ⟨ht, hall⟩
    obtain ⟨first, hfirst, rfl⟩ := (start?_eq_some_iff hc).mp hstart
    have hbefore : (Moment.ofUnix t).Before (c.entry (nextSecond now) first) :=
      Moment.before_of_toUnix_lt (by rwa [Moment.toUnix_ofUnix]) hm (isValid_entry c hq first)
    -- Its year is listed, so not before the first one, and being before the entry not after.
    obtain ⟨year, hmem, heq⟩ := exists_yearsFrom hq hm ht.1 hle
    have hge : first ≤ year := hfirst.2 (mem_yearsFrom.mp hmem)
    have hsame : (Moment.ofUnix t).year = first := by
      have hentry := (c.entry_date (nextSecond now) first).1
      unfold Moment.Before at hbefore
      omega
    refine ⟨first, hfirst, lt_of_le_of_ne hfirst.1.2 ?_, hsame, hbefore⟩
    -- Otherwise the entry is the second after the present one, and nothing is before it.
    intro hpresent
    rw [← hpresent, c.entry_self hq] at hlt
    rw [Moment.toUnix_ofUnix] at hle
    exact absurd hle (not_le.mpr hlt)
  · rintro ⟨year, hfirst, -, -, hbefore⟩ hreached
    have hafter := hreached.2 _ ((start?_eq_some_iff hc).mpr ⟨year, hfirst, rfl⟩)
    have hlt := hbefore.toUnix_lt hm (isValid_entry c hq year)
    rw [Moment.toUnix_ofUnix] at hlt
    exact absurd hafter (not_le.mpr hlt)

/-- What is passed over comes before all that can be reached. -/
theorem PassesOver.lt (hc : c.IsProper) (h : c.PassesOver now t) {t' : Int}
    (ht' : t' ∈ c.reached now) : t < t' := by
  obtain ⟨year, hfirst, -, -, hbefore⟩ := h
  have hlt := hbefore.toUnix_lt (Moment.isValid_ofUnix t)
    (isValid_entry c (isValid_nextSecond now) year)
  rw [Moment.toUnix_ofUnix] at hlt
  exact hlt.trans_le (ht'.2 _ ((start?_eq_some_iff hc).mpr ⟨year, hfirst, rfl⟩))

end Calendar

theorem LeadsTo.exists_isLeast {seconds : Set Int} (h : s.LeadsTo now seconds)
    (ht : t ∈ seconds) : ∃ first, IsLeast seconds first := by
  cases hdelay : s.nextDelay now with
  | none =>
    rw [h.2.mp hdelay] at ht
    exact absurd ht (Set.notMem_empty t)
  | some delay =>
    obtain ⟨first, hleast, -, -⟩ := (h.1 delay).mp hdelay
    exact ⟨first, hleast⟩

/-- If a delay leads to the first second of two sets, it is the same one. -/
theorem LeadsTo.isLeast {seconds others : Set Int} (h : s.LeadsTo now seconds)
    (h' : s.LeadsTo now others) (hleast : IsLeast seconds t) : IsLeast others t := by
  cases hdelay : s.nextDelay now with
  | none => exact absurd (h.2.mp hdelay) hleast.nonempty.ne_empty
  | some delay =>
    obtain ⟨t₁, hleast₁, -, harrives₁⟩ := (h.1 delay).mp hdelay
    obtain ⟨t₂, hleast₂, -, harrives₂⟩ := (h'.1 delay).mp hdelay
    have hsame : Instant.ofUnix t₁ 0 = Instant.ofUnix t₂ 0 := harrives₁.symm.trans harrives₂
    simp only [Instant.ofUnix, nanosPerSecond, Instant.mk.injEq] at hsame
    obtain rfl : t₁ = t₂ := by omega
    rwa [hleast.unique hleast₁]

namespace Calendar

/-- The seconds that are not passed over are those that the search can find. -/
theorem reached_eq_notPassed (hc : c.IsProper) :
    c.reached now = {t ∈ secondsAfter now c.allowed | ¬ c.PassesOver now t} := by
  ext t
  constructor
  · intro ht
    exact ⟨ht.1, fun hpassed => (not_mem_reached_iff hc ht.1).mpr hpassed ht⟩
  · rintro ⟨ht, hnot⟩
    exact not_not.mp (mt (not_mem_reached_iff hc ht).mp hnot)

/-- The delay leads to the first allowed second exactly if none is passed over. -/
theorem leadsTo_allowed_iff (hc : c.IsProper) (hnow : 0 ≤ now.nanos) :
    (Schedule.calendar c).LeadsTo now (secondsAfter now c.allowed) ↔
      ∀ t ∈ secondsAfter now c.allowed, ¬ c.PassesOver now t := by
  have hreached := leadsTo_reached hc hnow
  constructor
  · intro hleads t ht hpassed
    obtain ⟨first, hfirst⟩ := hleads.exists_isLeast ht
    -- The first allowed second would be reached, and so come after one that is passed over.
    have hle : first ≤ t := hfirst.2 ht
    have hlt : t < first := hpassed.lt hc (hleads.isLeast hreached hfirst).1
    exact absurd hle (not_le.mpr hlt)
  · intro hnone
    have hall : c.reached now = secondsAfter now c.allowed := by
      rw [reached_eq_notPassed hc]
      exact Set.sep_eq_self_iff_mem_true.mpr hnone
    rwa [hall] at hreached

/-- A calendar that lists its years leads from any instant of 1970 or later to the first second
after it that matches all fields and is not passed over. So it leads to the first matching
second exactly if none of them is passed over; and none is if the year of the following second
is listed. -/
theorem triggers_from_entry_on {expression : String} {years : List Nat}
    (hparse : Schedule.parse expression = .ok (.calendar c)) (hyears : c.years = some years)
    (hnow : 0 ≤ now.nanos) :
    (Schedule.calendar c).LeadsTo now
      {t ∈ secondsAfter now c.allowed | ¬ c.PassesOver now t} ∧
    ((Schedule.calendar c).LeadsTo now (secondsAfter now c.allowed) ↔
      ∀ t ∈ secondsAfter now c.allowed, ¬ c.PassesOver now t) ∧
    ((∃ year ∈ years, (year : Int) = (nextSecond now).year) →
      (Schedule.calendar c).LeadsTo now (secondsAfter now c.allowed)) := by
  have hc := isProper_of_parse hparse
  refine ⟨?_, leadsTo_allowed_iff hc hnow, ?_⟩
  · rw [← reached_eq_notPassed hc]
    exact leadsTo_reached hc hnow
  · rintro ⟨year, hlisted, hpresent⟩
    refine (leadsTo_allowed_iff hc hnow).mpr fun t _ hpassed => ?_
    obtain ⟨first, hfirst, hahead, -⟩ := hpassed
    have hmem : year ∈ c.yearValues := by
      rw [yearValues, hyears]
      exact hlisted
    have hle : first ≤ year := hfirst.2 ⟨hmem, hpresent.ge⟩
    omega

/-- Midnight of New Year's Day of 2030. -/
def newYear2030 : Calendar :=
  ⟨[0], [0], [0], [1], [1], [1, 2, 3, 4, 5, 6, 7], some [2030]⟩

theorem allowed_newYear2030 : (1893456000 : Int) ∈ newYear2030.allowed := by
  show newYear2030.allows (Moment.ofUnix 1893456000) = true
  decide +kernel

/-- From noon of the fifteenth of June 2025, the only second of a calendar is passed over. -/
theorem passesOver_newYear2030 :
    Schedule.parse "0 0 0 1 1 * 2030" = .ok (.calendar newYear2030) ∧
      newYear2030.PassesOver (Instant.ofUnix 1749988800 0) 1893456000 := by
  have hparse : Schedule.parse "0 0 0 1 1 * 2030" = .ok (.calendar newYear2030) := rfl
  have hnow : 0 ≤ (Instant.ofUnix 1749988800 0).nanos := by decide
  have hleads := (triggers_from_entry_on hparse rfl hnow).1
  have hnone : (Schedule.calendar newYear2030).nextDelay (Instant.ofUnix 1749988800 0) = none := by
    decide +kernel
  have hmem : (1893456000 : Int) ∈
      secondsAfter (Instant.ofUnix 1749988800 0) newYear2030.allowed :=
    ⟨allowed_newYear2030, by decide⟩
  refine ⟨hparse, by_contra fun hnot => ?_⟩
  exact Set.eq_empty_iff_forall_notMem.mp (hleads.2.mp hnone) _ ⟨hmem, hnot⟩

/-- There is no delay although an allowed second is still to come. -/
theorem no_delay_before_newYear2030 :
    ∃ c, Schedule.parse "0 0 0 1 1 * 2030" = .ok (.calendar c) ∧
      (Schedule.calendar c).nextDelay (Instant.ofUnix 1749988800 0) = none ∧
      1893456000 ∈ secondsAfter (Instant.ofUnix 1749988800 0) c.allowed :=
  ⟨newYear2030, rfl, by decide +kernel, allowed_newYear2030, by decide⟩

end Calendar

end EdgeSync.Schedule
