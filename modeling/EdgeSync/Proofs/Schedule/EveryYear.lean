import EdgeSync.Proofs.Schedule.Upcoming

/-!
# Calendars Without Years

A calendar without a list of years allows every year up to 2100. Then the search begins in the
second after the present one, and nothing is ahead of it. So the delay leads to the first second
that fits, and a task that is triggered again and again meets all of them in order until the
last year is over.

## Main definitions

- `arrivals`: the instants at which delays end, each counted from the one before
- `Traces`: the first seconds of a set, as delays lead from one to the next
- `Calendar.fitting`: the seconds before the end of 2100 that fit a calendar

## Main results

- `traces_delays`, `exists_arrival`: delays that lead to the first second of a set trace it, and
  leave no second out
- `Calendar.triggers_at_every_fitting_second`: the delays of a calendar without years trace the
  fitting seconds
-/

namespace EdgeSync.Schedule

open EdgeSync.Time

/-! ## From One Trigger to the Next -/

/-- The instants at which delays end, each counted from the one before. -/
def arrivals : Instant → List (Option Span) → List Instant
  | _, [] => []
  | now, none :: rest => arrivals now rest
  | now, some delay :: rest => now.after delay :: arrivals (now.after delay) rest

/-- Delays from an instant on lead through seconds of a set: in order, none of them skipped, and
with an end only if the set ends. -/
structure Traces (delays : List (Option Span)) (now : Instant) (seconds : Set Int)
    (ts : List Int) : Prop where
  arrives : arrivals now delays = ts.map (Instant.ofUnix · 0)
  ascending : ts.Pairwise (· < ·)
  mem : ∀ t ∈ ts, t ∈ seconds
  skips_none : ∀ t ∈ seconds, t ∉ ts → ∀ t' ∈ ts, t' < t
  ends : none ∈ delays → ∀ t ∈ seconds, t ∈ ts

variable {s : Schedule} {seconds : Set Int} {now : Instant} {c : Calendar} {t : Int}

theorem secondsAfter_ofUnix (hlater : now.nanos < (Instant.ofUnix t 0).nanos) {t' : Int} :
    t' ∈ secondsAfter (Instant.ofUnix t 0) seconds ↔ t' ∈ secondsAfter now seconds ∧ t < t' := by
  have hlt : (Instant.ofUnix t 0).nanos < (Instant.ofUnix t' 0).nanos ↔ t < t' := by
    simp only [Instant.ofUnix, nanosPerSecond]
    omega
  constructor
  · rintro ⟨hmem, hafter⟩
    exact ⟨⟨hmem, hlater.trans hafter⟩, hlt.mp hafter⟩
  · rintro ⟨⟨hmem, -⟩, hafter⟩
    exact ⟨hmem, hlt.mpr hafter⟩

theorem delays_of_none (h : s.nextDelay now = none) (count : Nat) :
    s.delays (count + 1) now = [none] := by
  simp only [delays, h]

theorem delays_of_some {delay : Span} (h : s.nextDelay now = some delay) (count : Nat) :
    s.delays (count + 1) now = some delay :: s.delays count (now.after delay) := by
  simp only [delays, h]

/-- One more delay at the front: it leads to the first second, and the others trace the rest. -/
theorem Traces.cons {delays : List (Option Span)} {delay : Span} {ts : List Int}
    (hleast : IsLeast (secondsAfter now seconds) t)
    (harrives : now.after delay = Instant.ofUnix t 0)
    (h : Traces delays (Instant.ofUnix t 0) (secondsAfter (Instant.ofUnix t 0) seconds) ts) :
    Traces (some delay :: delays) now (secondsAfter now seconds) (t :: ts) := by
  have hrest : ∀ t', t' ∈ secondsAfter (Instant.ofUnix t 0) seconds ↔
      t' ∈ secondsAfter now seconds ∧ t < t' := fun t' => secondsAfter_ofUnix hleast.1.2
  -- A second that is not the first one is one of the rest.
  have hothers : ∀ t' ∈ secondsAfter now seconds, t' ≠ t →
      t' ∈ secondsAfter (Instant.ofUnix t 0) seconds :=
    fun t' ht' hne => (hrest t').mpr ⟨ht', lt_of_le_of_ne (hleast.2 ht') hne.symm⟩
  constructor
  · rw [arrivals, harrives, h.arrives, List.map_cons]
  · refine List.pairwise_cons.mpr ⟨fun t' ht' => ?_, h.ascending⟩
    exact ((hrest t').mp (h.mem t' ht')).2
  · rintro t' (_ | ⟨_, ht'⟩)
    · exact hleast.1
    · exact ((hrest t').mp (h.mem t' ht')).1
  · intro t' ht' hnot
    obtain ⟨hne, hnot⟩ := List.ne_and_not_mem_of_not_mem_cons hnot
    have hlater := hothers t' ht' hne
    rintro t'' (_ | ⟨_, ht''⟩)
    · exact ((hrest t').mp hlater).2
    · exact h.skips_none t' hlater hnot t'' ht''
  · intro hends t' ht'
    have hends : none ∈ delays := by simpa using hends
    rcases eq_or_ne t' t with rfl | hne
    · exact List.mem_cons_self
    · exact List.mem_cons_of_mem t (h.ends hends t' (hothers t' ht' hne))

/-- Delays that always lead to the first second of a set trace it. -/
theorem traces_delays
    (hleads : ∀ now : Instant, 0 ≤ now.nanos → s.LeadsTo now (secondsAfter now seconds))
    (count : Nat) (hnow : 0 ≤ now.nanos) :
    ∃ ts, Traces (s.delays count now) now (secondsAfter now seconds) ts := by
  -- From the first second on there is one delay less to follow.
  induction count generalizing now with
  | zero => exact ⟨[], rfl, List.Pairwise.nil, by simp, by simp, by simp [delays]⟩
  | succ count ih =>
    obtain ⟨hsome, hnone⟩ := hleads now hnow
    cases hdelay : s.nextDelay now with
    | none =>
      rw [delays_of_none hdelay, hnone.mp hdelay]
      exact ⟨[], rfl, List.Pairwise.nil, by simp, by simp, by simp⟩
    | some delay =>
      obtain ⟨t, hleast, -, harrives⟩ := (hsome delay).mp hdelay
      have hlater : now.nanos < (Instant.ofUnix t 0).nanos := hleast.1.2
      have hnext : 0 ≤ (Instant.ofUnix t 0).nanos := hnow.trans hlater.le
      obtain ⟨ts, hts⟩ := ih hnext
      rw [delays_of_some hdelay, harrives]
      exact ⟨t :: ts, hts.cons hleast harrives⟩

/-- Every second of the set is met after some number of delays. -/
theorem exists_arrival
    (hleads : ∀ now : Instant, 0 ≤ now.nanos → s.LeadsTo now (secondsAfter now seconds))
    (hnow : 0 ≤ now.nanos) (ht : t ∈ secondsAfter now seconds) :
    ∃ count, Instant.ofUnix t 0 ∈ arrivals now (s.delays count now) := by
  -- By induction on the distance: every delay before the second leaves less of it.
  induction hdistance : (t - now.seconds).toNat using Nat.strong_induction_on
    generalizing now with
  | _ distance ih =>
    obtain ⟨hsome, hnone⟩ := hleads now hnow
    cases hdelay : s.nextDelay now with
    | none =>
      rw [hnone.mp hdelay] at ht
      exact absurd ht (Set.notMem_empty t)
    | some delay =>
      obtain ⟨first, hleast, -, harrives⟩ := (hsome delay).mp hdelay
      have hlater : now.nanos < (Instant.ofUnix first 0).nanos := hleast.1.2
      rcases (hleast.2 ht).eq_or_lt with rfl | hlt
      · -- It is the first second itself.
        refine ⟨1, ?_⟩
        rw [delays_of_some hdelay, arrivals, harrives]
        exact List.mem_cons_self
      · -- From the first second the way is shorter.
        have hcloser : (t - (Instant.ofUnix first 0).seconds).toNat < distance := by
          simp only [Instant.ofUnix, Instant.seconds, nanosPerSecond] at hlater hdistance ⊢
          omega
        obtain ⟨count, hcount⟩ :=
          ih _ hcloser (by omega) ((secondsAfter_ofUnix hlater).mpr ⟨ht, hlt⟩) rfl
        refine ⟨count + 1, ?_⟩
        rw [delays_of_some hdelay, arrivals, harrives]
        exact List.mem_cons_of_mem _ hcount

/-! ## Fitting Seconds -/

namespace Calendar

/-- The seconds before the end of 2100 that fit a calendar. -/
def fitting (c : Calendar) : Set Int :=
  {t | t < (Moment.newYear 2101).toUnix ∧ c.Fits (Moment.ofUnix t)}

theorem mem_yearValues (hyears : c.years = none) {year : Nat} :
    year ∈ c.yearValues ↔ 1970 ≤ year ∧ year ≤ 2100 := by
  rw [yearValues, hyears, Option.getD_none, TimeUnit.values, List.mem_range'_1]
  simp only [TimeUnit.least, TimeUnit.greatest]
  omega

/-- Without years the search finds every fitting second after an instant of 1970 or later. -/
theorem reached_eq_fitting (hc : c.IsProper) (hyears : c.years = none) (hnow : 0 ≤ now.nanos) :
    c.reached now = secondsAfter now c.fitting := by
  have hstart := year_nextSecond hnow
  ext t
  constructor
  · rintro ⟨⟨hallows, hlater⟩, -⟩
    obtain ⟨hfits, year, hlisted, heq⟩ := (c.allows_iff _).mp hallows
    have hyear := (mem_yearValues hyears).mp hlisted
    exact ⟨⟨(Moment.year_ofUnix_lt_iff t 2101).mp (by omega), hfits⟩, hlater⟩
  · rintro ⟨⟨hbefore, hfits⟩, hlater⟩
    have hle := (nanos_lt_iff now t).mp hlater
    have hlast := (Moment.year_ofUnix_lt_iff t 2101).mpr hbefore
    have hfirst : (nextSecond now).year ≤ (Moment.ofUnix t).year :=
      Moment.year_le_year (by rwa [Moment.toUnix_ofUnix]) (isValid_nextSecond now)
        (Moment.isValid_ofUnix t)
    -- All years between that of the search and the last one are listed.
    have hlisted : ∀ m : Moment, (nextSecond now).year ≤ m.year → m.year < 2101 →
        ∃ year ∈ c.yearValues, (year : Int) = m.year := fun m hge hlt =>
      ⟨m.year.toNat, (mem_yearValues hyears).mpr (by omega), by omega⟩
    refine ⟨⟨(c.allows_iff _).mpr ⟨hfits, hlisted _ hfirst hlast⟩, hlater⟩, ?_⟩
    obtain ⟨year, hyear, heq⟩ := hlisted (nextSecond now) (le_refl _) (by omega)
    rw [start?_eq_self hc (isValid_nextSecond now) hyear heq]
    rintro start ⟨⟩
    exact hle

/-- Every descriptor is read as a calendar without years. -/
theorem parse_descriptor {text fields : String} (h : descriptor? text = some fields) :
    ∃ c, Schedule.parse text = .ok (.calendar c) ∧ c.years = none := by
  unfold descriptor? at h
  split at h
  case h_8 => cases h
  all_goals exact ⟨_, rfl, rfl⟩

/-- A calendar without years, such as a descriptor gives, leads from any instant of 1970 or later
to the first fitting second after it; from one trigger to the next it traces the fitting seconds,
and every one of them is met. -/
theorem triggers_at_every_fitting_second :
    (∀ text fields, descriptor? text = some fields →
      ∃ c, Schedule.parse text = .ok (.calendar c) ∧ c.years = none) ∧
    ∀ expression c, Schedule.parse expression = .ok (.calendar c) → c.years = none →
      ∀ now : Instant, 0 ≤ now.nanos →
        (Schedule.calendar c).LeadsTo now (secondsAfter now c.fitting) ∧
        (∀ count, ∃ ts, Traces ((Schedule.calendar c).delays count now) now
          (secondsAfter now c.fitting) ts) ∧
        ∀ t ∈ secondsAfter now c.fitting,
          ∃ count, Instant.ofUnix t 0 ∈ arrivals now ((Schedule.calendar c).delays count now) := by
  refine ⟨fun text fields => parse_descriptor, fun expression c hparse hyears => ?_⟩
  have hc := isProper_of_parse hparse
  have hleads : ∀ now : Instant, 0 ≤ now.nanos →
      (Schedule.calendar c).LeadsTo now (secondsAfter now c.fitting) := by
    intro now hnow
    rw [← reached_eq_fitting hc hyears hnow]
    exact leadsTo_reached hc hnow
  exact fun now hnow => ⟨hleads now hnow, fun count => traces_delays hleads count hnow,
    fun t ht => exists_arrival hleads hnow ht⟩

/-- Half past ten on a leap day that is a Sunday. -/
def leapSundays : Calendar :=
  ⟨[0], [30], [10], [29], [2], [1], none⟩

/-- From noon of the leap day of 2024, a Thursday, the first such second is in 2032. -/
theorem triggers_on_leap_sunday :
    Schedule.parse "30 10 29 2 sun" = .ok (.calendar leapSundays) ∧ leapSundays.years = none ∧
      IsLeast (secondsAfter (Instant.ofUnix 1709208000 0) leapSundays.fitting) 1961663400 := by
  have hparse : Schedule.parse "30 10 29 2 sun" = .ok (.calendar leapSundays) := rfl
  have hdelay : (Schedule.calendar leapSundays).nextDelay (Instant.ofUnix 1709208000 0) =
      some ⟨252455400000000000⟩ := by decide +kernel
  have hleads := (triggers_at_every_fitting_second.2 _ _ hparse rfl
    (Instant.ofUnix 1709208000 0) (by decide)).1
  obtain ⟨t, hleast, -, harrives⟩ := (hleads.1 _).mp hdelay
  simp only [Instant.after, Instant.ofUnix, nanosPerSecond, Instant.mk.injEq] at harrives
  obtain rfl : t = 1961663400 := by omega
  exact ⟨hparse, rfl, hleast⟩

end Calendar

end EdgeSync.Schedule
