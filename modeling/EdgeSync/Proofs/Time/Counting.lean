import EdgeSync.Time.Civil
import Mathlib.Tactic.IntervalCases

/-!
# Counting Days and Seconds

Every whole second has one civil moment, and the moments come in the order of their units:
of two different moments the one with the smaller year is the earlier one, within a year the
one with the smaller month, and so on. So counting forward and reading off the civil fields
undo each other.

## Main definitions

- `IsDate`, `Moment.IsValid`: the dates of the calendar, and moments at such dates
- `Moment.Before`: the order of moments by their units
- `EraDay`: a day of an era of 400 years, by century, cycle of four years, year and day

## Main results

- `dateOfDay_spec`: every day has a date with its number
- `Moment.Before.toUnix_lt`: the order by units is the order in time
- `Moment.toUnix_ofUnix`, `Moment.ofUnix_toUnix`: moments and counted seconds
-/

namespace EdgeSync.Time

/-! ## Dates -/

/-- A date that the calendar has. -/
structure IsDate (year : Int) (month day : Nat) : Prop where
  month_pos : 1 ≤ month
  month_le : month ≤ 12
  day_pos : 1 ≤ day
  day_le : day ≤ monthLength year month

theorem le_monthLength (year : Int) (month : Nat) : 28 ≤ monthLength year month := by
  unfold monthLength
  split_ifs <;> omega

/-- The days of a month are counted one by one. -/
theorem dayNumber_day (year : Int) (month day : Nat) :
    dayNumber year month day = dayNumber year month 1 + (day - 1) := by
  unfold dayNumber
  push_cast
  omega

theorem dayNumber_next_month (year : Int) {month : Nat} (h : 1 ≤ month) (h' : month < 12) :
    dayNumber year (month + 1) 1 = dayNumber year month 1 + monthLength year month := by
  -- The leap day is counted at the end of the year that begins in March, so only February
  -- needs the rule for leap years.
  unfold dayNumber monthLength isLeap
  interval_cases month <;> simp <;> omega

theorem dayNumber_next_year (year : Int) :
    dayNumber (year + 1) 1 1 = dayNumber year 12 1 + monthLength year 12 := by
  simp only [dayNumber, monthLength]
  norm_num
  omega

/-- A month is over when a later one of the year begins. -/
theorem dayNumber_later_month (year : Int) {month later : Nat} (h : 1 ≤ month)
    (hlt : month < later) (hle : later ≤ 12) :
    dayNumber year month 1 + monthLength year month ≤ dayNumber year later 1 := by
  -- The later month moves on, and each month before it is over by then.
  induction later, hlt using Nat.le_induction with
  | base => rw [← dayNumber_next_month year h (by omega)]
  | succ later hlater ih =>
    have hnext := dayNumber_next_month year (by omega : 1 ≤ later) (by omega)
    have hbefore := ih (by omega)
    omega

/-- A year is over when a later one begins. -/
theorem dayNumber_later_year {year later : Int} (hlt : year < later) :
    dayNumber year 12 1 + monthLength year 12 ≤ dayNumber later 1 1 := by
  induction later, hlt using Int.leInduction with
  | base => rw [← dayNumber_next_year]
  | succ later hlater ih =>
    have hnext := dayNumber_next_year later
    have hyear := dayNumber_later_month later (le_refl 1) (by omega : 1 < 12) (le_refl 12)
    omega

/-- The dates are counted in the order of year, month and day. -/
theorem IsDate.dayNumber_lt {year year' : Int} {month month' day day' : Nat}
    (h : IsDate year month day) (h' : IsDate year' month' day')
    (hbefore : year < year' ∨ year = year' ∧ (month < month' ∨ month = month' ∧ day < day')) :
    dayNumber year month day < dayNumber year' month' day' := by
  obtain ⟨hmonth, hmonth12, hday, hlast⟩ := h
  obtain ⟨hmonth', hmonth12', hday', -⟩ := h'
  rw [dayNumber_day year, dayNumber_day year']
  rcases hbefore with hyear | ⟨rfl, hlt | ⟨rfl, hlt⟩⟩
  · -- The first date is not after the end of its year, the second not before the new year.
    have hover := dayNumber_later_year hyear
    have hend : dayNumber year month 1 + monthLength year month ≤
        dayNumber year 12 1 + monthLength year 12 := by
      rcases Nat.lt_or_ge month 12 with hlt | hge
      · have := dayNumber_later_month year hmonth hlt (le_refl 12)
        omega
      · obtain rfl : month = 12 := Nat.le_antisymm hmonth12 hge
        exact le_refl _
    have hbegin : dayNumber year' 1 1 ≤ dayNumber year' month' 1 := by
      rcases Nat.lt_or_ge 1 month' with hlt | hge
      · have := dayNumber_later_month year' (le_refl 1) hlt hmonth12'
        omega
      · obtain rfl : month' = 1 := Nat.le_antisymm hge hmonth'
        exact le_refl _
    omega
  · have := dayNumber_later_month year hmonth hlt hmonth12'
    omega
  · omega

/-! ## The Date of a Day -/

/-- The days before a year that begins in March. -/
theorem dayNumber_march (year : Int) :
    dayNumber year 3 1 =
      year / 400 * 146097 + (year % 400 * 365 + year % 400 / 4 - year % 400 / 100) - 719468 := by
  simp [dayNumber]

/-- From March to December a date is counted within the year that began in its March. -/
theorem dayNumber_late {year : Int} {k : Nat} (day : Nat) :
    dayNumber year (k + 3) day = dayNumber year 3 1 + ((153 * (k : Int) + 2) / 5 + day - 1) := by
  have hmonth : ¬ k + 3 ≤ 2 := by omega
  rw [dayNumber_march]
  simp only [dayNumber, if_neg hmonth]
  push_cast
  omega

/-- January and February are counted within the year before. -/
theorem dayNumber_early {year : Int} {k : Nat} (day : Nat) (hk : 10 ≤ k) (hk' : k < 12) :
    dayNumber (year + 1) (k - 9) day =
      dayNumber year 3 1 + ((153 * (k : Int) + 2) / 5 + day - 1) := by
  have hmonth : k - 9 ≤ 2 := by omega
  rw [dayNumber_march]
  simp only [dayNumber, if_pos hmonth, Int.add_sub_cancel]
  omega

/-- A day of an era: its century, the cycle of four years in the century, the year of the
cycle, and the day of the year. Only the last year of a cycle has a leap day, and of the last
cycles of the centuries only that of the last century. -/
structure EraDay (n c q p d : Int) : Prop where
  eq : n = 36524 * c + 1461 * q + 365 * p + d
  century : 0 ≤ c ∧ c ≤ 3
  cycle : 0 ≤ q ∧ q ≤ 24
  year : 0 ≤ p ∧ p ≤ 3
  day : 0 ≤ d ∧ (d ≤ 364 ∨ d = 365 ∧ p = 3 ∧ (q ≤ 23 ∨ c = 3))

theorem exists_eraDay {n : Int} (h : 0 ≤ n) (h' : n < 146097) :
    ∃ c q p d, EraDay n c q p d := by
  -- The last day of the era would begin a fifth century, that of a cycle a fifth year.
  obtain ⟨c, r, hn, hc, hr⟩ : ∃ c r, n = 36524 * c + r ∧ (0 ≤ c ∧ c ≤ 3) ∧
      0 ≤ r ∧ (r ≤ 36523 ∨ c = 3 ∧ r = 36524) := by
    by_cases hlast : n = 146096
    · exact ⟨3, 36524, by omega, by omega, by omega⟩
    · exact ⟨n / 36524, n % 36524, by omega, by omega, by omega⟩
  obtain ⟨p, d, hs, hp, hd⟩ : ∃ p d, r % 1461 = 365 * p + d ∧ (0 ≤ p ∧ p ≤ 3) ∧
      0 ≤ d ∧ (d ≤ 364 ∨ p = 3 ∧ d = 365) := by
    by_cases hlast : r % 1461 = 1460
    · exact ⟨3, 365, by omega, by omega, by omega⟩
    · exact ⟨r % 1461 / 365, r % 1461 % 365, by omega, by omega, by omega⟩
  exact ⟨c, r / 1461, p, d, by omega, hc, by omega, hp, by omega⟩

namespace EraDay

variable {n c q p d : Int}

/-- Taking the leap days out of the days of an era leaves years of 365 days. -/
theorem yearOfEra (h : EraDay n c q p d) :
    (n - n / 1460 + n / 36524 - n / 146096) / 365 = 100 * c + 4 * q + p := by
  obtain ⟨hn, hc, hq, hp, hd⟩ := h
  -- Only on the last day of an era do both quotients count one too many.
  have hcentury : n / 36524 - n / 146096 = c := by
    by_cases hlast : n = 146096
    · omega
    · have hnext : n < 36524 * (c + 1) := by omega
      omega
  -- A cycle is counted as over late in its last year, and at the latest on its leap day.
  have hcycle : n / 1460 = 25 * c + q ∨ n / 1460 = 25 * c + q + 1 ∧ p = 3 ∧ 269 ≤ d := by omega
  have hleap : d = 365 → n / 1460 = 25 * c + q + 1 := by omega
  omega

theorem dayOfYear (h : EraDay n c q p d) :
    n - (365 * (100 * c + 4 * q + p) + (100 * c + 4 * q + p) / 4 -
      (100 * c + 4 * q + p) / 100) = d := by
  obtain ⟨hn, hc, hq, hp, -⟩ := h
  have hcycles : (100 * c + 4 * q + p) / 4 = 25 * c + q := by omega
  have hcenturies : (100 * c + 4 * q + p) / 100 = c := by omega
  omega

theorem dayNumber_eq (h : EraDay n c q p d) (era : Int) :
    dayNumber (100 * c + 4 * q + p + era * 400) 3 1 + d = era * 146097 + n - 719468 := by
  obtain ⟨hn, hc, hq, hp, -⟩ := h
  have hera : (100 * c + 4 * q + p + era * 400) / 400 = era := by omega
  have hyear : (100 * c + 4 * q + p + era * 400) % 400 = 100 * c + 4 * q + p := by omega
  rw [dayNumber_march, hera, hyear]
  omega

/-- A leap day belongs to the February of a leap year. -/
theorem isLeap_of_last (h : EraDay n c q p d) (era : Int) (hd : d = 365) :
    isLeap (100 * c + 4 * q + p + era * 400 + 1) = true := by
  obtain ⟨hn, hc, hq, hp, hday⟩ := h
  simp only [isLeap, Bool.and_eq_true, Bool.or_eq_true, beq_iff_eq, bne_iff_ne, ne_eq]
  omega

end EraDay

/-- Every day has a date with its number. -/
theorem dateOfDay_spec (number : Int) :
    ∃ year month day, dateOfDay number = (year, month, day) ∧ IsDate year month day ∧
      dayNumber year month day = number := by
  obtain ⟨c, q, p, d, h⟩ := exists_eraDay (n := (number + 719468) % 146097) (by omega) (by omega)
  have hnumber := h.dayNumber_eq ((number + 719468) / 146097)
  have hleap := h.isLeap_of_last ((number + 719468) / 146097)
  have hd := h.day
  simp only [dateOfDay, h.yearOfEra, h.dayOfYear]
  generalize 100 * c + 4 * q + p + (number + 719468) / 146097 * 400 = year at *
  obtain ⟨k, hk⟩ := Int.eq_ofNat_of_zero_le (show 0 ≤ (5 * d + 2) / 153 by omega)
  have hk12 : k < 12 := by omega
  rw [hk]
  refine ⟨_, _, _, rfl, ?_⟩
  by_cases hlate : k < 10
  · -- From March on the civil year is that of the March.
    have hmonth : (if (k : Int) < 10 then (k : Int) + 3 else k - 9) = ((k + 3 : Nat) : Int) := by
      rw [if_pos (by omega)]
      rfl
    have hyear : (if ((k + 3 : Nat) : Int) ≤ 2 then (1 : Int) else 0) = 0 := if_neg (by omega)
    rw [hmonth, hyear, Int.toNat_natCast, dayNumber_late, Int.add_zero]
    refine ⟨⟨by omega, by omega, by omega, ?_⟩, by omega⟩
    interval_cases k <;> simp [monthLength] <;> omega
  · have hmonth : (if (k : Int) < 10 then (k : Int) + 3 else k - 9) = ((k - 9 : Nat) : Int) := by
      rw [if_neg (by omega)]
      omega
    have hyear : (if ((k - 9 : Nat) : Int) ≤ 2 then (1 : Int) else 0) = 1 := if_pos (by omega)
    rw [hmonth, hyear, Int.toNat_natCast, dayNumber_early _ (by omega) hk12]
    refine ⟨⟨by omega, by omega, by omega, ?_⟩, by omega⟩
    obtain rfl | rfl : k = 10 ∨ k = 11 := by omega
    · simp [monthLength]
      omega
    · -- Only in a leap year does February reach the last day.
      by_cases hlast : d = 365
      · simp [monthLength, hleap hlast]
        omega
      · simp only [monthLength]
        split_ifs <;> omega

/-! ## Moments -/

namespace Moment

/-- A moment that civil time has. -/
structure IsValid (m : Moment) : Prop where
  date : IsDate m.year m.month m.day
  hour_lt : m.hour < 24
  minute_lt : m.minute < 60
  second_lt : m.second < 60

/-- One moment comes before another: its year is smaller, or in the same year its month, and
so on. -/
def Before (m m' : Moment) : Prop :=
  m.year < m'.year ∨ m.year = m'.year ∧
    (m.month < m'.month ∨ m.month = m'.month ∧
      (m.day < m'.day ∨ m.day = m'.day ∧
        (m.hour < m'.hour ∨ m.hour = m'.hour ∧
          (m.minute < m'.minute ∨ m.minute = m'.minute ∧ m.second < m'.second))))

variable {m m' : Moment}

theorem eq_or_before (m m' : Moment) : m = m' ∨ m.Before m' ∨ m'.Before m := by
  cases m
  cases m'
  simp only [Before, Moment.mk.injEq]
  omega

/-- The order by units is the order in time. -/
theorem Before.toUnix_lt (h : m.Before m') (hm : m.IsValid) (hm' : m'.IsValid) :
    m.toUnix < m'.toUnix := by
  have hdate := hm.date.dayNumber_lt hm'.date
  obtain ⟨-, hhour, hminute, hsecond⟩ := hm
  unfold toUnix
  push_cast
  by_cases hsame : m.year = m'.year ∧ m.month = m'.month ∧ m.day = m'.day
  · -- On one day the time of day decides.
    obtain ⟨hyear, hmonth, hday⟩ := hsame
    rw [hyear, hmonth, hday]
    unfold Before at h
    omega
  · have hlt : dayNumber m.year m.month m.day < dayNumber m'.year m'.month m'.day := by
      refine hdate ?_
      unfold Before at h
      omega
    omega

theorem before_of_toUnix_lt (h : m.toUnix < m'.toUnix) (hm : m.IsValid) (hm' : m'.IsValid) :
    m.Before m' := by
  rcases eq_or_before m m' with rfl | hbefore | hafter
  · exact absurd h (lt_irrefl _)
  · exact hbefore
  · exact absurd (hafter.toUnix_lt hm' hm) (lt_asymm h)

theorem year_le_year (h : m.toUnix ≤ m'.toUnix) (hm : m.IsValid) (hm' : m'.IsValid) :
    m.year ≤ m'.year := by
  by_contra hafter
  have hbefore : m'.Before m := Or.inl (not_le.mp hafter)
  exact absurd (hbefore.toUnix_lt hm' hm) (not_lt.mpr h)

/-- Two moments at the same second are the same. -/
theorem eq_of_toUnix_eq (h : m.toUnix = m'.toUnix) (hm : m.IsValid) (hm' : m'.IsValid) :
    m = m' := by
  -- Either of the two before the other would have another second.
  rcases eq_or_before m m' with heq | hbefore | hafter
  · exact heq
  · exact absurd h (hbefore.toUnix_lt hm hm').ne
  · exact absurd h.symm (hafter.toUnix_lt hm' hm).ne

theorem isValid_ofUnix (t : Int) : (ofUnix t).IsValid := by
  obtain ⟨year, month, day, hdate, hvalid, -⟩ := dateOfDay_spec (t / 86400)
  constructor
  · simpa only [ofUnix, hdate] using hvalid
  all_goals
    simp only [ofUnix]
    omega

theorem toUnix_ofUnix (t : Int) : (ofUnix t).toUnix = t := by
  obtain ⟨year, month, day, hdate, -, hnumber⟩ := dateOfDay_spec (t / 86400)
  simp only [toUnix, ofUnix, hdate, hnumber]
  push_cast
  omega

theorem ofUnix_toUnix (hm : m.IsValid) : ofUnix m.toUnix = m :=
  eq_of_toUnix_eq (toUnix_ofUnix _) (isValid_ofUnix _) hm

/-- The first second of a year. -/
def newYear (year : Int) : Moment :=
  ⟨year, 1, 1, 0, 0, 0⟩

theorem isValid_newYear (year : Int) : (newYear year).IsValid := by
  have hlength := le_monthLength year 1
  constructor
  · exact ⟨le_refl 1, Nat.one_le_ofNat, le_refl 1, by simp only [newYear]; omega⟩
  all_goals exact Nat.succ_pos _

/-- The seconds before a new year are those of the years before. -/
theorem year_ofUnix_lt_iff (t year : Int) :
    (ofUnix t).year < year ↔ t < (newYear year).toUnix := by
  have hvalid := isValid_ofUnix t
  constructor
  · intro hlt
    have hbefore : (ofUnix t).Before (newYear year) := Or.inl hlt
    simpa only [toUnix_ofUnix] using hbefore.toUnix_lt hvalid (isValid_newYear year)
  · intro hlt
    rw [← toUnix_ofUnix t] at hlt
    have hbefore := before_of_toUnix_lt hlt hvalid (isValid_newYear year)
    -- Nothing of a year comes before its first second.
    obtain ⟨⟨hmonth, -, hday, -⟩, -, -, -⟩ := hvalid
    unfold Before newYear at hbefore
    simp only at hbefore
    omega

end Moment

end EdgeSync.Time
