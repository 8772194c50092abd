import EdgeSync.Proofs.Schedule.Reading
import EdgeSync.Proofs.Schedule.Sweeping
import EdgeSync.Proofs.Time.Counting

/-!
# The First Occurrence

The search for an occurrence sweeps over months, days, hours, minutes and seconds, each sweep
inside one candidate of the larger unit. At each unit it either starts from the least value, or
still from the value of the starting moment; then it finds the first allowed moment of the
larger unit's candidate that is not before the start.

A year other than that of the starting moment need not have its day: the twenty-ninth of
February is missing in most. Then the search enters the month at its last day, at the time of
the starting moment if the missing day is an allowed one, and else at midnight.

## Main definitions

- `Calendar.InMinute` to `Calendar.InYear`: the allowed moments of a minute and so on
- `Calendar.entry`: the moment from which a year is searched at first

## Main results

- `Calendar.searchMonths_pinned`, `Calendar.searchMonths_free`: the search of one year
-/

namespace EdgeSync.Schedule

open EdgeSync.Time

namespace Calendar

/-! ## Moments of the Same Unit -/

/-- The moments of a minute. -/
def OfMinute (at_ m : Moment) : Prop :=
  m.IsValid ∧ m.year = at_.year ∧ m.month = at_.month ∧ m.day = at_.day ∧ m.hour = at_.hour ∧
    m.minute = at_.minute

/-- The moments of an hour. -/
def OfHour (at_ m : Moment) : Prop :=
  m.IsValid ∧ m.year = at_.year ∧ m.month = at_.month ∧ m.day = at_.day ∧ m.hour = at_.hour

/-- The moments of a day. -/
def OfDay (at_ m : Moment) : Prop :=
  m.IsValid ∧ m.year = at_.year ∧ m.month = at_.month ∧ m.day = at_.day

/-- The moments of a month. -/
def OfMonth (year : Int) (month : Nat) (m : Moment) : Prop :=
  m.IsValid ∧ m.year = year ∧ m.month = month

/-- The moments of a year. -/
def OfYear (year : Int) (m : Moment) : Prop :=
  m.IsValid ∧ m.year = year

section OfUnits

variable {at_ m m' : Moment} {year : Int} {month day hour minute : Nat}

theorem OfMinute.ofHour (h : OfMinute { at_ with minute } m) : OfHour at_ m :=
  ⟨h.1, h.2.1, h.2.2.1, h.2.2.2.1, h.2.2.2.2.1⟩

theorem OfHour.ofDay (h : OfHour { at_ with hour } m) : OfDay at_ m :=
  ⟨h.1, h.2.1, h.2.2.1, h.2.2.2.1⟩

theorem OfDay.ofMonth (h : OfDay { at_ with day } m) : OfMonth at_.year at_.month m :=
  ⟨h.1, h.2.1, h.2.2.1⟩

theorem OfMonth.ofYear (h : OfMonth year month m) : OfYear year m :=
  ⟨h.1, h.2.1⟩

/-- In a minute the seconds decide the order. -/
theorem OfMinute.toUnix_lt (h : OfMinute at_ m) (h' : OfMinute at_ m')
    (hlt : m.second < m'.second) : m.toUnix < m'.toUnix := by
  obtain ⟨hvalid, hfields⟩ := h
  obtain ⟨hvalid', hfields'⟩ := h'
  have hbefore : m.Before m' := by
    unfold Moment.Before
    omega
  exact hbefore.toUnix_lt hvalid hvalid'

theorem OfHour.toUnix_lt (h : OfHour at_ m) (h' : OfHour at_ m') (hlt : m.minute < m'.minute) :
    m.toUnix < m'.toUnix := by
  obtain ⟨hvalid, hfields⟩ := h
  obtain ⟨hvalid', hfields'⟩ := h'
  have hbefore : m.Before m' := by
    unfold Moment.Before
    omega
  exact hbefore.toUnix_lt hvalid hvalid'

theorem OfDay.toUnix_lt (h : OfDay at_ m) (h' : OfDay at_ m') (hlt : m.hour < m'.hour) :
    m.toUnix < m'.toUnix := by
  obtain ⟨hvalid, hfields⟩ := h
  obtain ⟨hvalid', hfields'⟩ := h'
  have hbefore : m.Before m' := by
    unfold Moment.Before
    omega
  exact hbefore.toUnix_lt hvalid hvalid'

theorem OfMonth.toUnix_lt (h : OfMonth year month m) (h' : OfMonth year month m')
    (hlt : m.day < m'.day) : m.toUnix < m'.toUnix := by
  obtain ⟨hvalid, hfields⟩ := h
  obtain ⟨hvalid', hfields'⟩ := h'
  have hbefore : m.Before m' := by
    unfold Moment.Before
    omega
  exact hbefore.toUnix_lt hvalid hvalid'

theorem OfYear.toUnix_lt (h : OfYear year m) (h' : OfYear year m') (hlt : m.month < m'.month) :
    m.toUnix < m'.toUnix := by
  obtain ⟨hvalid, hfields⟩ := h
  obtain ⟨hvalid', hfields'⟩ := h'
  have hbefore : m.Before m' := by
    unfold Moment.Before
    omega
  exact hbefore.toUnix_lt hvalid hvalid'

end OfUnits

/-! ## Allowed Moments -/

/-- The day of a moment has an allowed weekday. -/
def IsRightDay (c : Calendar) (at_ : Moment) : Prop :=
  c.weekdays.contains at_.weekday = true

/-- The moments of a minute at allowed seconds. -/
def InMinute (c : Calendar) (at_ m : Moment) : Prop :=
  ∃ second ∈ c.seconds, m = { at_ with second }

/-- The moments of an hour at allowed minutes and seconds. -/
def InHour (c : Calendar) (at_ m : Moment) : Prop :=
  ∃ minute ∈ c.minutes, c.InMinute { at_ with minute } m

/-- The moments of a day at allowed times. -/
def InDay (c : Calendar) (at_ m : Moment) : Prop :=
  ∃ hour ∈ c.hours, c.InHour { at_ with hour } m

/-- The allowed moments of a month. -/
def InMonth (c : Calendar) (at_ m : Moment) : Prop :=
  ∃ day ∈ c.days.filter (· ≤ monthLength at_.year at_.month),
    c.IsRightDay { at_ with day } ∧ c.InDay { at_ with day } m

/-- The allowed moments of a year. -/
def InYear (c : Calendar) (year : Int) (m : Moment) : Prop :=
  ∃ month ∈ c.months, c.InMonth ⟨year, month, 1, 0, 0, 0⟩ m

variable {c : Calendar} {at_ m m' : Moment}

theorem isValid_first {year : Int} {month : Nat} (h : 1 ≤ month) (h' : month ≤ 12) :
    Moment.IsValid ⟨year, month, 1, 0, 0, 0⟩ := by
  have hlength := le_monthLength year month
  exact ⟨⟨h, h', le_refl 1, by simp only; omega⟩, by simp, by simp, by simp⟩

theorem InMinute.ofMinute (hc : c.IsProper) (hat : at_.IsValid) (h : c.InMinute at_ m) :
    OfMinute at_ m := by
  obtain ⟨second, hsecond, rfl⟩ := h
  have hle : second ≤ 59 := (hc.seconds.within second hsecond).2
  exact ⟨⟨hat.date, hat.hour_lt, hat.minute_lt, Nat.lt_succ_of_le hle⟩, rfl, rfl, rfl, rfl, rfl⟩

theorem isValid_minute (hc : c.IsProper) (hat : at_.IsValid) {minute : Nat}
    (h : minute ∈ c.minutes) : Moment.IsValid { at_ with minute } := by
  have hle : minute ≤ 59 := (hc.minutes.within minute h).2
  exact ⟨hat.date, hat.hour_lt, Nat.lt_succ_of_le hle, hat.second_lt⟩

theorem InHour.ofHour (hc : c.IsProper) (hat : at_.IsValid) (h : c.InHour at_ m) :
    OfHour at_ m := by
  obtain ⟨minute, hminute, hm⟩ := h
  exact (hm.ofMinute hc (isValid_minute hc hat hminute)).ofHour

theorem isValid_hour (hc : c.IsProper) (hat : at_.IsValid) {hour : Nat} (h : hour ∈ c.hours) :
    Moment.IsValid { at_ with hour } := by
  have hle : hour ≤ 23 := (hc.hours.within hour h).2
  exact ⟨hat.date, Nat.lt_succ_of_le hle, hat.minute_lt, hat.second_lt⟩

theorem InDay.ofDay (hc : c.IsProper) (hat : at_.IsValid) (h : c.InDay at_ m) :
    OfDay at_ m := by
  obtain ⟨hour, hhour, hm⟩ := h
  exact (hm.ofHour hc (isValid_hour hc hat hhour)).ofDay

theorem mem_daysOfMonth {day last : Nat} :
    day ∈ c.days.filter (· ≤ last) ↔ day ∈ c.days ∧ day ≤ last := by
  simp

theorem isValid_day (hc : c.IsProper) (hat : at_.IsValid) {day : Nat}
    (h : day ∈ c.days.filter (· ≤ monthLength at_.year at_.month)) :
    Moment.IsValid { at_ with day } := by
  obtain ⟨hday, hle⟩ := mem_daysOfMonth.mp h
  have hpos : 1 ≤ day := (hc.days.within day hday).1
  exact ⟨⟨hat.date.month_pos, hat.date.month_le, hpos, hle⟩, hat.hour_lt, hat.minute_lt,
    hat.second_lt⟩

theorem InMonth.ofMonth (hc : c.IsProper) (hat : at_.IsValid) (h : c.InMonth at_ m) :
    OfMonth at_.year at_.month m := by
  obtain ⟨day, hday, -, hm⟩ := h
  exact (hm.ofDay hc (isValid_day hc hat hday)).ofMonth

theorem isValid_month (hc : c.IsProper) (year : Int) {month : Nat} (h : month ∈ c.months) :
    Moment.IsValid ⟨year, month, 1, 0, 0, 0⟩ :=
  isValid_first (hc.months.within month h).1 (hc.months.within month h).2

theorem InYear.ofYear (hc : c.IsProper) {year : Int} (h : c.InYear year m) : OfYear year m := by
  obtain ⟨month, hmonth, hm⟩ := h
  exact (hm.ofMonth hc (isValid_month hc year hmonth)).ofYear

/-! ## Visits -/

/-- An exhausted search makes some units start anew. -/
def released (reset : Pins → Pins) : Search × Pins → Search × Pins
  | (.exhausted, pins) => (.exhausted, reset pins)
  | answer => answer

theorem released_fst (reset : Pins → Pins) (r : Search × Pins) : (released reset r).1 = r.1 := by
  rcases r with ⟨_ | _ | _, pins⟩ <;> rfl

theorem released_exhausted {reset : Pins → Pins} {r : Search × Pins}
    (h : (released reset r).1 = .exhausted) : (released reset r).2 = reset r.2 := by
  rcases r with ⟨_ | _ | _, pins⟩
  · cases h
  · cases h
  · rfl

theorem released_pins {reset : Pins → Pins} {r : Search × Pins} (h : reset r.2 = r.2) :
    (released reset r).2 = r.2 := by
  rcases r with ⟨_ | _ | _, pins⟩
  · rfl
  · rfl
  · exact h

/-- A second of a minute. -/
def visitSecond (c : Calendar) (at_ : Moment) (second : Nat) (pins : Pins) : Search × Pins :=
  let m := { at_ with second }
  (if c.weekdays.contains m.weekday then .found m else .wrongDay, pins)

/-- A minute of an hour. -/
def visitMinute (c : Calendar) (q at_ : Moment) (minute : Nat) (pins : Pins) : Search × Pins :=
  released (fun pins => { pins with minute := false, second := false })
    (searchSeconds c q { at_ with minute } pins)

/-- An hour of a day. -/
def visitHour (c : Calendar) (q at_ : Moment) (hour : Nat) (pins : Pins) : Search × Pins :=
  released (fun pins => { pins with hour := false, minute := false, second := false })
    (searchMinutes c q { at_ with hour } pins)

/-- A day of a month. -/
def visitDay (c : Calendar) (q at_ : Moment) (day : Nat) (pins : Pins) : Search × Pins :=
  released (fun pins => ⟨pins.month, false, false, false, false⟩)
    (searchHours c q { at_ with day } pins)

/-- A month of a year. -/
def visitMonth (c : Calendar) (q : Moment) (year : Int) (month : Nat) (pins : Pins) :
    Search × Pins :=
  released (fun _ => ⟨false, false, false, false, false⟩)
    (searchDays c q ⟨year, month, 1, 0, 0, 0⟩ pins)

variable (c) (q : Moment) (at_) (pins : Pins)

theorem searchSeconds_eq :
    searchSeconds c q at_ pins =
      sweep (visitSecond c at_)
        (candidates c.seconds (if pins.second then q.second else TimeUnit.second.least))
        { pins with second := false } := rfl

theorem searchMinutes_eq :
    searchMinutes c q at_ pins =
      let bound := if pins.minute then q.minute else TimeUnit.minute.least
      sweep (visitMinute c q at_) (candidates c.minutes bound)
        (if c.minutes.contains bound then { pins with minute := false }
        else { pins with minute := false, second := false }) := rfl

theorem searchHours_eq :
    searchHours c q at_ pins =
      let bound := if pins.hour then q.hour else TimeUnit.hour.least
      sweep (visitHour c q at_) (candidates c.hours bound)
        (if c.hours.contains bound then { pins with hour := false }
        else { pins with hour := false, minute := false, second := false }) := rfl

theorem searchDays_eq :
    searchDays c q at_ pins =
      let bound := if pins.day then q.day else TimeUnit.day.least
      let last := monthLength at_.year at_.month
      sweep (passingOver (visitDay c q at_))
        (candidates (c.days.filter (· ≤ last)) (min bound last))
        (if c.days.contains bound then { pins with day := false }
        else { pins with day := false, hour := false, minute := false, second := false }) := by
  simp only [candidates, List.filter_comm]
  rw [← sweepDays_eq]
  rfl

theorem searchMonths_eq (year : Int) :
    searchMonths c q year pins =
      let bound := if pins.month then q.month else TimeUnit.month.least
      sweep (visitMonth c q year) (candidates c.months bound)
        (if c.months.contains bound then { pins with month := false }
        else ⟨false, false, false, false, false⟩) := rfl

/-! ## Units Left at Their Start -/

theorem searchSeconds_pins :
    (searchSeconds c q at_ pins).2 = { pins with second := false } := by
  rw [searchSeconds_eq]
  exact sweep_pins_eq (fun _ => rfl) (fun _ => rfl) (fun _ => rfl)

theorem searchMinutes_pins :
    (searchMinutes c q at_ pins).2 = { pins with minute := false, second := false } := by
  have hvisit : ∀ n p, p.minute = false →
      (visitMinute c q at_ n p).2 = { p with minute := false, second := false } := by
    intro n p hp
    have hpins := searchSeconds_pins c { at_ with minute := n } q p
    rw [visitMinute, released_pins (by rw [hpins, hp]), hpins, hp]
  rw [searchMinutes_eq]
  refine sweep_pins_eq (fun n => ?_) (fun n => hvisit n _ rfl) fun hnone => ?_
  · rw [hvisit n _ (by split_ifs <;> rfl)]
    split_ifs <;> rfl
  · -- Without candidates the bound is not listed, and the seconds start anew.
    have hbound : ¬ c.minutes.contains (if pins.minute then q.minute else TimeUnit.minute.least) :=
      fun hlisted => candidates_ne_nil (List.contains_iff_mem.mp hlisted) hnone
    rw [if_neg hbound]

theorem searchHours_pins :
    (searchHours c q at_ pins).2 =
      { pins with hour := false, minute := false, second := false } := by
  have hvisit : ∀ n p, p.hour = false →
      (visitHour c q at_ n p).2 = { p with hour := false, minute := false, second := false } := by
    intro n p hp
    have hpins := searchMinutes_pins c { at_ with hour := n } q p
    rw [visitHour, released_pins (by rw [hpins, hp]), hpins, hp]
  rw [searchHours_eq]
  refine sweep_pins_eq (fun n => ?_) (fun n => hvisit n _ rfl) fun hnone => ?_
  · rw [hvisit n _ (by split_ifs <;> rfl)]
    split_ifs <;> rfl
  · have hbound : ¬ c.hours.contains (if pins.hour then q.hour else TimeUnit.hour.least) :=
      fun hlisted => candidates_ne_nil (List.contains_iff_mem.mp hlisted) hnone
    rw [if_neg hbound]

variable {c at_ pins}

/-! ## Seconds -/

theorem sweeps_seconds (hc : c.IsProper) (hat : at_.IsValid) :
    Sweeps (c.IsRightDay at_) (fun _ => True) c.seconds (fun second m => m = { at_ with second })
      (visitSecond c at_) (OfMinute at_) Moment.second where
  ascending := hc.seconds.ascending
  answers second _ p _ := by
    simp only [visitSecond]
    split
    · next hday => exact ⟨hday, rfl, fun m' hm' => (congrArg Moment.toUnix hm').ge⟩
    · next hday => exact hday
  frees _ _ _ := trivial
  lies second hsecond m hm :=
    ⟨InMinute.ofMinute hc hat ⟨second, hsecond, hm⟩, congrArg Moment.second hm⟩
  ordered _ _ := OfMinute.toUnix_lt

theorem searchSeconds_free (hc : c.IsProper) (hat : at_.IsValid) (hfree : pins.second = false) :
    Answers (c.IsRightDay at_) (c.InMinute at_) (searchSeconds c q at_ pins).1 := by
  rw [searchSeconds_eq, hfree]
  exact (sweeps_seconds hc hat).answers_free trivial fun n _ => Nat.zero_le n

/-- From the second of the start on. -/
theorem searchSeconds_pinned (hc : c.IsProper) (hat : at_.IsValid) (hq : q.IsValid)
    (hpinned : pins.second = true) :
    Answers (c.IsRightDay at_)
      (fun m => c.InMinute at_ m ∧ ({ at_ with second := q.second } : Moment).toUnix ≤ m.toUnix)
      (searchSeconds c q at_ pins).1 := by
  have hsweeps := sweeps_seconds hc hat
  rw [searchSeconds_eq, hpinned, if_pos rfl]
  have hstart : OfMinute at_ { at_ with second := q.second } :=
    ⟨⟨hat.date, hat.hour_lt, hat.minute_lt, hq.second_lt⟩, rfl, rfl, rfl, rfl, rfl⟩
  refine hsweeps.answers_pinned hstart ?_ fun _ => trivial
  intro hlisted
  refine (hsweeps.answers q.second hlisted _ trivial).congr fun m => ?_
  exact ⟨fun hm => ⟨hm, (congrArg Moment.toUnix hm).ge⟩, And.left⟩

/-! ## Minutes -/

theorem sweeps_minutes (hc : c.IsProper) (hat : at_.IsValid) :
    Sweeps (c.IsRightDay at_) (fun p => p.second = false) c.minutes
      (fun minute => c.InMinute { at_ with minute }) (visitMinute c q at_) (OfHour at_)
      Moment.minute where
  ascending := hc.minutes.ascending
  answers minute hminute p hfree := by
    rw [visitMinute, released_fst]
    exact searchSeconds_free q hc (isValid_minute hc hat hminute) hfree
  frees minute p hexhausted := by
    rw [visitMinute] at hexhausted ⊢
    rw [released_exhausted hexhausted]
  lies minute hminute m hm := by
    have hof := hm.ofMinute hc (isValid_minute hc hat hminute)
    exact ⟨hof.ofHour, hof.2.2.2.2.2⟩
  ordered _ _ := OfHour.toUnix_lt

theorem searchMinutes_free (hc : c.IsProper) (hat : at_.IsValid) (hminute : pins.minute = false)
    (hsecond : pins.second = false) :
    Answers (c.IsRightDay at_) (c.InHour at_) (searchMinutes c q at_ pins).1 := by
  rw [searchMinutes_eq, hminute, if_neg Bool.false_ne_true]
  refine (sweeps_minutes q hc hat).answers_free ?_ fun n _ => Nat.zero_le n
  split_ifs
  · exact hsecond
  · rfl

/-- From the minute and second of the start on. -/
theorem searchMinutes_pinned (hc : c.IsProper) (hat : at_.IsValid) (hq : q.IsValid)
    (hminute : pins.minute = true) (hsecond : pins.second = true) :
    Answers (c.IsRightDay at_)
      (fun m => c.InHour at_ m ∧
        ({ at_ with minute := q.minute, second := q.second } : Moment).toUnix ≤ m.toUnix)
      (searchMinutes c q at_ pins).1 := by
  have hstart : OfHour at_ { at_ with minute := q.minute, second := q.second } :=
    ⟨⟨hat.date, hat.hour_lt, hq.minute_lt, hq.second_lt⟩, rfl, rfl, rfl, rfl⟩
  rw [searchMinutes_eq, hminute, if_pos rfl]
  refine (sweeps_minutes q hc hat).answers_pinned hstart ?_ ?_
  · intro hlisted
    rw [visitMinute, released_fst, if_pos (List.contains_iff_mem.mpr hlisted)]
    exact searchSeconds_pinned q hc (isValid_minute hc hat hlisted) hq hsecond
  · intro hunlisted
    rw [if_neg (mt List.contains_iff_mem.mp hunlisted)]

/-! ## Hours -/

theorem sweeps_hours (hc : c.IsProper) (hat : at_.IsValid) :
    Sweeps (c.IsRightDay at_) (fun p => p.minute = false ∧ p.second = false) c.hours
      (fun hour => c.InHour { at_ with hour }) (visitHour c q at_) (OfDay at_) Moment.hour where
  ascending := hc.hours.ascending
  answers hour hhour p hfree := by
    rw [visitHour, released_fst]
    exact searchMinutes_free q hc (isValid_hour hc hat hhour) hfree.1 hfree.2
  frees hour p hexhausted := by
    rw [visitHour] at hexhausted ⊢
    rw [released_exhausted hexhausted]
    exact ⟨rfl, rfl⟩
  lies hour hhour m hm := by
    have hof := hm.ofHour hc (isValid_hour hc hat hhour)
    exact ⟨hof.ofDay, hof.2.2.2.2⟩
  ordered _ _ := OfDay.toUnix_lt

theorem searchHours_free (hc : c.IsProper) (hat : at_.IsValid) (hhour : pins.hour = false)
    (hminute : pins.minute = false) (hsecond : pins.second = false) :
    Answers (c.IsRightDay at_) (c.InDay at_) (searchHours c q at_ pins).1 := by
  rw [searchHours_eq, hhour, if_neg Bool.false_ne_true]
  refine (sweeps_hours q hc hat).answers_free ?_ fun n _ => Nat.zero_le n
  split_ifs
  · exact ⟨hminute, hsecond⟩
  · exact ⟨rfl, rfl⟩

/-- From the time of the start on. -/
theorem searchHours_pinned (hc : c.IsProper) (hat : at_.IsValid) (hq : q.IsValid)
    (hhour : pins.hour = true) (hminute : pins.minute = true) (hsecond : pins.second = true) :
    Answers (c.IsRightDay at_)
      (fun m => c.InDay at_ m ∧
        ({ at_ with hour := q.hour, minute := q.minute, second := q.second } : Moment).toUnix ≤
          m.toUnix)
      (searchHours c q at_ pins).1 := by
  have hstart : OfDay at_ { at_ with hour := q.hour, minute := q.minute, second := q.second } :=
    ⟨⟨hat.date, hq.hour_lt, hq.minute_lt, hq.second_lt⟩, rfl, rfl, rfl⟩
  rw [searchHours_eq, hhour, if_pos rfl]
  refine (sweeps_hours q hc hat).answers_pinned hstart ?_ ?_
  · intro hlisted
    rw [visitHour, released_fst, if_pos (List.contains_iff_mem.mpr hlisted)]
    exact searchMinutes_pinned q hc (isValid_hour hc hat hlisted) hq hminute hsecond
  · intro hunlisted
    rw [if_neg (mt List.contains_iff_mem.mp hunlisted)]
    exact ⟨rfl, rfl⟩

/-! ## Days -/

theorem sweeps_days (hc : c.IsProper) (hat : at_.IsValid) :
    Sweeps True (fun p => p.hour = false ∧ p.minute = false ∧ p.second = false)
      (c.days.filter (· ≤ monthLength at_.year at_.month))
      (fun day m => c.IsRightDay { at_ with day } ∧ c.InDay { at_ with day } m)
      (passingOver (visitDay c q at_)) (OfMonth at_.year at_.month) Moment.day where
  ascending := hc.days.ascending.filter _
  answers day hday p hfree := by
    refine Answers.passingOver ?_
    rw [visitDay, released_fst]
    exact searchHours_free q hc (isValid_day hc hat hday) hfree.1 hfree.2.1 hfree.2.2
  frees day p hexhausted := by
    -- A wrong day has been tried at some hour, minute and second.
    have hpins := searchHours_pins c { at_ with day } q p
    unfold passingOver visitDay at hexhausted ⊢
    rcases hsearch : searchHours c q { at_ with day } p with ⟨_ | _ | _, left⟩
    · rw [hsearch] at hexhausted
      cases hexhausted
    · rw [hsearch] at hpins
      obtain rfl := hpins
      exact ⟨rfl, rfl, rfl⟩
    · exact ⟨rfl, rfl, rfl⟩
  lies day hday m hm := by
    have hof := hm.2.ofDay hc (isValid_day hc hat hday)
    exact ⟨hof.ofMonth, hof.2.2.2⟩
  ordered _ _ := OfMonth.toUnix_lt

theorem searchDays_free (hc : c.IsProper) (hat : at_.IsValid) (hday : pins.day = false)
    (hhour : pins.hour = false) (hminute : pins.minute = false) (hsecond : pins.second = false) :
    Answers True (c.InMonth at_) (searchDays c q at_ pins).1 := by
  rw [searchDays_eq, hday, if_neg Bool.false_ne_true]
  refine (sweeps_days q hc hat).answers_free ?_ fun n hn => ?_
  · split_ifs
    · exact ⟨hhour, hminute, hsecond⟩
    · exact ⟨rfl, rfl, rfl⟩
  · have hpos : 1 ≤ n := (hc.days.within n (mem_daysOfMonth.mp hn).1).1
    exact (Nat.min_le_left _ _).trans hpos

/-- The moment from which a year is searched at first: that of the start, or if the year lacks
its day, the last day of the month. -/
def entry (c : Calendar) (q : Moment) (year : Int) : Moment :=
  let last := monthLength year q.month
  if q.day ≤ last then { q with year }
  else if c.days.contains q.day then { q with year, day := last }
  else ⟨year, q.month, last, 0, 0, 0⟩

/-- In its own year a moment is the entry. -/
theorem entry_self (c : Calendar) {q : Moment} (hq : q.IsValid) : c.entry q q.year = q :=
  if_pos hq.date.day_le

theorem entry_date (c : Calendar) (q : Moment) (year : Int) :
    (c.entry q year).year = year ∧ (c.entry q year).month = q.month ∧
      (c.entry q year).day = min q.day (monthLength year q.month) := by
  unfold entry
  dsimp only
  split_ifs with hle
  · exact ⟨rfl, rfl, (Nat.min_eq_left hle).symm⟩
  · exact ⟨rfl, rfl, (Nat.min_eq_right (le_of_not_ge hle)).symm⟩
  · exact ⟨rfl, rfl, (Nat.min_eq_right (le_of_not_ge hle)).symm⟩

theorem entry_of_mem (c : Calendar) {q : Moment} (h : q.day ∈ c.days) (year : Int) :
    c.entry q year =
      ⟨year, q.month, min q.day (monthLength year q.month), q.hour, q.minute, q.second⟩ := by
  unfold entry
  dsimp only
  split_ifs with hle hlisted
  · rw [Nat.min_eq_left hle]
  · rw [Nat.min_eq_right (le_of_not_ge hle)]
  · exact absurd (List.contains_iff_mem.mpr h) hlisted

theorem entry_of_missing (c : Calendar) {q : Moment} (h : q.day ∉ c.days) {year : Int}
    (hmissing : monthLength year q.month < q.day) :
    c.entry q year = ⟨year, q.month, monthLength year q.month, 0, 0, 0⟩ := by
  unfold entry
  dsimp only
  rw [if_neg (not_le.mpr hmissing), if_neg (mt List.contains_iff_mem.mp h)]

theorem isValid_entry (c : Calendar) {q : Moment} (hq : q.IsValid) (year : Int) :
    (c.entry q year).IsValid := by
  obtain ⟨hyear, hmonth, hday⟩ := c.entry_date q year
  have hlength := le_monthLength year q.month
  have hpos := hq.date.day_pos
  have hdate : IsDate (c.entry q year).year (c.entry q year).month (c.entry q year).day := by
    rw [hyear, hmonth, hday]
    exact ⟨hq.date.month_pos, hq.date.month_le, by omega, Nat.min_le_right _ _⟩
  unfold entry at hdate ⊢
  dsimp only at hdate ⊢
  split_ifs at hdate ⊢
  · exact ⟨hdate, hq.hour_lt, hq.minute_lt, hq.second_lt⟩
  · exact ⟨hdate, hq.hour_lt, hq.minute_lt, hq.second_lt⟩
  · exact ⟨hdate, Nat.succ_pos _, Nat.succ_pos _, Nat.succ_pos _⟩

/-- A day begins with its first second. -/
theorem OfDay.midnight_le {year : Int} {month day : Nat}
    (hvalid : Moment.IsValid ⟨year, month, day, 0, 0, 0⟩)
    (h : OfDay ⟨year, month, day, 0, 0, 0⟩ m) :
    Moment.toUnix ⟨year, month, day, 0, 0, 0⟩ ≤ m.toUnix := by
  obtain ⟨hvalid', hfields⟩ := h
  rcases Moment.eq_or_before ⟨year, month, day, 0, 0, 0⟩ m with rfl | hbefore | hafter
  · exact le_refl _
  · exact (hbefore.toUnix_lt hvalid hvalid').le
  · unfold Moment.Before at hafter
    simp only at hfields hafter
    omega

/-- In the month of the start, from the entry on. -/
theorem searchDays_pinned (hc : c.IsProper) (hq : q.IsValid) (year : Int)
    (hday : pins.day = true) (hhour : pins.hour = true) (hminute : pins.minute = true)
    (hsecond : pins.second = true) :
    Answers True
      (fun m => c.InMonth ⟨year, q.month, 1, 0, 0, 0⟩ m ∧ (c.entry q year).toUnix ≤ m.toUnix)
      (searchDays c q ⟨year, q.month, 1, 0, 0, 0⟩ pins).1 := by
  have hat : Moment.IsValid ⟨year, q.month, 1, 0, 0, 0⟩ :=
    isValid_first hq.date.month_pos hq.date.month_le
  have hsweeps := sweeps_days q hc hat
  obtain ⟨hyear, hmonth, hentryDay⟩ := c.entry_date q year
  have hentry : OfMonth year q.month (c.entry q year) := ⟨isValid_entry c hq year, hyear, hmonth⟩
  rw [searchDays_eq, hday, if_pos rfl]
  dsimp only at hsweeps ⊢
  rw [← hentryDay]
  refine hsweeps.answers_of_first hentry ?_
  intro day hfirst
  obtain ⟨hmem, hge⟩ := mem_candidates.mp (List.mem_of_head? hfirst)
  obtain ⟨hlisted, hle⟩ := mem_daysOfMonth.mp hmem
  have hvalid := isValid_day hc hat hmem
  by_cases hstarts : q.day ∈ c.days
  · -- The day of the start is allowed: the month is entered at the time of the start.
    have hfirstDay : day = (c.entry q year).day := by
      refine le_antisymm ?_ hge
      rcases Nat.le_total q.day (monthLength year q.month) with hthere | hmissing
      · rw [hentryDay, Nat.min_eq_left hthere] at hfirst ⊢
        exact candidates_head_le hsweeps.ascending hfirst
          (mem_candidates.mpr ⟨mem_daysOfMonth.mpr ⟨hstarts, hthere⟩, le_refl _⟩)
      · rwa [hentryDay, Nat.min_eq_right hmissing]
    have hstart : c.entry q year = ⟨year, q.month, day, q.hour, q.minute, q.second⟩ := by
      rw [hfirstDay, hentryDay]
      exact c.entry_of_mem hstarts year
    rw [if_pos (List.contains_iff_mem.mpr hstarts), hstart]
    refine Answers.congr (Answers.passingOver ?_) fun m => and_assoc.symm
    rw [visitDay, released_fst]
    exact searchHours_pinned q hc hvalid hq hhour hminute hsecond
  · -- It is not: the first day is another one, or the month lacks the day of the start.
    have hafter : ∀ m, c.InDay ⟨year, q.month, day, 0, 0, 0⟩ m →
        (c.entry q year).toUnix ≤ m.toUnix := by
      intro m hm
      have hof := hm.ofDay hc hvalid
      rcases Nat.lt_or_ge (monthLength year q.month) q.day with hmissing | hthere
      · rw [hentryDay, Nat.min_eq_right hmissing.le] at hge
        obtain rfl : day = monthLength year q.month := le_antisymm hle hge
        rw [c.entry_of_missing hstarts hmissing]
        exact hof.midnight_le hvalid
      · have hne : q.day ≠ day := fun heq => hstarts (heq ▸ hlisted)
        rw [hentryDay, Nat.min_eq_left hthere] at hge
        refine (OfMonth.toUnix_lt hentry hof.ofMonth ?_).le
        rw [hentryDay, Nat.min_eq_left hthere, hof.2.2.2]
        exact lt_of_le_of_ne hge hne
    rw [if_neg (mt List.contains_iff_mem.mp hstarts)]
    have hvisit := hsweeps.answers day hmem
      { pins with day := false, hour := false, minute := false, second := false } ⟨rfl, rfl, rfl⟩
    exact hvisit.congr fun m => ⟨fun hm => ⟨hm, hafter m hm.2⟩, And.left⟩

/-! ## Months -/

theorem sweeps_months (hc : c.IsProper) (year : Int) :
    Sweeps True
      (fun p => p.day = false ∧ p.hour = false ∧ p.minute = false ∧ p.second = false) c.months
      (fun month => c.InMonth ⟨year, month, 1, 0, 0, 0⟩) (visitMonth c q year) (OfYear year)
      Moment.month where
  ascending := hc.months.ascending
  answers month hmonth p hfree := by
    obtain ⟨hday, hhour, hminute, hsecond⟩ := hfree
    rw [visitMonth, released_fst]
    exact searchDays_free q hc (isValid_month hc year hmonth) hday hhour hminute hsecond
  frees month p hexhausted := by
    rw [visitMonth] at hexhausted ⊢
    rw [released_exhausted hexhausted]
    exact ⟨rfl, rfl, rfl, rfl⟩
  lies month hmonth m hm := by
    have hof := hm.ofMonth hc (isValid_month hc year hmonth)
    exact ⟨hof.ofYear, hof.2.2⟩
  ordered _ _ := OfYear.toUnix_lt

theorem searchMonths_free (hc : c.IsProper) (year : Int) :
    Answers True (c.InYear year)
      (searchMonths c q year ⟨false, false, false, false, false⟩).1 := by
  rw [searchMonths_eq]
  refine (sweeps_months q hc year).answers_free ?_ fun n hn => (hc.months.within n hn).1
  split_ifs <;> exact ⟨rfl, rfl, rfl, rfl⟩

/-- In the year where the search starts, from the entry on. -/
theorem searchMonths_pinned (hc : c.IsProper) (hq : q.IsValid) (year : Int) :
    Answers True (fun m => c.InYear year m ∧ (c.entry q year).toUnix ≤ m.toUnix)
      (searchMonths c q year Pins.all).1 := by
  obtain ⟨hyear, hmonth, -⟩ := c.entry_date q year
  have hentry : OfYear year (c.entry q year) := ⟨isValid_entry c hq year, hyear⟩
  have hsweeps := sweeps_months q hc year
  rw [searchMonths_eq, if_pos (show Pins.all.month = true from rfl)]
  dsimp only
  rw [← hmonth]
  refine hsweeps.answers_pinned hentry ?_ ?_
  · intro hlisted
    rw [if_pos (List.contains_iff_mem.mpr hlisted), visitMonth, released_fst, hmonth]
    exact searchDays_pinned q hc hq year rfl rfl rfl rfl
  · intro hunlisted
    rw [if_neg (mt List.contains_iff_mem.mp hunlisted)]
    exact ⟨rfl, rfl, rfl, rfl⟩

/-- After a year without an occurrence every unit starts anew. -/
theorem searchMonths_frees (year : Int) (h : (searchMonths c q year pins).1 = .exhausted) :
    (searchMonths c q year pins).2 = ⟨false, false, false, false, false⟩ := by
  rw [searchMonths_eq] at h ⊢
  refine sweep_frees (· = ⟨false, false, false, false, false⟩) ?_ ?_ h
  · intro month p hexhausted
    rw [visitMonth] at hexhausted ⊢
    exact released_exhausted hexhausted
  · intro hnone
    exact if_neg fun hlisted => candidates_ne_nil (List.contains_iff_mem.mp hlisted) hnone

end Calendar

end EdgeSync.Schedule
