import EdgeSync.Schedule.Expression
import Mathlib.Data.List.Basic

/-!
# Calendars That Are Read

Whatever the items of a field say, its values come in ascending order and are values of the
unit. So the calendars that expressions are read as are proper ones.

## Main definitions

- `TimeUnit.Holds`, `Calendar.IsProper`: values in ascending order within their unit

## Main results

- `Calendar.isProper_of_parse`: every expression that is read as a calendar gives a proper one
-/

namespace EdgeSync.Schedule

/-- Values of a unit, in ascending order. -/
structure TimeUnit.Holds (u : TimeUnit) (values : List Nat) : Prop where
  ascending : values.Pairwise (· < ·)
  within : ∀ n ∈ values, u.least ≤ n ∧ n ≤ u.greatest

theorem TimeUnit.holds_filter (u : TimeUnit) (p : Nat → Bool) : u.Holds (u.values.filter p) where
  ascending := (List.pairwise_lt_range' ..).filter p
  within n hn := by
    have hmem := List.mem_range'_1.mp (List.mem_filter.mp hn).1
    have hle : u.least ≤ u.greatest := by cases u <;> decide
    omega

theorem TimeUnit.holds_values (u : TimeUnit) : u.Holds u.values := by
  have hall : u.values.filter (fun _ => true) = u.values := List.filter_true _
  rw [← hall]
  exact u.holds_filter _

theorem holds_of_fieldValues? {u : TimeUnit} {items : List Item} {values : List Nat}
    (h : fieldValues? u items = some values) : u.Holds values := by
  obtain ⟨strides, -, rfl⟩ := Option.map_eq_some_iff.mp h
  exact u.holds_filter _

namespace Calendar

/-- Every list has values of its unit in ascending order. -/
structure IsProper (c : Calendar) : Prop where
  seconds : TimeUnit.second.Holds c.seconds
  minutes : TimeUnit.minute.Holds c.minutes
  hours : TimeUnit.hour.Holds c.hours
  days : TimeUnit.day.Holds c.days
  months : TimeUnit.month.Holds c.months
  years : TimeUnit.year.Holds c.yearValues

theorem holds_of_readValues {u : TimeUnit} {cs rest : List Char} {values : List Nat}
    (h : readValues u cs = some (some values, rest)) : u.Holds values := by
  obtain ⟨r, -, heq⟩ := Option.map_eq_some_iff.mp h
  exact holds_of_fieldValues? (congrArg Prod.fst heq)

/-- Years that are absent are all years of the unit. -/
theorem holds_yearValues {c : Calendar} (h : ∀ years, c.years = some years →
    TimeUnit.year.Holds years) : TimeUnit.year.Holds c.yearValues := by
  unfold yearValues
  cases hyears : c.years with
  | none => exact TimeUnit.year.holds_values
  | some years => exact h years hyears

theorem isProper_of_read? {cs : List Char} {c : Calendar} (h : read? cs = some c) :
    c.IsProper := by
  unfold read? at h
  obtain ⟨⟨seconds, cs⟩, hseconds, h⟩ := Option.bind_eq_some_iff.mp h
  obtain ⟨⟨minutes, cs⟩, hminutes, h⟩ := Option.bind_eq_some_iff.mp h
  obtain ⟨⟨hours, cs⟩, hhours, h⟩ := Option.bind_eq_some_iff.mp h
  obtain ⟨⟨days, cs⟩, hdays, h⟩ := Option.bind_eq_some_iff.mp h
  obtain ⟨⟨months, cs⟩, hmonths, h⟩ := Option.bind_eq_some_iff.mp h
  obtain ⟨⟨weekdays, cs⟩, hweekdays, h⟩ := Option.bind_eq_some_iff.mp h
  -- The years are absent, or read like the other fields.
  obtain ⟨years, hyears, hvalues⟩ : ∃ years : Option (List Nat),
      (∀ ys, years = some ys → TimeUnit.year.Holds ys) ∧
        (do return ⟨← seconds, ← minutes, ← hours, ← days, ← months, ← weekdays, years⟩) =
          some c := by
    cases hread : readValues .year cs with
    | none =>
      simp only [hread] at h
      split at h
      · cases h
      · exact ⟨none, nofun, h⟩
    | some r =>
      obtain ⟨years, rest⟩ := r
      simp only [hread] at h
      split at h
      · cases h
      · obtain ⟨years, hmap, hrest⟩ := Option.bind_eq_some_iff.mp h
        obtain ⟨ys, rfl, rfl⟩ := Option.map_eq_some_iff.mp hmap
        exact ⟨some ys, fun _ heq => Option.some.inj heq ▸ holds_of_readValues hread, hrest⟩
  simp only [Option.bind_eq_bind, Option.bind_eq_some_iff] at hvalues
  obtain ⟨seconds, rfl, minutes, rfl, hours, rfl, days, rfl, months, rfl, weekdays, rfl, heq⟩ :=
    hvalues
  obtain rfl := Option.some.inj heq
  exact ⟨holds_of_readValues hseconds, holds_of_readValues hminutes, holds_of_readValues hhours,
    holds_of_readValues hdays, holds_of_readValues hmonths, holds_yearValues hyears⟩

/-- Every calendar that an expression is read as is proper. -/
theorem isProper_of_parse {expression : String} {c : Calendar}
    (h : Schedule.parse expression = .ok (.calendar c)) : c.IsProper := by
  unfold Schedule.parse at h
  dsimp only at h
  split at h
  · cases h
  · split at h
    · split at h <;> cases h
    · split at h
      · cases h
      · split at h
        · cases h
        · next hread =>
          cases h
          exact isProper_of_read? hread

end Calendar
end EdgeSync.Schedule
