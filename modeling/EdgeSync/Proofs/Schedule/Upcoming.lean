import EdgeSync.Proofs.Schedule.Occurrences
import Mathlib.Order.Bounds.Basic

/-!
# Upcoming Seconds

The search for the next trigger starts in the second after the present one and goes through the
listed years from that second on. Every year begins with no unit left at its start, except the
first one: that is entered at the start, as far as the year has it. If the first listed year is
that of the start, nothing before the beginning of the search is ahead; if it is a later one,
what precedes the entry is not found.

## Main definitions

- `Calendar.Fits`: every field but the year has an allowed value
- `Calendar.start?`: where the search for an occurrence begins
- `Calendar.reached`: the seconds after an instant that the search can find
- `LeadsTo`: the delay of a schedule leads to the first second of a set

## Main results

- `Calendar.isFirst_nextFrom?`: the search finds the first moment that it can
- `Calendar.leadsTo_reached`: the delay leads to the first second that the search can find
-/

namespace EdgeSync.Schedule

open EdgeSync.Time

variable {c : Calendar} {q m : Moment} {now : Instant}

namespace Calendar

/-! ## Moments That Are Allowed -/

/-- Every field but the year has an allowed value. -/
def Fits (c : Calendar) (m : Moment) : Prop :=
  m.second ∈ c.seconds ∧ m.minute ∈ c.minutes ∧ m.hour ∈ c.hours ∧ m.day ∈ c.days ∧
    m.month ∈ c.months ∧ m.weekday ∈ c.weekdays

theorem allows_iff (c : Calendar) (m : Moment) :
    c.allows m = true ↔ c.Fits m ∧ ∃ year ∈ c.yearValues, (year : Int) = m.year := by
  simp only [allows, Fits, Bool.and_eq_true, List.contains_iff_mem, List.any_eq_true, beq_iff_eq]
  tauto

/-- The moments of a year that the search goes through are those that fit. -/
theorem inYear_iff (hc : c.IsProper) {year : Int} :
    c.InYear year m ↔ OfYear year m ∧ c.Fits m := by
  constructor
  · intro h
    refine ⟨h.ofYear hc, ?_⟩
    obtain ⟨month, hmonth, day, hday, hweekday, hour, hhour, minute, hminute, second, hsecond,
      rfl⟩ := h
    exact ⟨hsecond, hminute, hhour, (mem_daysOfMonth.mp hday).1, hmonth,
      List.contains_iff_mem.mp hweekday⟩
  · rintro ⟨⟨hvalid, rfl⟩, hsecond, hminute, hhour, hday, hmonth, hweekday⟩
    exact ⟨m.month, hmonth, m.day, mem_daysOfMonth.mpr ⟨hday, hvalid.date.day_le⟩,
      List.contains_iff_mem.mpr hweekday, m.hour, hhour, m.minute, hminute, m.second, hsecond, rfl⟩

/-! ## The Search -/

/-- The first of some moments, if there is one. -/
def IsFirst (P : Moment → Prop) : Option Moment → Prop
  | some m => P m ∧ ∀ m', P m' → m.toUnix ≤ m'.toUnix
  | none => ∀ m, ¬ P m

/-- The years that are searched: the listed ones from that of the moment on. -/
def yearsFrom (c : Calendar) (q : Moment) : List Nat :=
  candidates c.yearValues q.year.toNat

/-- Where the search for an occurrence begins: at the entry into the first of the years. -/
def start? (c : Calendar) (q : Moment) : Option Moment :=
  (c.yearsFrom q).head?.map fun year : Nat => c.entry q (year : Int)

theorem mem_yearsFrom {year : Nat} :
    year ∈ c.yearsFrom q ↔ year ∈ c.yearValues ∧ q.year ≤ year := by
  rw [yearsFrom, mem_candidates, Int.toNat_le]

theorem ascending_yearsFrom (hc : c.IsProper) (q : Moment) :
    (c.yearsFrom q).Pairwise (· < ·) :=
  hc.years.ascending.filter _

/-- If the year of the moment is listed, the search begins at the moment itself. -/
theorem start?_eq_self (hc : c.IsProper) (hq : q.IsValid) {year : Nat}
    (hlisted : year ∈ c.yearValues) (heq : (year : Int) = q.year) : c.start? q = some q := by
  have hmem : year ∈ c.yearsFrom q := mem_yearsFrom.mpr ⟨hlisted, heq.ge⟩
  obtain ⟨first, hfirst⟩ : ∃ first, (c.yearsFrom q).head? = some first :=
    ⟨_, List.head?_eq_some_head (List.ne_nil_of_mem hmem)⟩
  have hle : first ≤ year := candidates_head_le hc.years.ascending hfirst hmem
  have hge : q.year ≤ first := (mem_yearsFrom.mp (List.mem_of_head? hfirst)).2
  obtain rfl : first = year := by omega
  rw [start?, hfirst, Option.map_some, heq, c.entry_self hq]

theorem OfYear.toUnix_lt_of_lt {year later : Int} {m' : Moment} (h : OfYear year m)
    (h' : OfYear later m') (hlt : year < later) : m.toUnix < m'.toUnix := by
  have hbefore : m.Before m' := Or.inl (by rwa [h.2, h'.2])
  exact hbefore.toUnix_lt h.1 h'.1

/-- The search of all years gives the first moment that is not before its beginning. -/
theorem answers_sweep (hc : c.IsProper) (hq : q.IsValid) {first : Nat}
    (hfirst : (c.yearsFrom q).head? = some first) :
    Answers True
      (fun m => ∃ year ∈ c.yearsFrom q,
        c.InYear (year : Int) m ∧ (c.entry q first).toUnix ≤ m.toUnix)
      (sweep (fun year pins => searchMonths c q year pins) (c.yearsFrom q) Pins.all).1 := by
  have hentry : OfYear first (c.entry q first) :=
    ⟨isValid_entry c hq first, (c.entry_date q first).1⟩
  have hsorted := ascending_yearsFrom hc q
  refine sweep_answers (· = ⟨false, false, false, false, false⟩) ?_ ?_ ?_
    fun year pins => searchMonths_frees q year
  · refine hsorted.imp fun hlt m m' hm hm' => ?_
    exact ((hm.1.ofYear hc).toUnix_lt_of_lt (hm'.1.ofYear hc) (Int.ofNat_lt.mpr hlt)).le
  · intro year hhead
    -- The pins are still set when the first year is entered, whichever year it is.
    obtain rfl : first = year := Option.some.inj (hfirst.symm.trans hhead)
    exact searchMonths_pinned q hc hq first
  · -- A moment of a later year comes after the entry into the first one.
    rintro year htail _ rfl
    obtain ⟨rest, hcons⟩ := List.head?_eq_some_iff.mp hfirst
    rw [hcons] at htail hsorted
    have hlt := (List.pairwise_cons.mp hsorted).1 year htail
    refine (searchMonths_free q hc year).congr fun m => ⟨fun hm => ⟨hm, ?_⟩, And.left⟩
    exact (hentry.toUnix_lt_of_lt (hm.ofYear hc) (Int.ofNat_lt.mpr hlt)).le

theorem nextFrom?_eq (hyear : 0 ≤ q.year) :
    c.nextFrom? q =
      match (sweep (fun year pins => searchMonths c q year pins) (c.yearsFrom q) Pins.all).1 with
      | .found m => some m
      | _ => none :=
  if_neg (not_lt.mpr hyear)

/-- The moments that a search from a moment on can find: the allowed ones that come neither
before that moment nor before the beginning of the search. -/
def Reaches (c : Calendar) (q m : Moment) : Prop :=
  m.IsValid ∧ c.allows m = true ∧ q.toUnix ≤ m.toUnix ∧
    ∀ start ∈ c.start? q, start.toUnix ≤ m.toUnix

/-- The search does not begin before the moment. -/
theorem le_entry (hq : q.IsValid) {year : Int} (hle : q.year ≤ year) :
    q.toUnix ≤ (c.entry q year).toUnix := by
  rcases hle.eq_or_lt with rfl | hlt
  · exact (congrArg Moment.toUnix (c.entry_self hq)).ge
  · have hentry : OfYear year (c.entry q year) :=
      ⟨isValid_entry c hq year, (c.entry_date q year).1⟩
    exact (OfYear.toUnix_lt_of_lt ⟨hq, rfl⟩ hentry hlt).le

/-- An allowed moment from a moment on lies in one of the years that are searched. -/
theorem exists_yearsFrom (hq : q.IsValid) (hm : m.IsValid) (hallows : c.allows m = true)
    (hle : q.toUnix ≤ m.toUnix) : ∃ year ∈ c.yearsFrom q, (year : Int) = m.year := by
  obtain ⟨-, year, hlisted, heq⟩ := (c.allows_iff m).mp hallows
  exact ⟨year, mem_yearsFrom.mpr ⟨hlisted, heq ▸ Moment.year_le_year hle hq hm⟩, heq⟩

/-- The moments of the searched years from the beginning on are those that can be found. -/
theorem reaches_iff (hc : c.IsProper) (hq : q.IsValid) {first : Nat}
    (hfirst : (c.yearsFrom q).head? = some first) :
    (∃ year ∈ c.yearsFrom q, c.InYear (year : Int) m ∧ (c.entry q first).toUnix ≤ m.toUnix) ↔
      c.Reaches q m := by
  have hstart : c.start? q = some (c.entry q first) := by
    rw [start?, hfirst]
    rfl
  constructor
  · rintro ⟨year, hmem, hm, hle⟩
    obtain ⟨⟨hvalid, hsame⟩, hfits⟩ := (inYear_iff hc).mp hm
    have hfrom := (mem_yearsFrom.mp (List.mem_of_head? hfirst)).2
    have hallows := (c.allows_iff m).mpr ⟨hfits, year, (mem_yearsFrom.mp hmem).1, hsame.symm⟩
    refine ⟨hvalid, hallows, (le_entry hq hfrom).trans hle, ?_⟩
    rintro start hbegins
    obtain rfl := Option.some.inj (hstart.symm.trans hbegins)
    exact hle
  · rintro ⟨hvalid, hallows, hle, hafter⟩
    obtain ⟨year, hmem, heq⟩ := exists_yearsFrom hq hvalid hallows hle
    have hfits := ((c.allows_iff m).mp hallows).1
    exact ⟨year, hmem, (inYear_iff hc).mpr ⟨⟨hvalid, heq.symm⟩, hfits⟩, hafter _ hstart⟩

/-- The search finds the first moment that it can. -/
theorem isFirst_nextFrom? (hc : c.IsProper) (hq : q.IsValid) (hyear : 0 ≤ q.year) :
    IsFirst (c.Reaches q) (c.nextFrom? q) := by
  rw [nextFrom?_eq hyear]
  cases hfirst : (c.yearsFrom q).head? with
  | none =>
    -- No listed year is left.
    have hnil : c.yearsFrom q = [] := List.head?_eq_none_iff.mp hfirst
    rw [hnil]
    rintro m ⟨hm, hallows, hle, -⟩
    obtain ⟨year, hmem, -⟩ := exists_yearsFrom hq hm hallows hle
    rw [hnil] at hmem
    exact List.not_mem_nil hmem
  | some first =>
    -- A wrong day is passed over below, so the search of the years never ends with one.
    have hanswers := (answers_sweep hc hq hfirst).congr fun m => reaches_iff hc hq hfirst
    cases hsearch : (sweep (fun year pins => searchMonths c q year pins) (c.yearsFrom q)
        Pins.all).1 with
    | found m =>
      rw [hsearch] at hanswers
      exact hanswers.2
    | wrongDay =>
      rw [hsearch] at hanswers
      exact absurd trivial hanswers
    | exhausted =>
      rw [hsearch] at hanswers
      exact hanswers

end Calendar

/-! ## Delays -/

/-- The seconds of a set that come after an instant. -/
def secondsAfter (now : Instant) (seconds : Set Int) : Set Int :=
  {t ∈ seconds | now.nanos < (Instant.ofUnix t 0).nanos}

/-- The first whole second after an instant. -/
def nextSecond (now : Instant) : Moment :=
  Moment.ofUnix (now.seconds + 1)

theorem isValid_nextSecond (now : Instant) : (nextSecond now).IsValid :=
  Moment.isValid_ofUnix _

theorem nanos_lt_iff (now : Instant) (t : Int) :
    now.nanos < (Instant.ofUnix t 0).nanos ↔ (nextSecond now).toUnix ≤ t := by
  -- The second that has begun is over when the next one is reached.
  rw [nextSecond, Moment.toUnix_ofUnix]
  simp only [Instant.ofUnix, Instant.seconds, nanosPerSecond]
  omega

/-- The search that starts after an instant of 1970 or later starts in such a year. -/
theorem year_nextSecond (hnow : 0 ≤ now.nanos) : 1970 ≤ (nextSecond now).year := by
  by_contra hbefore
  have hlt := (Moment.year_ofUnix_lt_iff (now.seconds + 1) 1970).mp (not_le.mp hbefore)
  have hnewYear : (Moment.newYear 1970).toUnix = 0 := by decide
  simp only [hnewYear, Instant.seconds, nanosPerSecond] at hlt
  omega

/-- The delay leads to the first second of a set, and there is none if the set is empty. -/
def LeadsTo (s : Schedule) (now : Instant) (seconds : Set Int) : Prop :=
  (∀ delay, s.nextDelay now = some delay ↔
    ∃ t, IsLeast seconds t ∧ 0 < delay.nanos ∧ now.after delay = Instant.ofUnix t 0) ∧
    (s.nextDelay now = none ↔ seconds = ∅)

namespace Calendar

/-- The seconds at which the calendar allows a trigger. -/
def allowed (c : Calendar) : Set Int :=
  {t | c.allows (Moment.ofUnix t) = true}

/-- The seconds after an instant that its search can find. -/
def reached (c : Calendar) (now : Instant) : Set Int :=
  {t ∈ secondsAfter now c.allowed | ∀ start ∈ c.start? (nextSecond now), start.toUnix ≤ t}

theorem mem_reached {t : Int} :
    t ∈ c.reached now ↔ c.Reaches (nextSecond now) (Moment.ofUnix t) := by
  unfold Reaches
  rw [Moment.toUnix_ofUnix, ← nanos_lt_iff]
  exact ⟨fun ⟨⟨hallows, hlater⟩, hafter⟩ => ⟨Moment.isValid_ofUnix t, hallows, hlater, hafter⟩,
    fun ⟨_, hallows, hlater, hafter⟩ => ⟨⟨hallows, hlater⟩, hafter⟩⟩

/-- A span leads to a later second exactly if it is the one from here to there. -/
theorem after_eq_iff {t : Int} (h : now.nanos < (Instant.ofUnix t 0).nanos) (delay : Span) :
    0 < delay.nanos ∧ now.after delay = Instant.ofUnix t 0 ↔
      now.spanTo (Instant.ofUnix t 0) = delay := by
  unfold Instant.spanTo Instant.after
  generalize Instant.ofUnix t 0 = later at *
  obtain ⟨nanos⟩ := later
  obtain ⟨span⟩ := delay
  simp only [Instant.mk.injEq, Span.mk.injEq] at *
  omega

/-- The delay of a calendar schedule leads to the first second that the search can find. -/
theorem leadsTo_reached (hc : c.IsProper) (hnow : 0 ≤ now.nanos) :
    (Schedule.calendar c).LeadsTo now (c.reached now) := by
  have hyear := year_nextSecond hnow
  have hfirst := isFirst_nextFrom? hc (isValid_nextSecond now) (by omega)
  unfold LeadsTo nextDelay
  dsimp only
  rw [← nextSecond]
  cases hfound : c.nextFrom? (nextSecond now) with
  | none =>
    rw [hfound] at hfirst
    have hempty : c.reached now = ∅ :=
      Set.eq_empty_of_forall_notMem fun t ht => hfirst _ (mem_reached.mp ht)
    refine ⟨fun delay => iff_of_false nofun ?_, iff_of_true rfl hempty⟩
    rintro ⟨t, ht, -⟩
    rw [hempty] at ht
    exact Set.notMem_empty t ht.1
  | some m =>
    rw [hfound] at hfirst
    obtain ⟨hreaches, hbefore⟩ := hfirst
    have hleast : IsLeast (c.reached now) m.toUnix := by
      refine ⟨?_, fun t ht => ?_⟩
      · rwa [mem_reached, Moment.ofUnix_toUnix hreaches.1]
      · simpa only [Moment.toUnix_ofUnix] using hbefore _ (mem_reached.mp ht)
    have hlater : now.nanos < (Instant.ofUnix m.toUnix 0).nanos := hleast.1.1.2
    -- Only the span to the first second leads there, since seconds are apart.
    refine ⟨fun delay => ?_, ?_⟩
    · rw [Option.map_some, Option.some.injEq, ← after_eq_iff hlater]
      constructor
      · exact fun hleads => ⟨_, hleast, hleads⟩
      · rintro ⟨t, ht, hleads⟩
        rwa [ht.unique hleast] at hleads
    · exact iff_of_false nofun hleast.nonempty.ne_empty

end Calendar

end EdgeSync.Schedule
