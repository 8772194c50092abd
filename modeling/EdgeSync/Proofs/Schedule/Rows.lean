import EdgeSync.Proofs.Schedule.Grammar
import EdgeSync.Proofs.Schedule.Upcoming

/-!
# Rows of Fields

Two readers go over a calendar expression. The words between its blanks are counted, to tell
whether the seconds are missing; the fields are read without regard to words, each as far as it
goes. Where every word is a field by itself, both see the same row. Where that is not so, the
fields are other pieces of the text than the words: a word may hold two fields, and a first word
that begins with a mark goes on with the seconds that were put before it.

## Main definitions

- `fieldSet?`, `Calendar.ofFields?`: what texts say that are fields by themselves
- `rowWords`, `rowText`: an expression with the seconds that five words lack
- `OnWholeMinutes`: every trigger falls on a whole minute

## Main results

- `read?_eq_some_iff`: a calendar is read by reading field after field
- `reads_rows_of_fields`: which expressions are read, and as what
- `stroke_steps_seconds`: five words that trigger every ten seconds
-/

namespace EdgeSync.Schedule

open EdgeSync.Text EdgeSync.Time

/-! ## Fields by Themselves -/

/-- The values that a text allows in a unit, if the whole of it is a field. -/
def fieldSet? (u : TimeUnit) (w : List Char) : Option (List Nat) :=
  match readField u w with
  | some (items, []) => fieldValues? u items
  | _ => none

/-- The values of texts that are fields by themselves, each for the unit in its place. -/
def fieldSets? : List TimeUnit → List (List Char) → Option (List (List Nat))
  | _, [] => some []
  | [], _ :: _ => none
  | u :: us, w :: ws => do
    let values ← fieldSet? u w
    let more ← fieldSets? us ws
    return values :: more

namespace Calendar

/-- The units of a calendar expression, the optional one last. -/
def units : List TimeUnit :=
  [.second, .minute, .hour, .day, .month, .weekday, .year]

/-- The calendar with the given values, with or without years. -/
def ofValues? : List (List Nat) → Option Calendar
  | [seconds, minutes, hours, days, months, weekdays] =>
    some ⟨seconds, minutes, hours, days, months, weekdays, none⟩
  | [seconds, minutes, hours, days, months, weekdays, years] =>
    some ⟨seconds, minutes, hours, days, months, weekdays, some years⟩
  | _ => none

/-- The calendar of six texts or seven that are fields by themselves. -/
def ofFields? (ws : List (List Char)) : Option Calendar :=
  (fieldSets? units ws).bind ofValues?

end Calendar

variable {u : TimeUnit} {us : List TimeUnit} {w cs t mid rest : List Char}
  {ws : List (List Char)} {values : List Nat} {sets : List (List Nat)} {items : List Item}
  {c : Calendar} {ch : Char}

theorem inert_nil (marks : List Char) : Inert marks [] := ⟨nofun, nofun⟩

theorem fieldSet?_eq_some_iff : fieldSet? u w = some values ↔
    ∃ items, FieldText u items w ∧ fieldValues? u items = some values := by
  unfold fieldSet?
  constructor
  · intro h
    split at h
    · next items hread =>
      obtain ⟨text, htext, heq⟩ := exists_fieldText hread
      rw [List.append_nil] at heq
      exact ⟨items, heq ▸ htext, h⟩
    · cases h
  · rintro ⟨items, htext, hvalues⟩
    have hread := readField_text htext (inert_nil _)
    rw [List.append_nil] at hread
    rw [hread]
    exact hvalues

/-! ## One Field after Another -/

/-- A field is read from the front of a text, as long as what follows is not part of it. -/
theorem readValues_text (hw : fieldSet? u w = some values) (ht : Inert [',', '-', '/'] t) :
    Calendar.readValues u (w ++ t) = some (some values, skipGap t) := by
  obtain ⟨items, htext, hvalues⟩ := fieldSet?_eq_some_iff.mp hw
  rw [Calendar.readValues, readField_text htext ht, Option.map_some, hvalues]

theorem exists_fieldSet (h : Calendar.readValues u cs = some (some values, rest)) :
    ∃ w, fieldSet? u w = some values ∧ cs = w ++ rest := by
  obtain ⟨⟨items, rest⟩, hread, heq⟩ := Option.map_eq_some_iff.mp h
  obtain ⟨hvalues, rfl⟩ := Prod.mk.inj heq
  obtain ⟨text, htext, hsplit⟩ := exists_fieldText hread
  exact ⟨text, fieldSet?_eq_some_iff.mpr ⟨items, htext, hvalues⟩, hsplit⟩

/-- Values are read from a text one field after another, as far as there are any. -/
inductive Reads : List TimeUnit → List (List Nat) → List Char → List Char → Prop
  | done (us : List TimeUnit) (cs : List Char) : Reads us [] cs cs
  | field {u : TimeUnit} {us : List TimeUnit} {values : List Nat} {sets : List (List Nat)}
      {cs mid rest : List Char} (hfield : Calendar.readValues u cs = some (some values, mid))
      (hmore : Reads us sets mid rest) : Reads (u :: us) (values :: sets) cs rest

/-- What is read consists of pieces that are fields by themselves. -/
theorem Reads.exists_pieces (h : Reads us sets cs rest) :
    ∃ pieces, fieldSets? us pieces = some sets ∧ cs = pieces.flatten ++ rest := by
  induction h with
  | done us cs => exact ⟨[], by rw [fieldSets?], rfl⟩
  | field hfield _ ih =>
    obtain ⟨w, hw, rfl⟩ := exists_fieldSet hfield
    obtain ⟨pieces, hpieces, rfl⟩ := ih
    refine ⟨w :: pieces, ?_, by rw [List.flatten_cons, List.append_assoc]⟩
    simp only [fieldSets?, hw, hpieces, Option.bind_eq_bind, Option.bind_some, Option.pure_def]

theorem Reads.isFieldChar (h : Reads us sets cs rest)
    (hrest : ∀ ch ∈ rest, isFieldChar ch = true) : ∀ ch ∈ cs, isFieldChar ch = true := by
  induction h with
  | done us cs => exact hrest
  | field hfield _ ih =>
    obtain ⟨w, hw, rfl⟩ := exists_fieldSet hfield
    obtain ⟨items, htext, -⟩ := fieldSet?_eq_some_iff.mp hw
    intro ch hch
    obtain hch | hch := List.mem_append.mp hch
    · exact htext.isFieldChar ch hch
    · exact ih hrest ch hch

theorem readValues_skipGap (u : TimeUnit) (cs : List Char) :
    Calendar.readValues u (skipGap cs) = Calendar.readValues u cs := by
  simp only [Calendar.readValues, readField, skipGap_idem]

theorem Reads.skipGap (h : Reads us (values :: sets) cs rest) :
    Reads us (values :: sets) (skipGap cs) rest := by
  cases h with
  | field hfield hmore => exact .field (by rwa [readValues_skipGap]) hmore

/-- A field does not begin with a mark between items or within one. -/
theorem head_of_readValues (h : Calendar.readValues u cs = some (some values, rest)) :
    ∀ c ∈ (skipGap cs).head?, c ∉ [',', '-', '/'] := by
  obtain ⟨w, hw, rfl⟩ := exists_fieldSet h
  obtain ⟨items, htext, -⟩ := fieldSet?_eq_some_iff.mp hw
  obtain ⟨c, hc, hopening⟩ := htext.head rest
  rw [hc]
  rintro d ⟨⟩ hmem
  simp only [List.mem_cons, List.not_mem_nil, or_false] at hmem
  obtain rfl | rfl | rfl := hmem <;> cases hopening

/-- Behind a gap, what a field is read from does not belong to the field before. -/
theorem Reads.inert (h : Reads us (values :: sets) cs rest) {gap : List Char} (hne : gap ≠ [])
    (hgap : IsGap gap) : Inert [',', '-', '/'] (gap ++ cs) := by
  obtain ⟨g, gap, rfl⟩ := List.exists_cons_of_ne_nil hne
  have hg := hgap g List.mem_cons_self
  refine ⟨?_, ?_⟩
  · rintro c ⟨⟩
    exact ⟨isDigit_of_isGap hg, isAlpha_of_isGap hg⟩
  · rw [skipGap_append_of_all hgap]
    cases h with
    | field hfield _ => exact head_of_readValues hfield

theorem exists_of_fieldSets?_cons (h : fieldSets? us (w :: ws) = some sets) :
    ∃ u more values later, us = u :: more ∧ sets = values :: later ∧
      fieldSet? u w = some values ∧ fieldSets? more ws = some later := by
  cases us with
  | nil => cases h
  | cons u us =>
    obtain ⟨values, hw, h⟩ := Option.bind_eq_some_iff.mp h
    obtain ⟨later, hws, h⟩ := Option.bind_eq_some_iff.mp h
    cases h
    exact ⟨u, us, values, later, rfl, rfl, hw, hws⟩

theorem length_of_fieldSets? (h : fieldSets? us ws = some sets) : sets.length = ws.length := by
  induction ws generalizing us sets with
  | nil =>
    rw [fieldSets?] at h
    cases h
    rfl
  | cons w ws ih =>
    obtain ⟨u, more, values, later, rfl, rfl, -, hlater⟩ := exists_of_fieldSets?_cons h
    rw [List.length_cons, List.length_cons, ih hlater]

/-- Words that are fields by themselves, with gaps between them, are read one after another. -/
theorem reads_joined (hcs : Joined isGap ws cs) (hsets : fieldSets? us ws = some sets) :
    Reads us sets cs [] := by
  induction hcs generalizing us sets with
  | last w =>
    obtain ⟨u, us, values, later, rfl, rfl, hw, hlater⟩ := exists_of_fieldSets?_cons hsets
    rw [fieldSets?] at hlater
    cases hlater
    have hread := readValues_text hw (inert_nil _)
    rw [List.append_nil] at hread
    exact .field hread (.done us [])
  | cons w hne hgap hrest ih =>
    obtain ⟨u, us, values, later, rfl, rfl, hw, hlater⟩ := exists_of_fieldSets?_cons hsets
    have hreads := ih hlater
    -- There is a next word, so what is behind the gap is read as a field.
    obtain ⟨next, ws, rfl⟩ := hrest.exists_cons
    obtain ⟨_, _, _, _, -, rfl, -, -⟩ := exists_of_fieldSets?_cons hlater
    have hread := readValues_text hw (hreads.inert hne hgap)
    rw [skipGap_append_of_all hgap] at hread
    exact .field hread hreads.skipGap

namespace Calendar

theorem seconds_of_ofValues? (h : ofValues? (values :: sets) = some c) : c.seconds = values := by
  unfold ofValues? at h
  split at h
  · next heq =>
    cases heq
    cases h
    rfl
  · next heq =>
    cases heq
    cases h
    rfl
  · cases h

theorem length_of_ofValues? (h : ofValues? sets = some c) : sets.length ∈ [6, 7] := by
  unfold ofValues? at h
  split at h
  · simp
  · simp
  · cases h

/-- A calendar is read by reading field after field to the end of the text. -/
theorem read?_eq_some_iff :
    read? cs = some c ↔ ∃ sets, Reads units sets cs [] ∧ ofValues? sets = some c := by
  constructor
  · intro h
    unfold read? at h
    obtain ⟨⟨seconds, cs₁⟩, hseconds, h⟩ := Option.bind_eq_some_iff.mp h
    obtain ⟨⟨minutes, cs₂⟩, hminutes, h⟩ := Option.bind_eq_some_iff.mp h
    obtain ⟨⟨hours, cs₃⟩, hhours, h⟩ := Option.bind_eq_some_iff.mp h
    obtain ⟨⟨days, cs₄⟩, hdays, h⟩ := Option.bind_eq_some_iff.mp h
    obtain ⟨⟨months, cs₅⟩, hmonths, h⟩ := Option.bind_eq_some_iff.mp h
    obtain ⟨⟨weekdays, cs₆⟩, hweekdays, h⟩ := Option.bind_eq_some_iff.mp h
    cases hread : readValues .year cs₆ with
    | none =>
      simp only [hread] at h
      split at h
      · cases h
      · next hend =>
        obtain rfl := not_not.mp hend
        simp only [Option.bind_eq_bind, Option.bind_eq_some_iff, Option.bind_some] at h
        obtain ⟨seconds, rfl, minutes, rfl, hours, rfl, days, rfl, months, rfl, weekdays, rfl,
          ⟨⟩⟩ := h
        exact ⟨_, .field hseconds (.field hminutes (.field hhours (.field hdays
          (.field hmonths (.field hweekdays (.done [.year] [])))))), rfl⟩
    | some r =>
      obtain ⟨years, rest⟩ := r
      simp only [hread] at h
      split at h
      · cases h
      · next hend =>
        obtain rfl := not_not.mp hend
        simp only [Option.bind_eq_bind, Option.bind_eq_some_iff, Option.map_eq_some_iff] at h
        obtain ⟨_, ⟨years, rfl, rfl⟩, seconds, rfl, minutes, rfl, hours, rfl, days, rfl, months,
          rfl, weekdays, rfl, ⟨⟩⟩ := h
        exact ⟨_, .field hseconds (.field hminutes (.field hhours (.field hdays
          (.field hmonths (.field hweekdays (.field hread (.done [] []))))))), rfl⟩
  · rintro ⟨sets, hreads, hsets⟩
    unfold ofValues? at hsets
    split at hsets
    · cases hsets
      obtain _ | ⟨hseconds, _ | ⟨hminutes, _ | ⟨hhours, _ | ⟨hdays, _ | ⟨hmonths,
        _ | ⟨hweekdays, _ | _⟩⟩⟩⟩⟩⟩ := hreads
      refine Option.bind_eq_some_iff.mpr ⟨_, hseconds, Option.bind_eq_some_iff.mpr ⟨_, hminutes,
        Option.bind_eq_some_iff.mpr ⟨_, hhours, Option.bind_eq_some_iff.mpr ⟨_, hdays,
        Option.bind_eq_some_iff.mpr ⟨_, hmonths, Option.bind_eq_some_iff.mpr ⟨_, hweekdays,
        ?_⟩⟩⟩⟩⟩⟩
      rfl
    · cases hsets
      obtain _ | ⟨hseconds, _ | ⟨hminutes, _ | ⟨hhours, _ | ⟨hdays, _ | ⟨hmonths,
        _ | ⟨hweekdays, _ | ⟨hyears, _ | _⟩⟩⟩⟩⟩⟩⟩ := hreads
      refine Option.bind_eq_some_iff.mpr ⟨_, hseconds, Option.bind_eq_some_iff.mpr ⟨_, hminutes,
        Option.bind_eq_some_iff.mpr ⟨_, hhours, Option.bind_eq_some_iff.mpr ⟨_, hdays,
        Option.bind_eq_some_iff.mpr ⟨_, hmonths, Option.bind_eq_some_iff.mpr ⟨_, hweekdays,
        ?_⟩⟩⟩⟩⟩⟩
      simp only [hyears]
      rfl
    · cases hsets

/-- The words of a calendar are six or seven. -/
theorem length_of_ofFields? (h : ofFields? ws = some c) : ws.length ∈ [6, 7] := by
  obtain ⟨sets, hsets, hvalues⟩ := Option.bind_eq_some_iff.mp h
  rw [← length_of_fieldSets? hsets]
  exact length_of_ofValues? hvalues

/-- Words with gaps between them are read as what they say by themselves. -/
theorem read?_joined (hcs : Joined isGap ws cs) (h : ofFields? ws = some c) :
    read? cs = some c := by
  obtain ⟨sets, hsets, hvalues⟩ := Option.bind_eq_some_iff.mp h
  exact read?_eq_some_iff.mpr ⟨sets, reads_joined hcs hsets, hvalues⟩

theorem isProper_of_ofFields? (h : ofFields? ws = some c) : c.IsProper := by
  have hne : ws ≠ [] := by
    rintro rfl
    cases h
  -- With a space between each two words they are read.
  have hspace : ∀ c ∈ [' '], isGap c = true := by simp [isGap]
  obtain ⟨cs, hcs⟩ := exists_joined (List.cons_ne_nil _ _) hspace hne
  exact isProper_of_read? (read?_joined hcs h)

end Calendar

/-! ## Whole Minutes -/

/-- Every trigger falls on a whole minute. -/
def OnWholeMinutes (c : Calendar) : Prop :=
  ∀ now delay, (Schedule.calendar c).nextDelay now = some delay →
    ∃ minute : Int, now.after delay = Instant.ofUnix (60 * minute) 0

theorem exists_minute {m : Moment} (h : m.second = 0) : ∃ minute : Int, m.toUnix = 60 * minute := by
  refine ⟨dayNumber m.year m.month m.day * 1440 + (m.hour * 60 + m.minute : Nat), ?_⟩
  rw [Moment.toUnix, h]
  omega

theorem onWholeMinutes (hc : c.IsProper) (hseconds : c.seconds = [0]) : OnWholeMinutes c := by
  intro now delay h
  obtain ⟨m, hfound, hspan⟩ := Option.map_eq_some_iff.mp h
  have hyear : 0 ≤ (nextSecond now).year := by
    by_contra hneg
    have hnone : c.nextFrom? (nextSecond now) = none := if_pos (not_le.mp hneg)
    rw [nextSecond, hfound] at hnone
    cases hnone
  have hfirst := Calendar.isFirst_nextFrom? hc (isValid_nextSecond now) hyear
  rw [nextSecond, hfound] at hfirst
  obtain ⟨-, hallows, hlater, -⟩ := hfirst.1
  have hsecond := ((c.allows_iff m).mp hallows).1.1
  rw [hseconds, List.mem_singleton] at hsecond
  obtain ⟨minute, hminute⟩ := exists_minute hsecond
  refine ⟨minute, ?_⟩
  rw [← hminute]
  exact ((Calendar.after_eq_iff ((nanos_lt_iff now _).mpr hlater) delay).mpr hspan).2

/-! ## Expressions -/

/-- The words of an expression, with the seconds that five of them lack. -/
def rowWords (cs : List Char) : List (List Char) :=
  if (words cs).length = 5 then ['0'] :: words cs else words cs

/-- An expression with the seconds that five words lack. -/
def rowText (cs : List Char) : List Char :=
  if (words cs).length = 5 then '0' :: ' ' :: cs else cs

variable {expression : String} {s : Schedule}

theorem fields_eq (hat : cs.head? ≠ some '@') :
    Schedule.fields cs = if (words cs).length ∈ [5, 6, 7] then .ok (rowText cs)
      else .error (.fieldCount (words cs).length) := by
  rw [Schedule.fields, if_neg hat, rowText]
  generalize (words cs).length = count
  split
  · rfl
  · rfl
  · rfl
  · next h5 h6 h7 =>
    rw [if_neg]
    simp only [List.mem_cons, List.not_mem_nil, or_false, not_or]
    exact ⟨h5, h6, h7⟩

/-- Words are counted, and then the fields are read. -/
theorem parse_eq_ok_iff (hcs : trimChars expression.toList = cs) (hat : cs.head? ≠ some '@') :
    Schedule.parse expression = .ok s ↔
      (words cs).length ∈ [5, 6, 7] ∧
        ∃ c, s = .calendar c ∧ Calendar.read? (rowText cs) = some c := by
  have hevery : Schedule.everyWord.isPrefixOf cs = false := by
    cases cs with
    | nil => rfl
    | cons c cs =>
      have hne : ('@' == c) = false := by
        rw [beq_eq_false_iff_ne]
        rintro rfl
        exact hat rfl
      simp [Schedule.everyWord, List.isPrefixOf, hne]
  rw [Schedule.parse, hcs]
  cases hempty : cs.isEmpty with
  | true =>
    obtain rfl := List.isEmpty_iff.mp hempty
    exact iff_of_false nofun fun h => absurd h.1 (by decide)
  | false =>
    simp only [hevery, Bool.false_eq_true, if_false, fields_eq hat]
    by_cases hcount : (words cs).length ∈ [5, 6, 7]
    · rw [if_pos hcount, and_iff_right hcount]
      cases hread : Calendar.read? (rowText cs) with
      | none => simp [hread]
      | some allowed => simp [hread, eq_comm]
    · simp [hcount]

theorem not_isBlank_of_isDigit (h : ch.isDigit = true) : isBlank ch = false := by
  have hval : ch.toNat = ch.val.toNat := rfl
  have h0 : '0'.val.toNat = 48 := rfl
  have h9 : '9'.val.toNat = 57 := rfl
  simp only [Char.isDigit, Bool.and_eq_true, decide_eq_true_eq, ge_iff_le,
    UInt32.le_iff_toNat_le] at h
  simp only [isBlank, Bool.or_eq_false_iff, Bool.and_eq_false_iff, decide_eq_false_iff_not,
    beq_eq_false_iff_ne]
  omega

theorem not_isBlank_of_isAlpha (h : ch.isAlpha = true) : isBlank ch = false := by
  have hval : ch.toNat = ch.val.toNat := rfl
  have hA : 'A'.val.toNat = 65 := rfl
  have hZ : 'Z'.val.toNat = 90 := rfl
  have ha : 'a'.val.toNat = 97 := rfl
  have hz : 'z'.val.toNat = 122 := rfl
  unfold Char.isAlpha Char.isUpper Char.isLower at h
  simp only [Bool.or_eq_true, Bool.and_eq_true, decide_eq_true_eq, ge_iff_le,
    UInt32.le_iff_toNat_le] at h
  simp only [isBlank, Bool.or_eq_false_iff, Bool.and_eq_false_iff, decide_eq_false_iff_not,
    beq_eq_false_iff_ne]
  omega

theorem isBlank_of_isGap (h : isGap ch = true) : isBlank ch = true := by
  simp only [isGap, Bool.or_eq_true, beq_iff_eq, or_assoc] at h
  rcases h with rfl | rfl | rfl | rfl <;> rfl

/-- A character of use in a field that is blank is one of a gap. -/
theorem isGap_of_isFieldChar (hc : isFieldChar ch = true) (hblank : isBlank ch = true) :
    isGap ch = true := by
  simp only [isFieldChar, isOpening, isWordChar, Bool.or_eq_true, beq_iff_eq, or_assoc] at hc
  obtain hgap | hdigit | halpha | rfl | rfl | rfl | rfl | rfl := hc
  · exact hgap
  · rw [not_isBlank_of_isDigit hdigit] at hblank
    cases hblank
  · rw [not_isBlank_of_isAlpha halpha] at hblank
    cases hblank
  all_goals cases hblank

/-- Where all blanks are gaps, an expression is its words, joined by gaps. -/
theorem joined_rowWords (hcs : IsTrim cs) (hne : cs ≠ [])
    (hblank : ∀ c ∈ cs, isBlank c = true → isGap c = true) :
    Joined isGap (rowWords cs) (rowText cs) := by
  have hjoined := (joined_words hcs hne).mono hblank
  unfold rowWords rowText
  split
  · have hspace : ∀ c ∈ [' '], isGap c = true := by simp [isGap]
    exact .cons ['0'] (List.cons_ne_nil _ _) hspace hjoined
  · exact hjoined

theorem mem_rowText (hc : ch ∈ cs) : ch ∈ rowText cs := by
  unfold rowText
  split
  · exact List.mem_cons_of_mem _ (List.mem_cons_of_mem _ hc)
  · exact hc

/-- All that is read belongs to fields. -/
theorem isFieldChar_of_read? (h : Calendar.read? cs = some c) :
    ∀ ch ∈ cs, isFieldChar ch = true := by
  obtain ⟨sets, hreads, -⟩ := Calendar.read?_eq_some_iff.mp h
  exact hreads.isFieldChar nofun

/-- Where every word is a field by itself, the words are the fields. -/
theorem read?_rowText (hcs : IsTrim cs) (hblank : ∀ c ∈ cs, isBlank c = true → isGap c = true)
    (h : Calendar.ofFields? (rowWords cs) = some c) : Calendar.read? (rowText cs) = some c := by
  have hne : cs ≠ [] := by
    rintro rfl
    cases h
  exact Calendar.read?_joined (joined_rowWords hcs hne hblank) h

/-- Five words have the seconds put before them, unless the first begins with a mark that goes
on with these. -/
theorem seconds_of_read? (hcs : IsTrim cs) (hfive : (words cs).length = 5)
    (hhead : ∀ c ∈ cs.head?, c ∉ [',', '-', '/']) (h : Calendar.read? (rowText cs) = some c) :
    c.seconds = [0] := by
  obtain ⟨sets, hreads, hvalues⟩ := Calendar.read?_eq_some_iff.mp h
  rw [rowText, if_pos hfive] at hreads
  have hskip : skipGap (' ' :: cs) = cs := by
    have hspace : IsGap [' '] := by simp [IsGap, isGap]
    refine skipGap_run hspace fun c hc => ?_
    cases hgap : isGap c with
    | false => rfl
    | true =>
      have hblank := hcs.head c hc
      rw [isBlank_of_isGap hgap] at hblank
      cases hblank
  have hinert : Inert [',', '-', '/'] (' ' :: cs) := ⟨by rintro c ⟨⟩; decide, by rwa [hskip]⟩
  have hzero : fieldSet? .second ['0'] = some [0] := rfl
  have hread := readValues_text hzero hinert
  cases hreads with
  | @field _ _ values later _ _ _ hfield hmore =>
    have heq := hread.symm.trans hfield
    cases heq
    exact Calendar.seconds_of_ofValues? hvalues

/-! ## What Expressions Say -/

/-- What an expression is read as: the calendar of the fields that make it up, and that of its
words if these are fields by themselves. -/
structure Says (cs : List Char) (c : Calendar) : Prop where
  count : (words cs).length ∈ [5, 6, 7]
  fields : ∃ pieces, pieces.flatten = rowText cs ∧ Calendar.ofFields? pieces = some c
  ofWords : ∀ c', Calendar.ofFields? (rowWords cs) = some c' → c' = c
  seconds : (words cs).length = 5 → (∀ ch ∈ cs.head?, ch ∉ [',', '-', '/']) →
    c.seconds = [0] ∧ OnWholeMinutes c

theorem says_of_read? (hcs : IsTrim cs) (hcount : (words cs).length ∈ [5, 6, 7])
    (h : Calendar.read? (rowText cs) = some c) (hc : c.IsProper) : Says cs c where
  count := hcount
  fields := by
    obtain ⟨sets, hreads, hvalues⟩ := Calendar.read?_eq_some_iff.mp h
    obtain ⟨pieces, hpieces, heq⟩ := hreads.exists_pieces
    refine ⟨pieces, by rw [heq, List.append_nil], ?_⟩
    rw [Calendar.ofFields?, hpieces, Option.bind_some, hvalues]
  ofWords c' hwords := by
    have hblank : ∀ ch ∈ cs, isBlank ch = true → isGap ch = true := fun ch hch =>
      isGap_of_isFieldChar (isFieldChar_of_read? h ch (mem_rowText hch))
    exact Option.some.inj ((read?_rowText hcs hblank hwords).symm.trans h)
  seconds hfive hhead := by
    have hseconds := seconds_of_read? hcs hfive hhead h
    exact ⟨hseconds, onWholeMinutes hc hseconds⟩

/-- An expression that is no descriptor is read only if it has five, six or seven words; it is
read as the calendar of fields that make it up, with no seconds but the zeroth for five words
that begin with no mark. Where every word is a field by itself, the words are these fields, five
of them trigger on whole minutes, and the expression is read exactly if the blanks in it are
gaps. -/
theorem reads_rows_of_fields (hcs : trimChars expression.toList = cs)
    (hat : cs.head? ≠ some '@') :
    (∀ s, Schedule.parse expression = .ok s → ∃ c, s = .calendar c ∧ Says cs c) ∧
    ∀ c, Calendar.ofFields? (rowWords cs) = some c →
      ((words cs).length = 5 → c.seconds = [0] ∧ OnWholeMinutes c) ∧
      (Schedule.parse expression = .ok (.calendar c) ↔
        ∀ ch ∈ cs, isBlank ch = true → isGap ch = true) := by
  have htrim : IsTrim cs := hcs ▸ isTrim_trimChars _
  refine ⟨fun s hparse => ?_, fun c hwords => ⟨fun hfive => ?_, fun hparse => ?_, fun hblank => ?_⟩⟩
  · obtain ⟨hcount, c, rfl, hread⟩ := (parse_eq_ok_iff hcs hat).mp hparse
    exact ⟨c, rfl, says_of_read? htrim hcount hread (Calendar.isProper_of_parse hparse)⟩
  · obtain ⟨sets, hsets, hvalues⟩ := Option.bind_eq_some_iff.mp hwords
    rw [rowWords, if_pos hfive] at hsets
    obtain ⟨u, more, values, later, hunits, rfl, hzero, -⟩ := exists_of_fieldSets?_cons hsets
    obtain ⟨rfl, -⟩ := List.cons.inj hunits
    obtain rfl : [0] = values := Option.some.inj hzero
    have hseconds := Calendar.seconds_of_ofValues? hvalues
    exact ⟨hseconds, onWholeMinutes (Calendar.isProper_of_ofFields? hwords) hseconds⟩
  · obtain ⟨-, c, heq, hread⟩ := (parse_eq_ok_iff hcs hat).mp hparse
    exact fun ch hch => isGap_of_isFieldChar (isFieldChar_of_read? hread ch (mem_rowText hch))
  · refine (parse_eq_ok_iff hcs hat).mpr ⟨?_, c, rfl, read?_rowText htrim hblank hwords⟩
    have hlength := Calendar.length_of_ofFields? hwords
    rw [rowWords] at hlength
    split at hlength
    · simp [*]
    · simp only [List.mem_cons, List.not_mem_nil, or_false] at hlength ⊢
      exact Or.inr hlength

/-- Five minutes after five minutes, every word is a field by itself. -/
theorem reads_rows_everyFiveMinutes :
    ∃ c, Schedule.parse "*/5 * * * *" = .ok (.calendar c) ∧ c.seconds = [0] ∧
      c.minutes = [0, 5, 10, 15, 20, 25, 30, 35, 40, 45, 50, 55] ∧ OnWholeMinutes c := by
  have htrim : trimChars "*/5 * * * *".toList = "*/5 * * * *".toList := rfl
  have hrows := (reads_rows_of_fields htrim (by decide)).2 _ rfl
  have hminutes := hrows.1 rfl
  have hgaps : ∀ ch ∈ "*/5 * * * *".toList, (!isBlank ch || isGap ch) = true :=
    List.all_eq_true.mp (by decide)
  exact ⟨_, hrows.2.mpr fun ch hch hblank => by simpa [hblank] using hgaps ch hch, hminutes.1,
    rfl, hminutes.2⟩

/-- What `/10 * * * **` is read as: every tenth second of every year. -/
def everyTenSeconds : Calendar :=
  ⟨[0, 10, 20, 30, 40, 50], TimeUnit.minute.values, TimeUnit.hour.values, TimeUnit.day.values,
    TimeUnit.month.values, TimeUnit.weekday.values, none⟩

/-- The stroke of the first word goes on with the seconds put before it, and the last word holds
two fields: five words, of which two are no fields, trigger ten seconds past noon. -/
theorem stroke_steps_seconds :
    (words "/10 * * * **".toList).length = 5 ∧
      fieldSet? .minute "/10".toList = none ∧ fieldSet? .weekday "**".toList = none ∧
      Schedule.parse "/10 * * * **" = .ok (.calendar everyTenSeconds) ∧
      everyTenSeconds.seconds ≠ [0] ∧ ¬ OnWholeMinutes everyTenSeconds := by
  refine ⟨rfl, rfl, rfl, rfl, by decide, fun hminutes => ?_⟩
  have hdelay : (Schedule.calendar everyTenSeconds).nextDelay (Instant.ofUnix 1749988801 0) =
      some ⟨9000000000⟩ := by decide +kernel
  obtain ⟨minute, harrives⟩ := hminutes _ _ hdelay
  simp only [Instant.after, Instant.ofUnix, nanosPerSecond, Instant.mk.injEq] at harrives
  omega

end EdgeSync.Schedule
