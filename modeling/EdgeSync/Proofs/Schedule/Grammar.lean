import EdgeSync.Proofs.Text.Words
import EdgeSync.Schedule.Field
import Mathlib.Data.Option.Basic

/-!
# The Grammar of Fields

The texts of numbers, names, ranges, items and fields, said without the reader. Ordered choice
takes the first form that fits, and no other form fits in earnest: two forms that begin alike go
on with different marks. So a field is read from exactly these texts, as long as what follows
cannot belong to it.

## Main definitions

- `NumberText`, `NameText`, `RangeText`, `ItemText`, `FieldText`: how each part is written
- `Inert`: what follows cannot belong to a part before it

## Main results

- `readField_text`: a text of the grammar is read as its items
- `exists_fieldText`: all that is read is a text of the grammar
-/

namespace EdgeSync.Schedule

open EdgeSync.Text

/-! ## Texts -/

/-- A text of characters that may surround numbers and names. -/
def IsGap (cs : List Char) : Prop :=
  ∀ c ∈ cs, isGap c = true

/-- A number in digits, with gaps around it. -/
inductive NumberText : Nat → List Char → Prop
  | digits {gap ds gap' : List Char} (hgap : IsGap gap) (hne : ds ≠ [])
      (hdigits : ∀ c ∈ ds, c.isDigit = true) (hle : digitsValue ds ≤ maxNumber)
      (hgap' : IsGap gap') : NumberText (digitsValue ds) (gap ++ (ds ++ gap'))

/-- A name in letters, with gaps around it. -/
inductive NameText : List Char → List Char → Prop
  | letters {gap name gap' : List Char} (hgap : IsGap gap) (hne : name ≠ [])
      (hletters : ∀ c ∈ name, c.isAlpha = true) (hgap' : IsGap gap') :
      NameText name (gap ++ (name ++ gap'))

/-- A range of values. -/
inductive RangeText (u : TimeUnit) : Range → List Char → Prop
  | star : RangeText u .all ['*']
  | question (hallows : u.allowsQuestion = true) : RangeText u .all ['?']
  | span {a b : Nat} {cs ds : List Char} (hfirst : NumberText a cs) (hlast : NumberText b ds) :
      RangeText u (.span a b) (cs ++ '-' :: ds)
  | point {n : Nat} {cs : List Char} (hnumber : NumberText n cs) : RangeText u (.point n) cs
  | named {a b cs ds : List Char} (hfirst : NameText a cs) (hlast : NameText b ds) :
      RangeText u (.named a b) (cs ++ '-' :: ds)

/-- An item of a field. -/
inductive ItemText (u : TimeUnit) : Item → List Char → Prop
  | every {range : Range} {step : Nat} {cs ds : List Char} (hrange : RangeText u range cs)
      (hstep : NumberText step ds) : ItemText u (.every range step) (cs ++ '/' :: ds)
  | plain {range : Range} {cs : List Char} (hrange : RangeText u range cs) :
      ItemText u (.plain range) cs
  | name {name cs : List Char} (hname : NameText name cs) : ItemText u (.name name) cs

/-- Further items, each behind a comma. -/
inductive MoreText (u : TimeUnit) : List Item → List Char → Prop
  | nil : MoreText u [] []
  | cons {item : Item} {items : List Item} {cs ds : List Char} (hitem : ItemText u item cs)
      (hmore : MoreText u items ds) : MoreText u (item :: items) (',' :: (cs ++ ds))

/-- A field: items between commas, with gaps around the whole. -/
inductive FieldText (u : TimeUnit) : List Item → List Char → Prop
  | items {item : Item} {items : List Item} {gap cs ds gap' : List Char} (hgap : IsGap gap)
      (hitem : ItemText u item cs) (hhead : ∀ c ∈ cs.head?, isGap c = false)
      (hmore : MoreText u items ds) (hgap' : IsGap gap') :
      FieldText u (item :: items) (gap ++ (cs ++ (ds ++ gap')))

/-! ## What Texts Begin With -/

/-- The characters of numbers and names, and those around them. -/
def isWordChar (c : Char) : Bool :=
  isGap c || c.isDigit || c.isAlpha

/-- What a part of a field may begin with: a number, a name, or a mark for all values. -/
def isOpening (c : Char) : Bool :=
  isWordChar c || c == '*' || c == '?'

/-- The characters that are of use in a field. -/
def isFieldChar (c : Char) : Bool :=
  isOpening c || c == '-' || c == '/' || c == ','

variable {u : TimeUnit} {n : Nat} {name : List Char} {range : Range} {item : Item}
  {items : List Item} {cs ds t rest gap : List Char} {c : Char}

theorem isDigit_of_isGap (h : isGap c = true) : c.isDigit = false := by
  simp only [isGap, Bool.or_eq_true, beq_iff_eq, or_assoc] at h
  rcases h with rfl | rfl | rfl | rfl <;> rfl

theorem isAlpha_of_isGap (h : isGap c = true) : c.isAlpha = false := by
  simp only [isGap, Bool.or_eq_true, beq_iff_eq, or_assoc] at h
  rcases h with rfl | rfl | rfl | rfl <;> rfl

theorem isDigit_of_isAlpha (h : c.isAlpha = true) : c.isDigit = false := by
  unfold Char.isAlpha Char.isUpper Char.isLower at h
  simp only [Char.isDigit, Bool.or_eq_true, Bool.and_eq_true, decide_eq_true_eq,
    Bool.and_eq_false_iff, decide_eq_false_iff_not, ge_iff_le, UInt32.le_iff_toNat_le] at h ⊢
  have hupper : '9'.val.toNat < 'A'.val.toNat := by decide
  have hlower : '9'.val.toNat < 'a'.val.toNat := by decide
  omega

theorem skipGap_append_of_all (hgap : IsGap gap) : skipGap (gap ++ t) = skipGap t :=
  List.dropWhile_append_of_pos hgap

theorem skipGap_run (hgap : IsGap gap) (ht : ∀ c ∈ t.head?, isGap c = false) :
    skipGap (gap ++ t) = t :=
  dropWhile_run hgap ht

theorem isGap_takeWhile (cs : List Char) : IsGap (cs.takeWhile isGap) :=
  fun _ => List.mem_takeWhile_imp

theorem takeWhile_skipGap (cs : List Char) : cs.takeWhile isGap ++ skipGap cs = cs :=
  List.takeWhile_append_dropWhile

/-! ## Characters of a Text -/

theorem isWordChar_of_isGap (h : isGap c = true) : isWordChar c = true := by
  simp [isWordChar, h]

theorem isWordChar_of_isDigit (h : c.isDigit = true) : isWordChar c = true := by
  simp [isWordChar, h]

theorem isWordChar_of_isAlpha (h : c.isAlpha = true) : isWordChar c = true := by
  simp [isWordChar, h]

theorem isOpening_of_isWordChar (h : isWordChar c = true) : isOpening c = true := by
  simp [isOpening, h]

theorem isFieldChar_of_isOpening (h : isOpening c = true) : isFieldChar c = true := by
  simp [isFieldChar, h]

theorem NumberText.isWordChar (hcs : NumberText n cs) : ∀ c ∈ cs, isWordChar c = true := by
  obtain ⟨hgap, -, hdigits, -, hgap'⟩ := hcs
  intro c hc
  simp only [List.mem_append] at hc
  obtain hc | hc | hc := hc
  · exact isWordChar_of_isGap (hgap c hc)
  · exact isWordChar_of_isDigit (hdigits c hc)
  · exact isWordChar_of_isGap (hgap' c hc)

theorem NameText.isWordChar (hcs : NameText name cs) : ∀ c ∈ cs, isWordChar c = true := by
  obtain ⟨hgap, -, hletters, hgap'⟩ := hcs
  intro c hc
  simp only [List.mem_append] at hc
  obtain hc | hc | hc := hc
  · exact isWordChar_of_isGap (hgap c hc)
  · exact isWordChar_of_isAlpha (hletters c hc)
  · exact isWordChar_of_isGap (hgap' c hc)

theorem NumberText.ne_nil (hcs : NumberText n cs) : cs ≠ [] := by
  obtain ⟨-, hne, -, -, -⟩ := hcs
  exact List.append_ne_nil_of_right_ne_nil _ (List.append_ne_nil_of_left_ne_nil hne _)

theorem NameText.ne_nil (hcs : NameText name cs) : cs ≠ [] := by
  obtain ⟨-, hne, -, -⟩ := hcs
  exact List.append_ne_nil_of_right_ne_nil _ (List.append_ne_nil_of_left_ne_nil hne _)

theorem exists_head {p : Char → Bool} (hne : cs ≠ []) (h : ∀ c ∈ cs, p c = true) :
    ∃ c ∈ cs.head?, p c = true := by
  obtain ⟨c, more, rfl⟩ := List.exists_cons_of_ne_nil hne
  exact ⟨c, rfl, h c List.mem_cons_self⟩

theorem head_append {p : Char → Prop} (h : ∃ c ∈ cs.head?, p c) (t : List Char) :
    ∃ c ∈ (cs ++ t).head?, p c := by
  obtain ⟨c, hc, hp⟩ := h
  exact ⟨c, List.mem_head?_append_of_mem_head? hc, hp⟩

theorem NumberText.head (hcs : NumberText n cs) : ∃ c ∈ cs.head?, Schedule.isWordChar c = true :=
  exists_head hcs.ne_nil hcs.isWordChar

theorem NameText.head (hcs : NameText name cs) : ∃ c ∈ cs.head?, Schedule.isWordChar c = true :=
  exists_head hcs.ne_nil hcs.isWordChar

theorem RangeText.isFieldChar (hcs : RangeText u range cs) : ∀ c ∈ cs, isFieldChar c = true := by
  have hword : ∀ c, isWordChar c = true → Schedule.isFieldChar c = true := fun c hc =>
    isFieldChar_of_isOpening (isOpening_of_isWordChar hc)
  intro c hc
  cases hcs with
  | star => simp_all [Schedule.isFieldChar, isOpening]
  | question => simp_all [Schedule.isFieldChar, isOpening]
  | point hnumber => exact hword c (hnumber.isWordChar c hc)
  | span hfirst hlast =>
    simp only [List.mem_append, List.mem_cons] at hc
    obtain hc | rfl | hc := hc
    · exact hword c (hfirst.isWordChar c hc)
    · rfl
    · exact hword c (hlast.isWordChar c hc)
  | named hfirst hlast =>
    simp only [List.mem_append, List.mem_cons] at hc
    obtain hc | rfl | hc := hc
    · exact hword c (hfirst.isWordChar c hc)
    · rfl
    · exact hword c (hlast.isWordChar c hc)

theorem RangeText.head (hcs : RangeText u range cs) : ∃ c ∈ cs.head?, isOpening c = true := by
  have hword : (∃ c ∈ cs.head?, isWordChar c = true) → ∃ c ∈ cs.head?, isOpening c = true :=
    fun ⟨c, hc, h⟩ => ⟨c, hc, isOpening_of_isWordChar h⟩
  cases hcs with
  | star => exact ⟨'*', rfl, rfl⟩
  | question => exact ⟨'?', rfl, rfl⟩
  | point hnumber => exact hword hnumber.head
  | span hfirst hlast => exact hword (head_append hfirst.head _)
  | named hfirst hlast => exact hword (head_append hfirst.head _)

theorem ItemText.isFieldChar (hcs : ItemText u item cs) : ∀ c ∈ cs, isFieldChar c = true := by
  intro c hc
  cases hcs with
  | every hrange hstep =>
    simp only [List.mem_append, List.mem_cons] at hc
    obtain hc | rfl | hc := hc
    · exact hrange.isFieldChar c hc
    · rfl
    · exact isFieldChar_of_isOpening (isOpening_of_isWordChar (hstep.isWordChar c hc))
  | plain hrange => exact hrange.isFieldChar c hc
  | name hname => exact isFieldChar_of_isOpening (isOpening_of_isWordChar (hname.isWordChar c hc))

theorem ItemText.head (hcs : ItemText u item cs) : ∃ c ∈ cs.head?, isOpening c = true := by
  cases hcs with
  | every hrange hstep => exact head_append hrange.head _
  | plain hrange => exact hrange.head
  | name hname =>
    obtain ⟨c, hc, hword⟩ := hname.head
    exact ⟨c, hc, isOpening_of_isWordChar hword⟩

theorem MoreText.isFieldChar (hds : MoreText u items ds) : ∀ c ∈ ds, isFieldChar c = true := by
  induction hds with
  | nil => exact nofun
  | cons hitem _ ih =>
    intro c hc
    simp only [List.mem_cons, List.mem_append] at hc
    obtain rfl | hc | hc := hc
    · rfl
    · exact hitem.isFieldChar c hc
    · exact ih c hc

theorem FieldText.isFieldChar (hcs : FieldText u items cs) : ∀ c ∈ cs, isFieldChar c = true := by
  obtain ⟨hgap, hitem, -, hmore, hgap'⟩ := hcs
  have hword : ∀ c, isGap c = true → Schedule.isFieldChar c = true := fun c hc =>
    isFieldChar_of_isOpening (isOpening_of_isWordChar (isWordChar_of_isGap hc))
  intro c hc
  simp only [List.mem_append] at hc
  obtain hc | hc | hc | hc := hc
  · exact hword c (hgap c hc)
  · exact hitem.isFieldChar c hc
  · exact hmore.isFieldChar c hc
  · exact hword c (hgap' c hc)

/-- An item in front of which a gap is skipped. -/
theorem ItemText.skipGap_run (hcs : ItemText u item cs) (hhead : ∀ c ∈ cs.head?, isGap c = false)
    (hgap : IsGap gap) (t : List Char) : skipGap (gap ++ (cs ++ t)) = cs ++ t := by
  refine Schedule.skipGap_run hgap ?_
  obtain ⟨c, hc, -⟩ := hcs.head
  intro d hd
  rw [List.mem_head?_append_of_mem_head? hc] at hd
  cases hd
  exact hhead c hc

/-- Behind the gap in front of it, a field begins as an item does. -/
theorem FieldText.head (hcs : FieldText u items cs) (t : List Char) :
    ∃ c ∈ (skipGap (cs ++ t)).head?, isOpening c = true := by
  obtain ⟨hgap, hitem, hhead, -, -⟩ := hcs
  rw [List.append_assoc, List.append_assoc, hitem.skipGap_run hhead hgap]
  exact head_append hitem.head _

/-! ## What Follows -/

/-- What follows continues neither a number nor a name, and goes on with none of the marks. -/
structure Inert (marks t : List Char) : Prop where
  first : ∀ c ∈ t.head?, c.isDigit = false ∧ c.isAlpha = false
  next : ∀ c ∈ (skipGap t).head?, c ∉ marks

/-- What is left over of a text, perhaps without the gap in front. -/
def IsLeft (t' t : List Char) : Prop :=
  t' = t ∨ t' = skipGap t

variable {marks marks' t' : List Char}

theorem Inert.mono (ht : Inert marks t) (hsub : ∀ c ∈ marks', c ∈ marks) : Inert marks' t :=
  ⟨ht.first, fun c hc hmem => ht.next c hc (hsub c hmem)⟩

/-- A mark that is none of the given ones is inert. -/
theorem inert_cons (hdigit : c.isDigit = false) (halpha : c.isAlpha = false)
    (hgap : isGap c = false) (hmem : c ∉ marks) (t : List Char) : Inert marks (c :: t) := by
  refine ⟨?_, ?_⟩
  · rintro d ⟨⟩
    exact ⟨hdigit, halpha⟩
  · rw [skipGap, List.dropWhile_cons_of_neg (by simp [hgap])]
    rintro d ⟨⟩
    exact hmem

theorem skipGap_idem (t : List Char) : skipGap (skipGap t) = skipGap t :=
  dropWhile_eq_self (head_dropWhile isGap t)

theorem IsLeft.skipGap_eq (h : IsLeft t' t) : skipGap t' = skipGap t := by
  obtain rfl | rfl := h
  · rfl
  · exact skipGap_idem t

theorem IsLeft.eq_of_head (h : IsLeft t' t) (ht : ∀ c ∈ t.head?, isGap c = false) : t' = t := by
  obtain rfl | rfl := h
  · rfl
  · exact dropWhile_eq_self ht

/-- None of the marks is in front of what is left over. -/
theorem Inert.head_ne (ht : Inert marks t) (hleft : IsLeft t' t) (hmem : c ∈ marks)
    (hgap : isGap c = false) : t'.head? ≠ some c := by
  intro hhead
  have hself : skipGap t' = t' := dropWhile_eq_self (by rw [hhead]; rintro d ⟨⟩; exact hgap)
  refine ht.next c ?_ hmem
  rw [← hleft.skipGap_eq, hself, hhead]
  rfl

/-! ## Reading What Is Written -/

theorem readMark_self (c : Char) (t : List Char) : readMark c (c :: t) = some ((), t) :=
  if_pos rfl

theorem readMark_eq_none (h : t.head? ≠ some c) : readMark c t = none := by
  cases t with
  | nil => rfl
  | cons d t => exact if_neg fun heq => h (congrArg some heq)

theorem readNumber_text (hcs : NumberText n cs) (ht : ∀ c ∈ t.head?, c.isDigit = false) :
    readNumber (cs ++ t) = some (n, skipGap t) := by
  obtain @⟨gap, ds, gap', hgap, hne, hdigits, hle, hgap'⟩ := hcs
  obtain ⟨d, ds', hds⟩ := List.exists_cons_of_ne_nil hne
  have hfront : skipGap (gap ++ (ds ++ gap') ++ t) = ds ++ (gap' ++ t) := by
    rw [List.append_assoc, List.append_assoc]
    refine skipGap_run hgap ?_
    rw [hds]
    rintro c ⟨⟩
    have hd := hdigits d (hds ▸ List.mem_cons_self)
    cases hc : isGap d with
    | false => rfl
    | true => rw [isDigit_of_isGap hc] at hd; cases hd
  have hend : ∀ c ∈ (gap' ++ t).head?, c.isDigit = false := by
    cases gap' with
    | nil => exact ht
    | cons g gap' =>
      rintro c ⟨⟩
      exact isDigit_of_isGap (hgap' g List.mem_cons_self)
  simp only [readNumber, hfront, takeWhile_run hdigits hend, dropWhile_run hdigits hend,
    skipGap_append_of_all hgap']
  rw [if_neg (by simp [hne, hle])]

theorem readName_text (hcs : NameText name cs) (ht : ∀ c ∈ t.head?, c.isAlpha = false) :
    readName (cs ++ t) = some (name, skipGap t) := by
  obtain @⟨gap, _, gap', hgap, hne, hletters, hgap'⟩ := hcs
  obtain ⟨d, name', hname⟩ := List.exists_cons_of_ne_nil hne
  have hfront : skipGap (gap ++ (name ++ gap') ++ t) = name ++ (gap' ++ t) := by
    rw [List.append_assoc, List.append_assoc]
    refine skipGap_run hgap ?_
    rw [hname]
    rintro c ⟨⟩
    have hd := hletters d (hname ▸ List.mem_cons_self)
    cases hc : isGap d with
    | false => rfl
    | true => rw [isAlpha_of_isGap hc] at hd; cases hd
  have hend : ∀ c ∈ (gap' ++ t).head?, c.isAlpha = false := by
    cases gap' with
    | nil => exact ht
    | cons g gap' =>
      rintro c ⟨⟩
      exact isAlpha_of_isGap (hgap' g List.mem_cons_self)
  simp only [readName, hfront, takeWhile_run hletters hend, dropWhile_run hletters hend,
    skipGap_append_of_all hgap']
  rw [if_neg (by simp [hne])]

/-- Where no digit is, no number is read. -/
theorem readNumber_eq_none (h : ∀ c ∈ (skipGap cs).head?, c.isDigit = false) :
    readNumber cs = none := by
  have hnil : (skipGap cs).takeWhile Char.isDigit = [] := by
    cases hskip : skipGap cs with
    | nil => rfl
    | cons c more => exact List.takeWhile_cons_of_neg (by simp [h c (by rw [hskip]; rfl)])
  simp only [readNumber, hnil]
  rfl

/-- A name does not begin with a digit. -/
theorem readNumber_name (hcs : NameText name cs) (t : List Char) :
    readNumber (cs ++ t) = none := by
  obtain @⟨gap, _, gap', hgap, hne, hletters, -⟩ := hcs
  obtain ⟨d, name', rfl⟩ := List.exists_cons_of_ne_nil hne
  have hd := hletters d List.mem_cons_self
  refine readNumber_eq_none ?_
  rw [List.append_assoc, skipGap_append_of_all hgap, List.cons_append, List.cons_append]
  rw [skipGap, List.dropWhile_cons_of_neg]
  · rintro c ⟨⟩
    exact isDigit_of_isAlpha hd
  · intro hc
    rw [isAlpha_of_isGap hc] at hd
    cases hd

theorem readPair_eq_some {α : Type} {value : Reader α} {a b : α} (hfirst : value cs =
    some (a, '-' :: ds)) (hlast : value ds = some (b, rest)) :
    readPair value cs = some ((a, b), rest) := by
  simp only [readPair, hfirst, hlast, readMark_self, Option.bind_eq_bind, Option.bind_some,
    Option.pure_def]

theorem readPair_eq_none {α : Type} {value : Reader α}
    (h : ∀ a rest, value cs = some (a, rest) → rest.head? ≠ some '-') :
    readPair value cs = none := by
  unfold readPair
  cases hread : value cs with
  | none => rfl
  | some r =>
    simp only [Option.bind_eq_bind, Option.bind_some, readMark_eq_none (h r.1 r.2 hread)]
    rfl

/-- A text that begins with neither mark for all values. -/
theorem readRange_of_head (h : ∃ c ∈ cs.head?, isWordChar c = true) :
    readRange u cs = (((readPair readNumber cs).map fun r => (Range.span r.1.1 r.1.2, r.2))
      <|> ((readNumber cs).map fun r => (Range.point r.1, r.2))
      <|> ((readPair readName cs).map fun r => (Range.named r.1.1 r.1.2, r.2))) := by
  obtain ⟨c, hc, hword⟩ := h
  have hmark : ∀ m, isWordChar m = false → cs.head? ≠ some m := by
    rintro m hm heq
    rw [heq] at hc
    cases hc
    rw [hm] at hword
    cases hword
  have hstar : readMark '*' cs = none := readMark_eq_none (hmark '*' rfl)
  have hquestion : readMark '?' cs = none := readMark_eq_none (hmark '?' rfl)
  simp only [readRange, hstar, hquestion, Option.map_none, ite_self]
  rfl

theorem readRange_text (hcs : RangeText u range cs) (ht : Inert ['-'] t) :
    ∃ t', IsLeft t' t ∧ readRange u (cs ++ t) = some (range, t') := by
  have hdigit : ∀ c ∈ t.head?, c.isDigit = false := fun c hc => (ht.first c hc).1
  have halpha : ∀ c ∈ t.head?, c.isAlpha = false := fun c hc => (ht.first c hc).2
  have hhyphen : (skipGap t).head? ≠ some '-' :=
    ht.head_ne (Or.inr rfl) List.mem_cons_self (by decide)
  cases hcs with
  | star => exact ⟨t, Or.inl rfl, rfl⟩
  | question hallows =>
    refine ⟨t, Or.inl rfl, ?_⟩
    simp [readRange, readMark, hallows]
  | @span a b cs ds hfirst hlast =>
    refine ⟨skipGap t, Or.inr rfl, ?_⟩
    have hread : readNumber (cs ++ '-' :: ds ++ t) = some (a, '-' :: (ds ++ t)) := by
      rw [List.append_assoc, readNumber_text hfirst (by rintro c ⟨⟩; rfl)]
      rfl
    rw [readRange_of_head, readPair_eq_some hread (readNumber_text hlast hdigit)]
    · rfl
    · rw [List.append_assoc]
      exact head_append hfirst.head _
  | point hnumber =>
    refine ⟨skipGap t, Or.inr rfl, ?_⟩
    have hread := readNumber_text hnumber hdigit
    rw [readRange_of_head (head_append hnumber.head t), readPair_eq_none, hread]
    · rfl
    · rintro a rest heq
      rw [hread] at heq
      cases heq
      exact hhyphen
  | @named a b cs ds hfirst hlast =>
    refine ⟨skipGap t, Or.inr rfl, ?_⟩
    have hread : readName (cs ++ '-' :: ds ++ t) = some (a, '-' :: (ds ++ t)) := by
      rw [List.append_assoc, readName_text hfirst (by rintro c ⟨⟩; rfl)]
      rfl
    have hnumber : readNumber (cs ++ '-' :: ds ++ t) = none := by
      rw [List.append_assoc]
      exact readNumber_name hfirst _
    rw [readRange_of_head, readPair_eq_none (by rw [hnumber]; exact nofun), hnumber,
      readPair_eq_some hread (readName_text hlast halpha)]
    · rfl
    · rw [List.append_assoc]
      exact head_append hfirst.head _

/-- A name alone is not a range. -/
theorem readRange_name (hcs : NameText name cs) (ht : Inert ['-'] t) :
    readRange u (cs ++ t) = none := by
  have hnumber := readNumber_name hcs t
  have hname := readName_text hcs fun c hc => (ht.first c hc).2
  rw [readRange_of_head (head_append hcs.head t),
    readPair_eq_none (by rw [hnumber]; exact nofun), hnumber, readPair_eq_none]
  · rfl
  · rintro a rest heq
    rw [hname] at heq
    cases heq
    exact ht.head_ne (Or.inr rfl) List.mem_cons_self (by decide)

theorem readEvery_eq_none (h : ∀ range rest, readRange u cs = some (range, rest) →
    rest.head? ≠ some '/') : readEvery u cs = none := by
  unfold readEvery
  cases hread : readRange u cs with
  | none => rfl
  | some r =>
    simp only [Option.bind_eq_bind, Option.bind_some, readMark_eq_none (h r.1 r.2 hread)]
    rfl

theorem readItem_text (hcs : ItemText u item cs) (ht : Inert ['-', '/'] t) :
    ∃ t', IsLeft t' t ∧ readItem u (cs ++ t) = some (item, t') := by
  have hrangeEnd : Inert ['-'] t := ht.mono (by simp)
  cases hcs with
  | @every range step cs ds hrange hstep =>
    refine ⟨skipGap t, Or.inr rfl, ?_⟩
    obtain ⟨t', hleft, hread⟩ :=
      readRange_text hrange (inert_cons (c := '/') rfl rfl rfl (by decide) (ds ++ t))
    obtain rfl := hleft.eq_of_head (by rintro c ⟨⟩; rfl)
    have hnumber := readNumber_text hstep fun c hc => (ht.first c hc).1
    have hevery : readEvery u (cs ++ '/' :: ds ++ t) = some (.every range step, skipGap t) := by
      rw [List.append_assoc, List.cons_append]
      simp only [readEvery, hread, readMark_self, hnumber, Option.bind_eq_bind, Option.bind_some,
        Option.pure_def]
    rw [readItem, hevery]
    rfl
  | plain hrange =>
    obtain ⟨t', hleft, hread⟩ := readRange_text hrange hrangeEnd
    refine ⟨t', hleft, ?_⟩
    rw [readItem, readEvery_eq_none, hread]
    · rfl
    · rintro range rest heq
      rw [hread] at heq
      cases heq
      exact ht.head_ne hleft (by simp) (by decide)
  | name hname =>
    refine ⟨skipGap t, Or.inr rfl, ?_⟩
    have hrange := readRange_name (u := u) hname hrangeEnd
    rw [readItem, readEvery_eq_none (by rw [hrange]; exact nofun), hrange,
      readName_text hname fun c hc => (ht.first c hc).2]
    rfl

/-- Further items end an item as well as what follows a field does. -/
theorem MoreText.inert (hds : MoreText u items ds) (ht : Inert [',', '-', '/'] t) :
    Inert ['-', '/'] (ds ++ t) := by
  cases hds with
  | nil => exact ht.mono (by simp)
  | cons hitem hmore => exact inert_cons rfl rfl rfl (by decide) _

theorem MoreText.length_le (hds : MoreText u items ds) : items.length ≤ ds.length := by
  induction hds with
  | nil => exact Nat.le_refl 0
  | cons _ _ ih =>
    simp only [List.length_cons, List.length_append]
    omega

/-- Behind an item the further ones are read to their end. -/
theorem readMore_text (hds : MoreText u items ds) (ht : Inert [',', '-', '/'] t) {fuel : Nat}
    (hfuel : items.length ≤ fuel) {left : List Char} (hleft : IsLeft left (ds ++ t)) :
    ∃ t', IsLeft t' t ∧ readMore u fuel left = (items, t') := by
  induction hds generalizing fuel left with
  | nil =>
    refine ⟨left, hleft, ?_⟩
    cases fuel with
    | zero => rfl
    | succ fuel =>
      rw [readMore, readMark_eq_none (ht.head_ne hleft List.mem_cons_self (by decide))]
  | @cons item items cs ds hitem hmore ih =>
    obtain rfl := hleft.eq_of_head (by rintro c ⟨⟩; rfl)
    obtain ⟨fuel, rfl⟩ : ∃ k, fuel = k + 1 := ⟨fuel - 1, by simp at hfuel; omega⟩
    obtain ⟨rest, hrest, hread⟩ := readItem_text hitem (hmore.inert ht)
    obtain ⟨t', ht', hmoreRead⟩ := ih (by simpa using hfuel) hrest
    refine ⟨t', ht', ?_⟩
    rw [List.cons_append, List.append_assoc]
    simp only [readMore, readMark_self, hread, hmoreRead]

/-- A text of the grammar is read as its items, and the gap behind it is skipped. -/
theorem readField_text (hcs : FieldText u items cs) (ht : Inert [',', '-', '/'] t) :
    readField u (cs ++ t) = some (items, skipGap t) := by
  obtain @⟨item, items, gap, cs, ds, gap', hgap, hitem, hhead, hmore, hgap'⟩ := hcs
  have ht' : Inert [',', '-', '/'] (gap' ++ t) := by
    refine ⟨?_, by rw [skipGap_append_of_all hgap']; exact ht.next⟩
    cases gap' with
    | nil => exact ht.first
    | cons c gap' =>
      have hc := hgap' c List.mem_cons_self
      rintro d ⟨⟩
      exact ⟨isDigit_of_isGap hc, isAlpha_of_isGap hc⟩
  obtain ⟨rest, hrest, hread⟩ := readItem_text hitem (hmore.inert ht')
  have hfront : skipGap (gap ++ (cs ++ (ds ++ gap')) ++ t) = cs ++ (ds ++ (gap' ++ t)) := by
    simp only [List.append_assoc, hitem.skipGap_run hhead hgap]
  -- Each further item takes at least its comma.
  have hfuel : items.length ≤ rest.length := by
    cases hmore with
    | nil => exact Nat.zero_le _
    | cons hnext hmore' =>
      obtain rfl := hrest.eq_of_head (by rintro c ⟨⟩; rfl)
      have hle := (MoreText.cons hnext hmore').length_le
      rw [List.length_append]
      omega
  obtain ⟨t', hleft, hmoreRead⟩ := readMore_text hmore ht' hfuel hrest
  simp only [readField, hfront, hread, hmoreRead, Option.bind_eq_bind, Option.bind_some,
    Option.pure_def, hleft.skipGap_eq, skipGap_append_of_all hgap']

/-! ## Only What Is Written Is Read -/

theorem exists_numberText (h : readNumber cs = some (n, rest)) :
    ∃ text, NumberText n text ∧ cs = text ++ rest := by
  unfold readNumber at h
  dsimp only at h
  split at h
  · cases h
  · next hnot =>
    cases h
    simp only [Bool.or_eq_true, List.isEmpty_iff, decide_eq_true_eq, not_or, Nat.not_lt] at hnot
    refine ⟨_, .digits (isGap_takeWhile cs) hnot.1 (fun _ => List.mem_takeWhile_imp) hnot.2
      (isGap_takeWhile ((skipGap cs).dropWhile Char.isDigit)), ?_⟩
    rw [List.append_assoc, List.append_assoc, takeWhile_skipGap, List.takeWhile_append_dropWhile,
      takeWhile_skipGap]

theorem exists_nameText (h : readName cs = some (name, rest)) :
    ∃ text, NameText name text ∧ cs = text ++ rest := by
  unfold readName at h
  dsimp only at h
  split at h
  · cases h
  · next hnot =>
    cases h
    refine ⟨_, .letters (isGap_takeWhile cs) (by simpa using hnot)
      (fun _ => List.mem_takeWhile_imp)
      (isGap_takeWhile ((skipGap cs).dropWhile Char.isAlpha)), ?_⟩
    rw [List.append_assoc, List.append_assoc, takeWhile_skipGap, List.takeWhile_append_dropWhile,
      takeWhile_skipGap]

theorem eq_of_readMark (h : readMark c cs = some ((), rest)) : cs = c :: rest := by
  cases cs with
  | nil => cases h
  | cons d cs =>
    rw [readMark] at h
    split at h
    · next heq =>
      cases h
      rw [heq]
    · cases h

/-- A pair is two values with a hyphen between them. -/
theorem exists_pair {α : Type} {value : Reader α} {a b : α}
    (h : readPair value cs = some ((a, b), rest)) :
    ∃ more, value cs = some (a, '-' :: more) ∧ value more = some (b, rest) := by
  obtain ⟨⟨a, left⟩, hfirst, h⟩ := Option.bind_eq_some_iff.mp h
  obtain ⟨⟨⟨⟩, more⟩, hmark, h⟩ := Option.bind_eq_some_iff.mp h
  obtain ⟨⟨b, rest⟩, hlast, h⟩ := Option.bind_eq_some_iff.mp h
  cases h
  obtain rfl := eq_of_readMark hmark
  exact ⟨more, hfirst, hlast⟩

theorem exists_rangeText (h : readRange u cs = some (range, rest)) :
    ∃ text, RangeText u range text ∧ cs = text ++ rest := by
  simp only [readRange, Option.orElse_eq_some, Option.map_eq_some_iff] at h
  obtain ⟨⟨⟨⟩, rest⟩, hmark, ⟨⟩⟩ | ⟨-, h⟩ := h
  · exact ⟨['*'], .star, eq_of_readMark hmark⟩
  obtain hquestion | ⟨-, h⟩ := h
  · split at hquestion
    · next hallows =>
      obtain ⟨⟨⟨⟩, rest⟩, hmark, ⟨⟩⟩ := Option.map_eq_some_iff.mp hquestion
      exact ⟨['?'], .question hallows, eq_of_readMark hmark⟩
    · cases hquestion
  obtain ⟨⟨⟨a, b⟩, rest⟩, hpair, ⟨⟩⟩ | ⟨-, h⟩ := h
  · obtain ⟨more, hfirst, hlast⟩ := exists_pair hpair
    obtain ⟨first, hfirstText, rfl⟩ := exists_numberText hfirst
    obtain ⟨last, hlastText, rfl⟩ := exists_numberText hlast
    exact ⟨_, .span hfirstText hlastText, by rw [List.append_assoc, List.cons_append]⟩
  obtain ⟨⟨n, rest⟩, hnumber, ⟨⟩⟩ | ⟨-, ⟨⟨⟨a, b⟩, rest⟩, hpair, ⟨⟩⟩⟩ := h
  · obtain ⟨text, htext, rfl⟩ := exists_numberText hnumber
    exact ⟨text, .point htext, rfl⟩
  · obtain ⟨more, hfirst, hlast⟩ := exists_pair hpair
    obtain ⟨first, hfirstText, rfl⟩ := exists_nameText hfirst
    obtain ⟨last, hlastText, rfl⟩ := exists_nameText hlast
    exact ⟨_, .named hfirstText hlastText, by rw [List.append_assoc, List.cons_append]⟩

theorem exists_everyText (h : readEvery u cs = some (item, rest)) :
    ∃ text, ItemText u item text ∧ cs = text ++ rest := by
  obtain ⟨⟨range, left⟩, hrange, h⟩ := Option.bind_eq_some_iff.mp h
  obtain ⟨⟨⟨⟩, more⟩, hmark, h⟩ := Option.bind_eq_some_iff.mp h
  obtain ⟨⟨step, rest⟩, hstep, h⟩ := Option.bind_eq_some_iff.mp h
  cases h
  obtain rfl := eq_of_readMark hmark
  obtain ⟨first, hrangeText, rfl⟩ := exists_rangeText hrange
  obtain ⟨last, hstepText, rfl⟩ := exists_numberText hstep
  exact ⟨_, .every hrangeText hstepText, by rw [List.append_assoc, List.cons_append]⟩

theorem exists_itemText (h : readItem u cs = some (item, rest)) :
    ∃ text, ItemText u item text ∧ cs = text ++ rest := by
  simp only [readItem, Option.orElse_eq_some, Option.map_eq_some_iff] at h
  obtain hevery | ⟨-, ⟨⟨range, rest⟩, hrange, ⟨⟩⟩ | ⟨-, ⟨⟨name, rest⟩, hname, ⟨⟩⟩⟩⟩ := h
  · exact exists_everyText hevery
  · obtain ⟨text, htext, rfl⟩ := exists_rangeText hrange
    exact ⟨text, .plain htext, rfl⟩
  · obtain ⟨text, htext, rfl⟩ := exists_nameText hname
    exact ⟨text, .name htext, rfl⟩

/-- The further items that are read and what is left over make up the text. -/
theorem exists_moreText (fuel : Nat) (cs : List Char) :
    ∃ text, MoreText u (readMore u fuel cs).1 text ∧ cs = text ++ (readMore u fuel cs).2 := by
  induction fuel generalizing cs with
  | zero => exact ⟨[], .nil, rfl⟩
  | succ fuel ih =>
    rw [readMore]
    split
    · exact ⟨[], .nil, rfl⟩
    · next afterComma hmark =>
      obtain rfl := eq_of_readMark hmark
      split
      · exact ⟨[], .nil, rfl⟩
      · next item rest hitem =>
        obtain ⟨first, hfirst, rfl⟩ := exists_itemText hitem
        obtain ⟨more, hmore, hrest⟩ := ih rest
        refine ⟨_, .cons hfirst hmore, ?_⟩
        rw [List.cons_append, List.append_assoc, ← hrest]

/-- All that is read is a text of the grammar, and with what is left over it is the whole. -/
theorem exists_fieldText (h : readField u cs = some (items, rest)) :
    ∃ text, FieldText u items text ∧ cs = text ++ rest := by
  obtain ⟨⟨item, left⟩, hread, h⟩ := Option.bind_eq_some_iff.mp h
  cases h
  obtain ⟨first, hitem, hskip⟩ := exists_itemText hread
  obtain ⟨more, hmore, hleft⟩ := exists_moreText (u := u) left.length left
  have hhead : ∀ c ∈ first.head?, isGap c = false := by
    intro c hc
    refine head_dropWhile isGap cs c ?_
    change c ∈ (skipGap cs).head?
    rw [hskip]
    exact List.mem_head?_append_of_mem_head? hc
  refine ⟨_, .items (isGap_takeWhile cs) hitem hhead hmore
    (isGap_takeWhile (readMore u left.length left).2), ?_⟩
  simp only [List.append_assoc, takeWhile_skipGap, ← hleft, ← hskip]

end EdgeSync.Schedule
