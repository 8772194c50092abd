import EdgeSync.Json.Record
import EdgeSync.Proofs.Json.Lexemes

/-!
# Readers That Restore

A reader restores a value if it gives the value back from each of its spellings, after any
blanks and whatever follows. Readers built from restoring readers restore what is built from
their values. Of an object this needs that no key comes twice and that no needed field is
left out; the order of its members does not matter.

## Main definitions

- `Reader.Restores`: a reader gives a value back
- `Shape.Fills`: what the members of an object make of a record

## Main results

- `Reader.restores_list`: lists
- `Shape.restores_object`: records
- `Reader.readAll_of_restores`: whole documents
-/

namespace EdgeSync.Json

open EdgeSync.Text

/-! ## What Follows a Value -/

theorem apart_of_isGap {g : Glyph} (h : isGap g = true) (d : Document) : Apart (g :: d) := by
  cases g with
  | stray byte => cases h
  | char c =>
    simp only [isGap, Bool.or_eq_true, beq_iff_eq, or_assoc] at h
    rcases h with rfl | rfl | rfl | rfl
    · exact ⟨rfl, by decide, rfl⟩
    · exact ⟨rfl, by decide, rfl⟩
    · exact ⟨rfl, by decide, rfl⟩
    · exact ⟨rfl, by decide, rfl⟩

/-- Blanks keep apart. -/
theorem apart_gap {gap : List Char} (hgap : IsGap gap) {d : Document} (hd : Apart d) :
    Apart (glyphs gap ++ d) := by
  cases gap with
  | nil => exact hd
  | cons c gap => exact apart_of_isGap (hgap c List.mem_cons_self) _

theorem apart_lead {lead : List Char} (hlead : Lead false lead) (d : Document) :
    Apart (glyphs lead ++ d) := by
  cases hlead with
  | further hbefore hgap =>
    rw [glyphs_append, List.append_assoc]
    exact apart_gap hbefore ⟨rfl, by decide, rfl⟩

theorem SpellsItems.apart {items : List Value} {cs : List Char} (h : SpellsItems false items cs)
    (d : Document) : Apart (glyphs cs ++ d) := by
  cases h with
  | close _ hgap =>
    rw [glyphs_append, List.append_assoc]
    exact apart_gap hgap ⟨rfl, by decide, rfl⟩
  | item hlead hitem hitems =>
    rw [glyphs_append, List.append_assoc]
    exact apart_lead hlead _

theorem SpellsMembers.apart {members : List (String × Value)} {cs : List Char}
    (h : SpellsMembers false members cs) (d : Document) : Apart (glyphs cs ++ d) := by
  cases h with
  | close _ hgap =>
    rw [glyphs_append, List.append_assoc]
    exact apart_gap hgap ⟨rfl, by decide, rfl⟩
  | member key hlead hbefore hgap hvalue hmembers =>
    rw [glyphs_append, List.append_assoc]
    exact apart_lead hlead _

/-! ## Simple Values -/

namespace Reader

variable {α β : Type}

/-- A reader gives a back from every spelling of v, after any blanks and whatever follows. -/
def Restores (reader : Reader α) (v : Value) (a : α) : Prop :=
  ∀ ⦃gap cs : List Char⦄ ⦃rest : Document⦄, IsGap gap → Spells v cs → Apart rest →
    reader.run (glyphs gap ++ (glyphs cs ++ rest)) = .ok (a, rest)

/-- The blanks before a lexeme do not matter. -/
theorem skipGap_lexeme {gap : List Char} (hgap : IsGap gap) {c : Char}
    (hc : isGap (.char c) = false) (cs : List Char) (rest : Document) :
    skipGap (glyphs gap ++ (glyphs (c :: cs) ++ rest)) = .char c :: (glyphs cs ++ rest) := by
  rw [skipGap_gap hgap]
  exact skipGap_of_not_gap hc _

theorem restores_text (s : String) : text.Restores (.text s) s := by
  intro gap cs rest hgap hcs hrest
  cases hcs
  have hquote : isGap (.char '"') = false := rfl
  simp only [text, ofGlyph, Value.writeText, List.cons_append, skipGap_lexeme hgap hquote, if_true]
  exact scanText_writeText s rest

theorem scanWord_glyphs (cs : List Char) (d : Document) : scanWord cs (glyphs cs ++ d) = .ok d := by
  induction cs with
  | nil => rfl
  | cons c cs ih =>
    rw [glyphs_cons, List.cons_append, scanWord, if_pos rfl]
    exact ih

theorem restores_flag (value : Bool) : flag.Restores (.flag value) value := by
  intro gap cs rest hgap hcs hrest
  cases hcs
  cases value with
  | true =>
    have hletter : isGap (.char 't') = false := rfl
    simp only [flag, ofGlyph, Value.writeFlag, skipGap_lexeme hgap hletter, if_true,
      scanWord_glyphs]
    rfl
  | false =>
    have hletter : isGap (.char 'f') = false := rfl
    have hother : Glyph.char 'f' ≠ .char 't' := by decide
    simp only [flag, ofGlyph, Value.writeFlag, Bool.false_eq_true, if_false,
      skipGap_lexeme hgap hletter, if_neg hother, if_true, scanWord_glyphs]
    rfl

theorem restores_natural {n : Nat} (h : n ≤ maxNatural) : natural.Restores (.natural n) n := by
  intro gap cs rest hgap hcs hrest
  obtain ⟨c, more, hcons, hnotGap, -⟩ := hcs.opening
  obtain rfl : cs = Nat.toDigits 10 n := by
    cases hcs
    rfl
  have hdigit : c.isDigit = true := by
    refine Nat.isDigit_of_mem_toDigits (b := 10) (n := n) (by decide) (by decide) ?_
    rw [hcons]
    exact List.mem_cons_self
  have hisDigit : isDigit (.char c) = true := by simp [isDigit, digit?_of_isDigit hdigit]
  have hminus : Glyph.char c ≠ .char '-' := by
    intro hc
    rw [Glyph.char.inj hc] at hdigit
    cases hdigit
  -- What begins with a digit is scanned as a number without a sign.
  have hscan := scanNumber_toDigits h hrest
  rw [hcons] at hscan ⊢
  rw [glyphs_cons, List.cons_append] at hscan
  simp only [natural, ofGlyph, skipGap_lexeme hgap hnotGap, if_neg hminus, hisDigit, if_true, hscan,
    toNatural]

/-! ## Readers From Readers -/

theorem Restores.map {reader : Reader α} {v : Value} {a : α} (h : reader.Restores v a)
    (f : α → β) : (reader.map f).Restores v (f a) := by
  intro gap cs rest hgap hcs hrest
  simp only [Reader.map, h hgap hcs hrest]
  rfl

/-- A reader that takes `null` for something takes all else as it is. -/
theorem Restores.orNull {reader : Reader α} {v : Value} {a : α} (h : reader.Restores v a)
    (hv : v ≠ .null) (absent : α) : (reader.orNull absent).Restores v a := by
  intro gap cs rest hgap hcs hrest
  have hrun := h isGap_nil hcs hrest
  -- Of all values only null begins with its first letter.
  obtain ⟨c, more, rfl, hnotGap, -, -, hnull⟩ := hcs.opening
  have hletter : Glyph.char c ≠ .char 'n' := by
    intro hn
    exact hv (hnull (Glyph.char.inj hn))
  simp only [Reader.orNull, skipGap_lexeme hgap hnotGap, if_neg hletter]
  exact hrun

/-! ## Lists -/

theorem nextItem_close (isFirst : Bool) {gap : List Char} (hgap : IsGap gap) (d : Document) :
    nextItem isFirst (glyphs (gap ++ [']']) ++ d) = .ok (.stop d) := by
  have hbracket : isGap (.char ']') = false := rfl
  rw [glyphs_append, List.append_assoc, nextItem, skipGap_lexeme hgap hbracket]
  exact if_pos rfl

/-- An item begins with the first glyph behind its lead, unless that closes the list. -/
theorem nextItem_lead {isFirst : Bool} {lead : List Char} (hlead : Lead isFirst lead) {c : Char}
    (hnotGap : isGap (.char c) = false) (hne : c ≠ ']') (cs : List Char) (d : Document) :
    nextItem isFirst (glyphs lead ++ (glyphs (c :: cs) ++ d)) =
      .ok (.item (glyphs (c :: cs) ++ d)) := by
  have hnotClosing : Glyph.char c ≠ .char ']' := fun h => hne (Glyph.char.inj h)
  cases hlead with
  | first hgap =>
    simp only [nextItem, skipGap_lexeme hgap hnotGap, if_neg hnotClosing, if_true]
    rfl
  | further hbefore hgap =>
    have hcomma : isGap (.char ',') = false := rfl
    have hcommaNotClosing : Glyph.char ',' ≠ .char ']' := by decide
    simp only [nextItem, glyphs_append, List.append_assoc, skipGap_lexeme hbefore hcomma,
      if_neg hcommaNotClosing, Bool.false_eq_true, if_false, if_true,
      skipGap_lexeme hgap hnotGap, if_neg hnotClosing]
    rfl

theorem nextItem_item {isFirst : Bool} {lead : List Char} (hlead : Lead isFirst lead) {v : Value}
    {cs : List Char} (hcs : Spells v cs) (d : Document) :
    nextItem isFirst (glyphs lead ++ (glyphs cs ++ d)) = .ok (.item (glyphs cs ++ d)) := by
  obtain ⟨c, more, rfl, hnotGap, hne, -⟩ := hcs.opening
  exact nextItem_lead hlead hnotGap hne more d

theorem readItems_stop (reader : Reader α) {isFirst : Bool} {d rest : Document}
    (h : nextItem isFirst d = .ok (.stop rest)) :
    readItems reader isFirst d = .ok ([], rest) := by
  rw [readItems]
  split
  · next hn => cases h.symm.trans hn
  · next hn =>
    cases h.symm.trans hn
    rfl
  · next hn => cases h.symm.trans hn

theorem readItems_item {reader : Reader α} {isFirst : Bool} {d d' rest : Document} {a : α}
    (h : nextItem isFirst d = .ok (.item d')) (hrun : reader.run d' = .ok (a, rest)) :
    readItems reader isFirst d =
      (readItems reader false rest).map fun p => (a :: p.1, p.2) := by
  rw [readItems]
  split
  · next hn => cases h.symm.trans hn
  · next hn => cases h.symm.trans hn
  · next hn =>
    cases h.symm.trans hn
    split
    · next hr => cases hrun.symm.trans hr
    · next hr =>
      cases hrun.symm.trans hr
      cases readItems reader false rest <;> rfl

theorem readItems_spells {reader : Reader α} {write : α → Value} {as : List α}
    (h : ∀ a ∈ as, reader.Restores (write a) a) {isFirst : Bool} {cs : List Char}
    (hcs : SpellsItems isFirst (as.map write) cs) (d : Document) :
    readItems reader isFirst (glyphs cs ++ d) = .ok (as, d) := by
  induction as generalizing isFirst cs with
  | nil =>
    cases hcs with
    | close _ hgap => exact readItems_stop reader (nextItem_close isFirst hgap d)
  | cons a as ih =>
    rw [List.forall_mem_cons] at h
    cases hcs with
    | @item _ lead cs more _ _ hlead hitem hitems =>
      -- The item is kept apart from the rest, whatever that is.
      have hnext := nextItem_item hlead hitem (glyphs more ++ d)
      have hrun := h.1 isGap_nil hitem (hitems.apart d)
      rw [glyphs_append, glyphs_append, List.append_assoc, List.append_assoc,
        readItems_item hnext hrun, ih h.2 hitems]
      rfl

/-- A reader of lists restores a list if that of its items restores them. -/
theorem restores_list {reader : Reader α} {write : α → Value} {as : List α}
    (h : ∀ a ∈ as, reader.Restores (write a) a) :
    (list reader).Restores (.list (as.map write)) as := by
  intro gap cs rest hgap hcs hrest
  cases hcs with
  | list hitems =>
    have hbracket : isGap (.char '[') = false := rfl
    simp only [list, ofGlyph, skipGap_lexeme hgap hbracket, if_true]
    exact readItems_spells h hitems rest

/-! ## Whole Documents -/

/-- A value that is spelled alone in a document is given back. -/
theorem readAll_of_restores {reader : Reader α} {v : Value} {a : α} (h : reader.Restores v a)
    {cs : List Char} (hcs : Spells v cs) :
    reader.readAll (Document.ofString (String.ofList cs)) = .ok a := by
  have hapart : Apart [] := trivial
  have hrun := h isGap_nil hcs hapart
  have hdocument : Document.ofString (String.ofList cs) = glyphs cs := by
    rw [Document.ofString, String.toList_ofList]
    rfl
  rw [glyphs_nil, List.nil_append, List.append_nil] at hrun
  rw [readAll, hdocument, hrun]
  rfl

end Reader

/-! ## Records -/

namespace Shape

variable {σ : Type}

/-- What the members written for some fields make of a record: each field is written in its
place, or is left out if it need not be there. -/
inductive Fills : List (Field σ) → List (String × Value) → σ → σ → Prop where
  | done (a : σ) : Fills [] [] a a
  | member {field : Field σ} {fields : List (Field σ)} {members : List (String × Value)}
      {value : Value} {change : σ → σ} {a b : σ} (hread : field.reader.Restores value change)
      (hmembers : Fills fields members (change a) b) :
      Fills (field :: fields) ((field.name, value) :: members) a b
  | omitted {field : Field σ} {fields : List (Field σ)} {members : List (String × Value)}
      {a b : σ} (hoptional : field.required = false) (hmembers : Fills fields members a b) :
      Fills (field :: fields) members a b

theorem Fills.optional {α : Type} {name : String} {reader : Reader α} {set : α → σ → σ}
    {value : Value} {v : α} {a b : σ} {fields : List (Field σ)} {members : List (String × Value)}
    (hread : reader.Restores value v) (hmembers : Fills fields members (set v a) b) :
    Fills (.optional name reader set :: fields) ((name, value) :: members) a b := by
  have hfield : (Field.optional name reader set).reader.Restores value (set v) := hread.map set
  exact .member hfield hmembers

theorem Fills.needed {α : Type} {name : String} {reader : Reader α} {set : α → σ → σ}
    {value : Value} {v : α} {a b : σ} {fields : List (Field σ)} {members : List (String × Value)}
    (hread : reader.Restores value v) (hmembers : Fills fields members (set v a) b) :
    Fills (.needed name reader set :: fields) ((name, value) :: members) a b := by
  have hfield : (Field.needed name reader set).reader.Restores value (set v) := hread.map set
  exact .member hfield hmembers

theorem memberKey_writeText (key : String) (d : Document) :
    memberKey (.char '"') (glyphs (key.toList.flatMap Value.escapeChar ++ ['"']) ++ d) =
      .ok (.member key d) := by
  rw [memberKey, if_pos rfl, scanText_writeText]
  rfl

theorem nextMember_close (isFirst : Bool) {gap : List Char} (hgap : IsGap gap) (d : Document) :
    nextMember isFirst (glyphs (gap ++ ['\x7d']) ++ d) = .ok (.stop d) := by
  have hbrace : isGap (.char '\x7d') = false := rfl
  rw [glyphs_append, List.append_assoc, nextMember, Reader.skipGap_lexeme hgap hbrace]
  exact if_pos rfl

/-- A member begins with its key behind its lead. -/
theorem nextMember_lead {isFirst : Bool} {lead : List Char} (hlead : Lead isFirst lead)
    (cs : List Char) (d : Document) :
    nextMember isFirst (glyphs lead ++ (glyphs ('"' :: cs) ++ d)) =
      memberKey (.char '"') (glyphs cs ++ d) := by
  have hquote : isGap (.char '"') = false := rfl
  have hnotClosing : Glyph.char '"' ≠ .char '\x7d' := by decide
  cases hlead with
  | first hgap =>
    simp only [nextMember, Reader.skipGap_lexeme hgap hquote, if_neg hnotClosing, if_true]
  | further hbefore hgap =>
    have hcomma : isGap (.char ',') = false := rfl
    have hcommaNotClosing : Glyph.char ',' ≠ .char '\x7d' := by decide
    rw [glyphs_append, List.append_assoc]
    simp only [nextMember, Reader.skipGap_lexeme hbefore hcomma, if_neg hcommaNotClosing,
      Bool.false_eq_true, if_false, if_true, Reader.skipGap_lexeme hgap hquote,
      if_neg hnotClosing]

theorem nextMember_key {isFirst : Bool} {lead : List Char} (hlead : Lead isFirst lead)
    (key : String) (d : Document) :
    nextMember isFirst (glyphs lead ++ (glyphs (Value.writeText key) ++ d)) =
      .ok (.member key d) := by
  rw [Value.writeText, List.cons_append, nextMember_lead hlead]
  exact memberKey_writeText key d

theorem skipColon_gap {before : List Char} (hbefore : IsGap before) (cs : List Char)
    (d : Document) : skipColon (glyphs (before ++ ':' :: cs) ++ d) = .ok (glyphs cs ++ d) := by
  have hcolon : isGap (.char ':') = false := rfl
  rw [glyphs_append, List.append_assoc, skipColon, Reader.skipGap_lexeme hbefore hcolon]
  exact if_pos rfl

theorem readMembers_stop (s : Shape σ) {isFirst : Bool} (seen : List String) (a : σ)
    {d rest : Document} (h : nextMember isFirst d = .ok (.stop rest)) :
    readMembers s isFirst seen a d = .ok (a, seen, rest) := by
  rw [readMembers]
  split
  · next hn => cases h.symm.trans hn
  · next hn =>
    cases h.symm.trans hn
    rfl
  · next hn => cases h.symm.trans hn

theorem readMembers_member {s : Shape σ} {isFirst : Bool} {seen : List String} {a : σ}
    {d afterKey atValue rest : Document} {key : String} {field : Field σ} {change : σ → σ}
    (h : nextMember isFirst d = .ok (.member key afterKey)) (hfield : s.field? key = some field)
    (hnew : key ∉ seen) (hcolon : skipColon afterKey = .ok atValue)
    (hrun : field.reader.run atValue = .ok (change, rest)) :
    readMembers s isFirst seen a d = readMembers s false (key :: seen) (change a) rest := by
  rw [readMembers]
  split
  · next hn => cases h.symm.trans hn
  · next hn => cases h.symm.trans hn
  · next hn =>
    cases h.symm.trans hn
    split
    · next hf => cases hfield.symm.trans hf
    · next hf =>
      cases hfield.symm.trans hf
      have hnotSeen : ¬ seen.contains key = true := by simpa using hnew
      rw [if_neg hnotSeen]
      split
      · next hc => cases hcolon.symm.trans hc
      · next hc =>
        cases hcolon.symm.trans hc
        split
        · next hr => cases hrun.symm.trans hr
        · next hr =>
          cases hrun.symm.trans hr
          rfl

/-- A field is found by its name if no two fields have the same. -/
theorem field?_of_mem {s : Shape σ} (hnames : (s.fields.map Field.name).Nodup) {field : Field σ}
    (h : field ∈ s.fields) : s.field? field.name = some field := by
  unfold field?
  generalize s.fields = fields at hnames h
  induction fields with
  | nil => cases h
  | cons first fields ih =>
    rw [List.map_cons, List.nodup_cons] at hnames
    rcases List.mem_cons.mp h with rfl | hmem
    · exact List.find?_cons_of_pos (beq_self_eq_true _)
    · have hne : first.name ≠ field.name := fun heq =>
        hnames.1 (heq ▸ List.mem_map_of_mem hmem)
      rw [List.find?_cons_of_neg (by simpa using hne)]
      exact ih hnames.2 hmem

/-- The members that are written for some fields are read one after the other, and after them
no needed one of these fields is missing. -/
theorem readMembers_fills {s : Shape σ} (hnames : (s.fields.map Field.name).Nodup)
    {fields : List (Field σ)} {members : List (String × Value)} {a b : σ}
    (h : Fills fields members a b) (hfields : fields.Sublist s.fields) {seen : List String}
    (hnew : ∀ field ∈ fields, field.name ∉ seen) {isFirst : Bool} {cs : List Char}
    (hcs : SpellsMembers isFirst members cs) (d : Document) :
    ∃ seen', readMembers s isFirst seen a (glyphs cs ++ d) = .ok (b, seen', d) ∧
      (∀ name ∈ seen, name ∈ seen') ∧
      ∀ field ∈ fields, field.required = true → field.name ∈ seen' := by
  -- By induction on the fields that are left, none of which has been seen.
  induction h generalizing seen isFirst cs with
  | done a =>
    cases hcs with
    | close _ hgap =>
      exact ⟨seen, readMembers_stop s seen a (nextMember_close isFirst hgap d), fun _ h => h, nofun⟩
  | @member field fields members value change a b hread hmembers ih =>
    -- The fields after this one have other names, so it may count as seen.
    have hothers : ∀ other ∈ fields, other.name ∉ field.name :: seen := by
      intro other hother hmem
      rcases List.mem_cons.mp hmem with heq | hmem
      · have hnodup := hnames.sublist (hfields.map Field.name)
        rw [List.map_cons, List.nodup_cons] at hnodup
        exact hnodup.1 (heq ▸ List.mem_map_of_mem hother)
      · exact hnew other (List.mem_cons_of_mem _ hother) hmem
    cases hcs with
    | @member _ _ lead before gap cs more _ _ hlead hbefore hgap hvalue hmore =>
      obtain ⟨seen', hrest, hseen, hneeded⟩ :=
        ih (List.sublist_of_cons_sublist hfields) hothers hmore
      have hrun := hread hgap hvalue (hmore.apart d)
      have hcolon := skipColon_gap hbefore (gap ++ (cs ++ more)) d
      have hkey := nextMember_key hlead field.name
        (glyphs (before ++ ':' :: (gap ++ (cs ++ more))) ++ d)
      have hfield := field?_of_mem hnames (hfields.subset List.mem_cons_self)
      have hstep := readMembers_member (a := a) hkey hfield (hnew field List.mem_cons_self)
        hcolon (by simpa using hrun)
      refine ⟨seen', ?_, ?_, ?_⟩
      · rw [glyphs_append, glyphs_append, List.append_assoc, List.append_assoc]
        exact hstep.trans hrest
      · exact fun name hname => hseen name (List.mem_cons_of_mem _ hname)
      · intro other hother hrequired
        rcases List.mem_cons.mp hother with rfl | hother
        · exact hseen _ List.mem_cons_self
        · exact hneeded other hother hrequired
  | @omitted field fields members a b hoptional hmembers ih =>
    -- Nothing is read for the field; it may stay unseen as it is not needed.
    obtain ⟨seen', hrest, hseen, hneeded⟩ := ih (List.sublist_of_cons_sublist hfields)
      (fun other hother => hnew other (List.mem_cons_of_mem _ hother)) hcs
    refine ⟨seen', hrest, hseen, ?_⟩
    intro other hother hrequired
    rcases List.mem_cons.mp hother with rfl | hother
    · rw [hoptional] at hrequired
      cases hrequired
    · exact hneeded other hother hrequired

/-- A reader of records restores what is written of its fields. -/
theorem restores_object {s : Shape σ} (hnames : (s.fields.map Field.name).Nodup)
    {members : List (String × Value)} {start a : σ} (h : Fills s.fields members start a) :
    (s.reader start).Restores (.object members) a := by
  intro gap cs rest hgap hcs hrest
  cases hcs with
  | object hmembers =>
    have hbrace : isGap (.char '\x7b') = false := rfl
    obtain ⟨seen, hrun, -, hneeded⟩ :=
      readMembers_fills hnames h (List.Sublist.refl _) (fun _ _ => List.not_mem_nil) hmembers rest
    -- All needed fields have been seen, so the record is complete.
    have hcomplete : s.firstMissing? seen = none := by
      rw [firstMissing?, Option.map_eq_none_iff, List.find?_eq_none]
      intro field hfield hmissing
      rw [Bool.and_eq_true, Bool.not_eq_true'] at hmissing
      simpa [hneeded field hfield hmissing.1] using hmissing.2
    simp only [reader, Reader.ofGlyph, Reader.skipGap_lexeme hgap hbrace, if_true, hrun, hcomplete]

end Shape

end EdgeSync.Json
