import EdgeSync.Proofs.Json.Skipping
import Mathlib.Data.List.Forall2

/-!
# What Readers Take from Trees

A reader looks at characters, but what it takes depends on the tree alone that they write. The
values that a reader takes are therefore a relation between trees and values, and for readers
that are built from readers the relation is built from theirs: for a list item by item, for a
record member by member in the order in which they stand, or field by field.

## Main definitions

- `Reader.Takes`: a value is taken from a tree, however the tree is written
- `Reader.Makes`: the values taken from trees are those in a relation
- `Reader.Steady`: what is taken from one writing of a tree is taken from all
- `Shape.TakesMembers`, `Shape.TakesFields`: what members and items make of a record

## Main results

- `Reader.makes_list`, `Reader.makes_orNull`, `Shape.makes_record`: readers from readers
- `Reader.Steady.readAll_iff`: whole documents
-/

namespace EdgeSync.Json

open EdgeSync.Text

namespace Tree

variable {t : Tree}

/-! ## Trees With a Given Opening -/

/-- What the first character tells of a tree. -/
structure Told (t : Tree) (c : Char) : Prop where
  null : c = 'n' → t = .null
  yes : c = 't' → t = .flag true
  no : c = 'f' → t = .flag false
  text : c = '"' → ∃ body, t = .text body
  list : c = '[' → ∃ items, t = .list items
  object : c = '\x7b' → ∃ members, t = .object members

theorem Opens.told {c : Char} (h : t.Opens c) : t.Told c := by
  cases t with
  | flag value => cases value <;> cases h <;> constructor <;> simp
  | number _ => constructor <;> (rintro rfl; simp [Opens] at h)
  | _ => cases h; constructor <;> simp

end Tree

/-! ## Readers and Trees -/

namespace Reader

variable {α β : Type} {reader : Reader α} {R : Tree → α → Prop} {t : Tree} {a : α}
  {gap cs : List Char} {c : Char} {rest d : Document} {isFirst : Bool}

/-- A reader takes a value from a tree, however the tree is written and whatever follows. -/
def Takes (reader : Reader α) (t : Tree) (a : α) : Prop :=
  ∀ ⦃gap cs : List Char⦄ ⦃rest : Document⦄, IsGap gap → t.Writes cs → Apart rest →
    reader.run (glyphs gap ++ (glyphs cs ++ rest)) = .ok (a, rest)

/-- The values that a reader takes from trees are those in a relation. -/
def Makes (reader : Reader α) (R : Tree → α → Prop) : Prop :=
  ∀ ⦃t : Tree⦄ ⦃gap cs : List Char⦄ ⦃rest : Document⦄, IsGap gap → t.Writes cs → Apart rest →
    ∀ a r, reader.run (glyphs gap ++ (glyphs cs ++ rest)) = .ok (a, r) ↔ R t a ∧ r = rest

/-- What a reader takes from one writing of a tree it takes from all. -/
def Steady (reader : Reader α) : Prop :=
  reader.Makes reader.Takes

theorem Makes.takes_iff (h : reader.Makes R) : reader.Takes t a ↔ R t a := by
  constructor
  · intro htakes
    -- The tree can be written, so taking a value from all its writings is no empty promise.
    have hapart : Apart [] := trivial
    exact ((h isGap_nil t.writes_write hapart a []).mp (htakes isGap_nil t.writes_write hapart)).1
  · intro ha gap cs rest hgap hcs hrest
    exact (h hgap hcs hrest a rest).mpr ⟨ha, rfl⟩

theorem Makes.steady (h : reader.Makes R) : reader.Steady := by
  intro t gap cs rest hgap hcs hrest a r
  rw [h hgap hcs hrest, h.takes_iff]

/-- No other value is taken from the same tree. -/
theorem Takes.unique {b : α} (ha : reader.Takes t a) (hb : reader.Takes t b) : a = b := by
  have hapart : Apart [] := trivial
  have hread := ha isGap_nil t.writes_write hapart
  cases hread.symm.trans (hb isGap_nil t.writes_write hapart)
  rfl

/-! ## Simple Values -/

theorem makes_text : text.Makes fun t s => ∃ body, t = .text body ∧ body.Says s := by
  intro t gap cs rest hgap hcs hrest s r
  obtain ⟨c, more, rfl, hopens⟩ := hcs.opening
  simp only [text, ofGlyph, skipGap_lexeme hgap hopens.not_closing.1]
  by_cases hc : c = '"'
  · subst hc
    obtain ⟨body, rfl⟩ := hopens.told.text rfl
    cases hcs
    rw [if_pos rfl, glyphs_append, List.append_assoc]
    simp [Body.scanText_iff]
  · rw [if_neg fun heq => hc (Glyph.char.inj heq)]
    refine iff_of_false (by simp) ?_
    rintro ⟨⟨body, rfl, -⟩, -⟩
    exact hc hopens

theorem makes_flag : flag.Makes fun t value => t = .flag value := by
  intro t gap cs rest hgap hcs hrest value r
  obtain ⟨c, more, rfl, hopens⟩ := hcs.opening
  simp only [flag, ofGlyph, skipGap_lexeme hgap hopens.not_closing.1]
  by_cases htrue : c = 't'
  · subst htrue
    obtain rfl := hopens.told.yes rfl
    cases hcs
    have hword := scanWord_glyphs ['r', 'u', 'e'] rest
    rw [if_pos rfl, hword]
    simp only [Except.map, Except.ok.injEq, Prod.mk.injEq, Tree.flag.injEq, eq_comm (a := rest)]
  · rw [if_neg fun heq => htrue (Glyph.char.inj heq)]
    by_cases hfalse : c = 'f'
    · subst hfalse
      obtain rfl := hopens.told.no rfl
      cases hcs
      have hword := scanWord_glyphs ['a', 'l', 's', 'e'] rest
      rw [if_pos rfl, hword]
      simp only [Except.map, Except.ok.injEq, Prod.mk.injEq, Tree.flag.injEq, eq_comm (a := rest)]
    · rw [if_neg fun heq => hfalse (Glyph.char.inj heq)]
      refine iff_of_false (by simp) ?_
      rintro ⟨rfl, -⟩
      cases value with
      | true => exact htrue hopens
      | false => exact hfalse hopens

/-! ## Readers From Readers -/

theorem makes_map (h : reader.Steady) (f : α → β) :
    (reader.map f).Makes fun t b => ∃ a, reader.Takes t a ∧ f a = b := by
  intro t gap cs rest hgap hcs hrest b r
  have hiff := h hgap hcs hrest
  simp only [Reader.map]
  cases hrun : reader.run (glyphs gap ++ (glyphs cs ++ rest)) with
  | error fault =>
    refine iff_of_false (by simp [Except.map]) ?_
    rintro ⟨⟨a, ha, -⟩, -⟩
    have hok := (hiff a rest).mpr ⟨ha, rfl⟩
    rw [hrun] at hok
    cases hok
  | ok p =>
    obtain ⟨ha, hp⟩ := (hiff p.1 p.2).mp hrun
    constructor
    · rintro ⟨⟩
      exact ⟨⟨p.1, ha, rfl⟩, hp⟩
    · rintro ⟨⟨a, htakes, rfl⟩, rfl⟩
      have hok := (hiff a r).mpr ⟨htakes, rfl⟩
      rw [hrun] at hok
      cases hok
      rfl

theorem makes_orNull (h : reader.Steady) (absent : α) :
    (reader.orNull absent).Makes fun t a =>
      t = .null ∧ a = absent ∨ t ≠ .null ∧ reader.Takes t a := by
  intro t gap cs rest hgap hcs hrest a r
  obtain ⟨c, more, rfl, hopens⟩ := hcs.opening
  simp only [orNull, skipGap_lexeme hgap hopens.not_closing.1]
  by_cases hc : c = 'n'
  · subst hc
    obtain rfl := hopens.told.null rfl
    cases hcs
    have hword := scanWord_glyphs ['u', 'l', 'l'] rest
    rw [if_pos rfl, hword]
    simp [Except.map, eq_comm]
  · have hnull : t ≠ .null := by
      rintro rfl
      exact hc hopens
    rw [if_neg fun heq => hc (Glyph.char.inj heq)]
    refine (h isGap_nil hcs hrest a r).trans ?_
    simp [hnull]

/-! ## Lists -/

/-- One item of a list is read, and then the others. -/
theorem readItems_ok_iff (h : nextItem isFirst d = .ok (.item rest)) {as : List α} {r : Document} :
    readItems reader isFirst d = .ok (as, r) ↔
      ∃ a mid more, reader.run rest = .ok (a, mid) ∧ readItems reader false mid = .ok (more, r) ∧
        as = a :: more := by
  rw [readItems]
  split
  · next hn => cases h.symm.trans hn
  · next hn => cases h.symm.trans hn
  · next hn =>
    cases h.symm.trans hn
    split
    · next hr => simp [hr]
    · next a mid hr =>
      dsimp only
      cases hmore : readItems reader false mid with
      | error fault => simp [hr, hmore]
      | ok p =>
        simp only [hr, Except.ok.injEq, Prod.mk.injEq]
        constructor
        · rintro ⟨rfl, rfl⟩
          exact ⟨a, mid, p.1, ⟨rfl, rfl⟩, hmore, rfl⟩
        · rintro ⟨_, _, more, ⟨rfl, rfl⟩, hread, rfl⟩
          cases hmore.symm.trans hread
          exact ⟨rfl, rfl⟩

/-- The items of a list are taken one by one. -/
theorem readItems_writes (h : reader.Steady) {items : List Tree}
    (hcs : Tree.WritesItems isFirst items cs) (rest : Document) {as : List α} {r : Document} :
    readItems reader isFirst (glyphs cs ++ rest) = .ok (as, r) ↔
      List.Forall₂ reader.Takes items as ∧ r = rest := by
  induction items generalizing isFirst cs as r with
  | nil =>
    cases hcs with
    | close _ hgap =>
      rw [readItems_stop reader (nextItem_close isFirst hgap rest), List.forall₂_nil_left_iff]
      simp only [Except.ok.injEq, Prod.mk.injEq, eq_comm]
  | cons item items ih =>
    cases hcs with
    | @item _ lead cs more _ _ hlead hitem hitems =>
      obtain ⟨c, tail, rfl, hopens⟩ := hitem.opening
      obtain ⟨hnotGap, hbracket, -⟩ := hopens.not_closing
      have hnext := nextItem_lead hlead hnotGap hbracket tail (glyphs more ++ rest)
      have hrun := h isGap_nil hitem (hitems.apart rest)
      rw [glyphs_append, glyphs_append, List.append_assoc, List.append_assoc,
        readItems_ok_iff hnext]
      constructor
      · rintro ⟨a, mid, later, hfirst, hlater, rfl⟩
        obtain ⟨htakes, rfl⟩ := (hrun a mid).mp hfirst
        obtain ⟨htail, rfl⟩ := (ih hitems).mp hlater
        exact ⟨.cons htakes htail, rfl⟩
      · rintro ⟨hall, rfl⟩
        cases hall with
        | @cons _ a _ later htakes htail =>
          exact ⟨a, _, later, (hrun a _).mpr ⟨htakes, rfl⟩, (ih hitems).mpr ⟨htail, rfl⟩, rfl⟩

theorem makes_list (h : reader.Steady) :
    (list reader).Makes fun t as =>
      ∃ items, t = .list items ∧ List.Forall₂ reader.Takes items as := by
  intro t gap cs rest hgap hcs hrest as r
  obtain ⟨c, more, rfl, hopens⟩ := hcs.opening
  simp only [list, ofGlyph, skipGap_lexeme hgap hopens.not_closing.1]
  by_cases hc : c = '['
  · subst hc
    obtain ⟨items, rfl⟩ := hopens.told.list rfl
    cases hcs with
    | list hitems =>
      rw [if_pos rfl]
      simp [readItems_writes h hitems rest]
  · rw [if_neg fun heq => hc (Glyph.char.inj heq)]
    refine iff_of_false (by simp) ?_
    rintro ⟨⟨items, rfl, -⟩, -⟩
    exact hc hopens

/-! ## Whole Documents -/

end Reader

/-- A document that holds a tree and nothing else. -/
def Tree.IsDocument (t : Tree) (d : Document) : Prop :=
  ∃ before cs after, IsGap before ∧ t.Writes cs ∧ IsGap after ∧
    d = glyphs before ++ (glyphs cs ++ glyphs after)

theorem Tree.isDocument_write (t : Tree) : t.IsDocument (glyphs t.write) :=
  ⟨[], t.write, [], isGap_nil, t.writes_write, isGap_nil, by simp⟩

/-- A document is read as what the reader takes from its tree. -/
theorem Reader.Steady.readAll_iff {α : Type} {reader : Reader α} (h : reader.Steady) {t : Tree}
    {d : Document} (hd : t.IsDocument d) {a : α} : reader.readAll d = .ok a ↔ reader.Takes t a := by
  obtain ⟨before, cs, after, hbefore, hcs, hafter, rfl⟩ := hd
  have hapart : Apart (glyphs after) := by
    have hnil : Apart [] := trivial
    simpa using apart_gap hafter hnil
  have hiff := h hbefore hcs hapart
  have hend : skipGap (glyphs after) = [] := by
    simpa [skipGap] using skipGap_gap hafter []
  rw [Reader.readAll]
  cases hrun : reader.run (glyphs before ++ (glyphs cs ++ glyphs after)) with
  | error fault =>
    refine iff_of_false (by simp) fun ha => ?_
    cases hrun.symm.trans ((hiff a _).mpr ⟨ha, rfl⟩)
  | ok p =>
    obtain ⟨htakes, hp⟩ := (hiff p.1 p.2).mp hrun
    simp only [hp, hend, List.isEmpty_nil, if_true, Except.ok.injEq]
    constructor
    · rintro rfl
      exact htakes
    · intro ha
      cases hrun.symm.trans ((hiff a _).mpr ⟨ha, rfl⟩)
      rfl

/-! ## Records -/

namespace Shape

variable {σ : Type} {s : Shape σ} {a b start : σ} {cs : List Char} {d rest r : Document}
  {isFirst : Bool} {seen : List String} {members : List (Body × Tree)} {items : List Tree}

/-- What the members of an object make of a record, and the names of the fields that they set,
none of them twice. A member without a field changes nothing. -/
inductive TakesMembers (s : Shape σ) : List (Body × Tree) → List String → σ → σ → Prop where
  | done (a : σ) : TakesMembers s [] [] a a
  | unknown {key : Body} {name : String} {value : Tree} {members : List (Body × Tree)}
      {names : List String} {a b : σ} (hkey : key.Says name) (hunknown : s.field? name = none)
      (hmore : TakesMembers s members names a b) :
      TakesMembers s ((key, value) :: members) names a b
  | known {key : Body} {name : String} {value : Tree} {members : List (Body × Tree)}
      {names : List String} {field : Field σ} {change : σ → σ} {a b : σ} (hkey : key.Says name)
      (hfield : s.field? name = some field) (hvalue : field.reader.Takes value change)
      (hnew : name ∉ names) (hmore : TakesMembers s members names (change a) b) :
      TakesMembers s ((key, value) :: members) (name :: names) a b

/-- What the items of a list make of a record, field by field; it may end before the fields that
are not needed. -/
inductive TakesFields : List (Field σ) → List Tree → σ → σ → Prop where
  | early {fields : List (Field σ)} (a : σ)
      (hoptional : ∀ field ∈ fields, field.required = false) : TakesFields fields [] a a
  | field {field : Field σ} {fields : List (Field σ)} {item : Tree} {items : List Tree}
      {change : σ → σ} {a b : σ} (hitem : field.reader.Takes item change)
      (hmore : TakesFields fields items (change a) b) :
      TakesFields (field :: fields) (item :: items) a b

/-- What a tree makes of a record: it is an object without any needed field missing, or a list
that holds the fields. -/
def Takes (s : Shape σ) (start : σ) (t : Tree) (a : σ) : Prop :=
  (∃ members names, t = .object members ∧ s.TakesMembers members names start a ∧
    ∀ field ∈ s.fields, field.required = true → field.name ∈ names) ∨
    ∃ items, t = .list items ∧ TakesFields s.fields items start a

/-- Every key of an object from which a record is taken is a text. -/
theorem TakesMembers.exists_name {names : List String} {b : σ}
    (h : s.TakesMembers members names a b) : ∀ member ∈ members, ∃ name, member.1.Says name := by
  induction h with
  | done => exact nofun
  | unknown hkey _ _ ih => exact List.forall_mem_cons.mpr ⟨⟨_, hkey⟩, ih⟩
  | known hkey _ _ _ _ ih => exact List.forall_mem_cons.mpr ⟨⟨_, hkey⟩, ih⟩

theorem readMembers_unknown {afterKey atValue : Document} {key : String}
    (h : nextMember isFirst d = .ok (.member key afterKey)) (hfield : s.field? key = none)
    (hcolon : skipColon afterKey = .ok atValue) (hskip : skipValue atValue = .ok rest) :
    readMembers s isFirst seen a d = readMembers s false seen a rest := by
  rw [readMembers]
  split
  · next hn => cases h.symm.trans hn
  · next hn => cases h.symm.trans hn
  · next hn =>
    cases h.symm.trans hn
    split
    · split
      · next hc => cases hcolon.symm.trans hc
      · next hc =>
        cases hcolon.symm.trans hc
        split
        · next hs => cases hskip.symm.trans hs
        · next hs =>
          cases hskip.symm.trans hs
          rfl
    · next hf => cases hfield.symm.trans hf

/-- One member is read, and then the others. -/
theorem readMembers_ok_iff (hstop : ∀ rest, nextMember isFirst d ≠ .ok (.stop rest))
    {answer : σ × List String × Document} :
    readMembers s isFirst seen a d = .ok answer ↔
      ∃ name afterKey atValue, nextMember isFirst d = .ok (.member name afterKey) ∧
        skipColon afterKey = .ok atValue ∧
        ((s.field? name = none ∧ ∃ rest, skipValue atValue = .ok rest ∧
            readMembers s false seen a rest = .ok answer) ∨
          ∃ field change rest, s.field? name = some field ∧ name ∉ seen ∧
            field.reader.run atValue = .ok (change, rest) ∧
            readMembers s false (name :: seen) (change a) rest = .ok answer) := by
  constructor
  · intro h
    rw [readMembers] at h
    split at h
    · cases h
    · next hn => exact absurd hn (hstop _)
    · next name afterKey hn =>
      split at h
      · next hfield =>
        split at h
        · cases h
        · next hcolon =>
          split at h
          · cases h
          · next hskip =>
            exact ⟨name, afterKey, _, hn, hcolon, Or.inl ⟨hfield, _, hskip, h⟩⟩
      · next hfield =>
        split at h
        · cases h
        · next hnew =>
          have hnotSeen : name ∉ seen := by simpa using hnew
          split at h
          · cases h
          · next hcolon =>
            split at h
            · cases h
            · next hrun =>
              exact ⟨name, afterKey, _, hn, hcolon,
                Or.inr ⟨_, _, _, hfield, hnotSeen, hrun, h⟩⟩
  · rintro ⟨name, afterKey, atValue, hmember, hcolon, hmore⟩
    obtain ⟨hfield, rest, hskip, hrest⟩ | ⟨field, change, rest, hfield, hnew, hrun, hrest⟩ := hmore
    · rw [readMembers_unknown hmember hfield hcolon hskip]
      exact hrest
    · rw [readMembers_member hmember hfield hnew hcolon hrun]
      exact hrest

/-- The key of a member is read as the text that it says. -/
theorem nextMember_body {lead : List Char} (hlead : Lead isFirst lead) {key : Body}
    {answer : NextMember} :
    nextMember isFirst (glyphs lead ++ (glyphs ('"' :: (key.chars ++ ['"'])) ++ d)) = .ok answer ↔
      ∃ name, key.Says name ∧ answer = .member name d := by
  rw [nextMember_lead hlead, memberKey, if_pos rfl, glyphs_append, List.append_assoc]
  change (scanText (glyphs key.chars ++ .char '"' :: d)).map _ = _ ↔ _
  constructor
  · intro h
    cases hscan : scanText (glyphs key.chars ++ .char '"' :: d) with
    | error fault =>
      rw [hscan] at h
      cases h
    | ok p =>
      rw [hscan] at h
      cases h
      obtain ⟨hsaid, hrest⟩ := Body.scanText_iff.mp hscan
      exact ⟨p.1, hsaid, congrArg (NextMember.member p.1) hrest⟩
  · rintro ⟨name, hsaid, rfl⟩
    rw [hsaid d]
    rfl

theorem mem_fields_of_field? {name : String} {field : Field σ} (h : s.field? name = some field) :
    field ∈ s.fields :=
  List.mem_of_find?_eq_some h

theorem name_of_field? {name : String} {field : Field σ} (h : s.field? name = some field) :
    field.name = name := by
  simpa using List.find?_some h

/-- A member is read by its key and what stands behind its colon. -/
theorem readMembers_body_iff {lead before : List Char} (hlead : Lead isFirst lead) (key : Body)
    (hbefore : IsGap before) {answer : σ × List String × Document} :
    readMembers s isFirst seen a (glyphs (lead ++ ('"' :: (key.chars ++ '"' :: (before ++ ':' ::
        cs)))) ++ rest) = .ok answer ↔
      ∃ name, key.Says name ∧
        ((s.field? name = none ∧ ∃ r, skipValue (glyphs cs ++ rest) = .ok r ∧
            readMembers s false seen a r = .ok answer) ∨
          ∃ field change r, s.field? name = some field ∧ name ∉ seen ∧
            field.reader.run (glyphs cs ++ rest) = .ok (change, r) ∧
            readMembers s false (name :: seen) (change a) r = .ok answer) := by
  have hdocument : glyphs (lead ++ ('"' :: (key.chars ++ '"' :: (before ++ ':' :: cs)))) ++ rest =
      glyphs lead ++ (glyphs ('"' :: (key.chars ++ ['"'])) ++
        (glyphs (before ++ ':' :: cs) ++ rest)) := by
    simp only [glyphs_append, glyphs_cons, glyphs_nil, List.append_assoc, List.cons_append,
      List.nil_append]
  have hcolon := skipColon_gap hbefore cs rest
  have hstop : ∀ r, nextMember isFirst (glyphs lead ++ (glyphs ('"' :: (key.chars ++ ['"'])) ++
      (glyphs (before ++ ':' :: cs) ++ rest))) ≠ .ok (.stop r) := by
    intro r heq
    obtain ⟨name, -, hmember⟩ := (nextMember_body hlead).mp heq
    cases hmember
  rw [hdocument, readMembers_ok_iff hstop]
  constructor
  · rintro ⟨name, afterKey, atValue, hnext, hcolon', hcase⟩
    obtain ⟨name', hsaid, heq⟩ := (nextMember_body hlead).mp hnext
    cases heq
    cases hcolon.symm.trans hcolon'
    exact ⟨name, hsaid, hcase⟩
  · rintro ⟨name, hsaid, hcase⟩
    exact ⟨name, _, _, (nextMember_body hlead).mpr ⟨name, hsaid, rfl⟩, hcolon, hcase⟩

/-- The members of an object are taken one by one. -/
theorem readMembers_writes (hfields : ∀ field ∈ s.fields, field.reader.Steady)
    (hcs : Tree.WritesMembers isFirst members cs) (rest : Document) {seen' : List String} :
    readMembers s isFirst seen a (glyphs cs ++ rest) = .ok (b, seen', r) ↔
      ∃ names, s.TakesMembers members names a b ∧ (∀ name ∈ names, name ∉ seen) ∧
        seen' = names.reverse ++ seen ∧ r = rest := by
  induction members generalizing isFirst cs seen a with
  | nil =>
    cases hcs with
    | close _ hgap =>
      rw [readMembers_stop s seen a (nextMember_close isFirst hgap rest)]
      constructor
      · rintro ⟨⟩
        exact ⟨[], .done _, nofun, rfl, rfl⟩
      · rintro ⟨names, ⟨⟩, -, rfl, rfl⟩
        rfl
  | cons member members ih =>
    obtain ⟨key, value⟩ := member
    cases hcs with
    | @member _ _ lead before gap cs more _ _ hlead hbefore hgap hvalue hmembers =>
      have hapart := hmembers.apart rest
      have hskip := skipValue_writes hvalue hgap hapart
      have hvalueText : glyphs (gap ++ (cs ++ more)) ++ rest =
          glyphs gap ++ (glyphs cs ++ (glyphs more ++ rest)) := by
        simp only [glyphs_append, List.append_assoc]
      rw [readMembers_body_iff hlead key hbefore, hvalueText]
      constructor
      · rintro ⟨name, hsaid, ⟨hunknown, r', hskip', hmore⟩ |
          ⟨field, change, r', hfield, hnew, hrun, hmore⟩⟩
        · cases hskip.symm.trans hskip'
          obtain ⟨names, htail, hrest⟩ := (ih hmembers).mp hmore
          exact ⟨names, .unknown hsaid hunknown htail, hrest⟩
        · have hsteady := hfields field (mem_fields_of_field? hfield)
          obtain ⟨htakes, rfl⟩ := (hsteady hgap hvalue hapart change r').mp hrun
          -- The tail has seen this name, so it is none of the names that the tail sets.
          obtain ⟨names, htail, hapartNames, rfl, hr⟩ := (ih hmembers).mp hmore
          have hnotLater : name ∉ names := fun hname => hapartNames name hname (by simp)
          refine ⟨name :: names, .known hsaid hfield htakes hnotLater htail, ?_, by simp, hr⟩
          rw [List.forall_mem_cons]
          exact ⟨hnew, fun n hn hseen => hapartNames n hn (List.mem_cons_of_mem _ hseen)⟩
      · rintro ⟨names, htakes, hapartNames, rfl, hr⟩
        cases htakes with
        | @unknown _ name _ _ _ _ _ hsaid hunknown htail =>
          have hread := (ih hmembers).mpr ⟨names, htail, hapartNames, rfl, hr⟩
          exact ⟨name, hsaid, Or.inl ⟨hunknown, _, hskip, hread⟩⟩
        | @known _ name _ _ names field change _ _ hsaid hfield htakes hnotLater htail =>
          rw [List.forall_mem_cons] at hapartNames
          have hsteady := hfields field (mem_fields_of_field? hfield)
          have hrun := (hsteady hgap hvalue hapart change _).mpr ⟨htakes, rfl⟩
          have hapartTail : ∀ n ∈ names, n ∉ name :: seen := by
            intro n hn hseen
            obtain rfl | hseen := List.mem_cons.mp hseen
            · exact hnotLater hn
            · exact hapartNames.2 n hn hseen
          have hread := (ih hmembers).mpr ⟨names, htail, hapartTail, by simp, hr⟩
          exact ⟨name, hsaid, Or.inr ⟨field, change, _, hfield, hapartNames.1, hrun, hread⟩⟩

/-- No field is missing if every needed one has been seen. -/
theorem firstMissing?_eq_none_iff :
    s.firstMissing? seen = none ↔
      ∀ field ∈ s.fields, field.required = true → field.name ∈ seen := by
  simp [firstMissing?, List.find?_eq_none]

theorem takesFields_nil_iff {fields : List (Field σ)} :
    TakesFields fields [] a b ↔ (∀ field ∈ fields, field.required = false) ∧ b = a := by
  constructor
  · rintro ⟨⟩
    next hoptional => exact ⟨hoptional, rfl⟩
  · rintro ⟨hoptional, rfl⟩
    exact .early b hoptional

theorem takesFields_cons_iff {field : Field σ} {fields : List (Field σ)} {item : Tree} :
    TakesFields (field :: fields) (item :: items) a b ↔
      ∃ change, field.reader.Takes item change ∧ TakesFields fields items (change a) b := by
  constructor
  · rintro ⟨⟩
    next hitem hmore => exact ⟨_, hitem, hmore⟩
  · rintro ⟨change, hitem, hmore⟩
    exact .field hitem hmore

/-- Behind the last field a list has to end. -/
theorem readFields_nil (count : Nat) (hcs : Tree.WritesItems isFirst items cs) (rest : Document) :
    readFields s [] count a (glyphs cs ++ rest) = .ok (b, r) ↔ (items = [] ∧ b = a) ∧ r = rest := by
  have hbracket : isGap (.char ']') = false := rfl
  have hcomma : isGap (.char ',') = false := rfl
  have hne : Glyph.char ',' ≠ .char ']' := by decide
  cases hcs with
  | close _ hgap =>
    rw [glyphs_append, List.append_assoc, readFields, Reader.skipGap_lexeme hgap hbracket]
    simp [eq_comm]
  | item hlead hitem hitems =>
    refine iff_of_false ?_ (by simp)
    obtain ⟨c, tail, rfl, hopens⟩ := hitem.opening
    obtain ⟨hnotGap, hclosing, -⟩ := hopens.not_closing
    have hnotClosing : Glyph.char c ≠ .char ']' := fun heq => hclosing (Glyph.char.inj heq)
    cases hlead with
    | first hgap =>
      rw [glyphs_append, glyphs_append, List.append_assoc, List.append_assoc, readFields,
        Reader.skipGap_lexeme hgap hnotGap]
      simp only [if_neg hnotClosing]
      split
      · split <;> simp
      · simp
    | further hbefore hgap =>
      rw [glyphs_append, glyphs_append, List.append_assoc, List.append_assoc, readFields,
        Reader.skipGap_lexeme hbefore hcomma]
      simp only [if_neg hne, if_true]
      split <;> simp

/-- The items of a list are taken field by field. -/
theorem readFields_writes {fields : List (Field σ)}
    (hfields : ∀ field ∈ fields, field.reader.Steady) {count : Nat}
    (hcs : Tree.WritesItems (count == 0) items cs) (rest : Document) :
    readFields s fields count a (glyphs cs ++ rest) = .ok (b, r) ↔
      TakesFields fields items a b ∧ r = rest := by
  -- By induction on the fields; the items have to end where they do, or before optional ones.
  induction fields generalizing items count cs a with
  | nil =>
    rw [readFields_nil count hcs]
    cases items with
    | nil => simp [takesFields_nil_iff]
    | cons item items =>
      refine iff_of_false (by simp) ?_
      rintro ⟨⟨⟩, -⟩
  | cons field fields ih =>
    rw [List.forall_mem_cons] at hfields
    cases hcs with
    | close _ hgap =>
      rw [takesFields_nil_iff, readFields, Reader.nextItem_close _ hgap]
      dsimp only
      cases hindex : (field :: fields).findIdx? Field.required with
      | none =>
        have hoptional := List.findIdx?_eq_none_iff.mp hindex
        simp only [Except.ok.injEq, Prod.mk.injEq]
        constructor
        · rintro ⟨rfl, rfl⟩
          exact ⟨⟨hoptional, rfl⟩, rfl⟩
        · rintro ⟨⟨-, rfl⟩, rfl⟩
          exact ⟨rfl, rfl⟩
      | some k =>
        refine iff_of_false (by simp) ?_
        rintro ⟨⟨hoptional, -⟩, -⟩
        rw [List.findIdx?_eq_none_iff.mpr hoptional] at hindex
        cases hindex
    | @item _ lead cs more item items hlead hitem hitems =>
      obtain ⟨c, tail, rfl, hopens⟩ := hitem.opening
      obtain ⟨hnotGap, hbracket, -⟩ := hopens.not_closing
      have hnext := Reader.nextItem_lead hlead hnotGap hbracket tail (glyphs more ++ rest)
      have hrun := hfields.1 isGap_nil hitem (hitems.apart rest)
      rw [glyphs_nil, List.nil_append] at hrun
      rw [takesFields_cons_iff, glyphs_append, glyphs_append, List.append_assoc,
        List.append_assoc, readFields, hnext]
      dsimp only
      cases hread : field.reader.run (glyphs (c :: tail) ++ (glyphs more ++ rest)) with
      | error fault =>
        refine iff_of_false (by simp) ?_
        rintro ⟨⟨change, htakes, -⟩, -⟩
        cases hread.symm.trans ((hrun change _).mpr ⟨htakes, rfl⟩)
      | ok p =>
        obtain ⟨change, rest'⟩ := p
        obtain ⟨htakes, rfl⟩ := (hrun change rest').mp hread
        have hmore : Tree.WritesItems (count + 1 == 0) items more := hitems
        dsimp only
        rw [ih hfields.2 hmore]
        constructor
        · rintro ⟨htail, hr⟩
          exact ⟨⟨change, htakes, htail⟩, hr⟩
        · rintro ⟨⟨change', htakes', htail⟩, hr⟩
          cases hread.symm.trans ((hrun change' _).mpr ⟨htakes', rfl⟩)
          exact ⟨htail, hr⟩

/-- What a reader of records takes from a tree is what the tree makes of the record. -/
theorem makes_record (hfields : ∀ field ∈ s.fields, field.reader.Steady) (start : σ) :
    (s.reader start).Makes (s.Takes start) := by
  intro t gap cs rest hgap hcs hrest a r
  obtain ⟨c, more, rfl, hopens⟩ := hcs.opening
  simp only [reader, Reader.ofGlyph, Reader.skipGap_lexeme hgap hopens.not_closing.1]
  by_cases hobject : c = '\x7b'
  · subst hobject
    obtain ⟨members, rfl⟩ := hopens.told.object rfl
    cases hcs with
    | object hmembers =>
      rw [if_pos rfl]
      have hread : ∀ {b : σ} {seen : List String} {r' : Document},
          readMembers s true [] start (glyphs more ++ rest) = .ok (b, seen, r') ↔ _ :=
        readMembers_writes hfields hmembers rest
      constructor
      · intro h
        split at h
        · cases h
        · next value seen r' hmem =>
          split at h
          · cases h
          · next hnone =>
            cases h
            obtain ⟨names, htakes, -, rfl, hr⟩ := hread.mp hmem
            refine ⟨Or.inl ⟨members, names, rfl, htakes, ?_⟩, hr⟩
            simpa using firstMissing?_eq_none_iff.mp hnone
      · rintro ⟨⟨_, names, ⟨⟩, htakes, hneeded⟩ | ⟨items, ⟨⟩, -⟩, hr⟩
        rw [hread.mpr ⟨names, htakes, nofun, rfl, hr⟩]
        have hnone : s.firstMissing? (names.reverse ++ []) = none :=
          firstMissing?_eq_none_iff.mpr (by simpa using hneeded)
        simp only [hnone]
  · rw [if_neg fun heq => hobject (Glyph.char.inj heq)]
    by_cases hlist : c = '['
    · subst hlist
      obtain ⟨items, rfl⟩ := hopens.told.list rfl
      cases hcs with
      | list hitems =>
        have hitems' : Tree.WritesItems (0 == 0) items more := hitems
        rw [if_pos rfl, readFields_writes hfields hitems' rest]
        simp [Takes]
    · rw [if_neg fun heq => hlist (Glyph.char.inj heq)]
      refine iff_of_false (by simp) ?_
      rintro ⟨⟨members, seen, rfl, -⟩ | ⟨items, rfl, -⟩, -⟩
      · exact hobject hopens
      · exact hlist hopens

/-- An object without members leaves a record as it is if no field of it is needed. -/
theorem takes_object_nil (hoptional : ∀ field ∈ s.fields, field.required = false) (start : σ) :
    (s.reader start).Takes (.object []) start := by
  intro gap cs rest hgap hcs hrest
  have hbrace : isGap (.char '\x7b') = false := rfl
  have hcomplete : s.firstMissing? [] = none := by
    rw [firstMissing?_eq_none_iff]
    intro field hfield hrequired
    cases (hoptional field hfield).symm.trans hrequired
  cases hcs with
  | object hmembers =>
    cases hmembers with
    | close _ hclosing =>
      have hstop := readMembers_stop s [] start (nextMember_close true hclosing rest)
      simp only [reader, Reader.ofGlyph, Reader.skipGap_lexeme hgap hbrace, if_true, hstop,
        hcomplete]

end Shape

end EdgeSync.Json
