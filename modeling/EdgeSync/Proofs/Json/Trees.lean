import EdgeSync.Json.Skip
import EdgeSync.Proofs.Json.Lexemes

/-!
# Texts as Trees

A text in JSON is a tree of values: lists of values and objects with keys, down to words,
numbers and quoted texts. Quoted texts and numbers stand in the tree as they are written, since
a number of any size may stand where nothing needs it, and a quoted text may hold an escape that
stands for no character. Between lexemes there may be gaps.

## Main definitions

- `Numeral`, `Body`: a number and what stands between quotation marks, as they are written
- `Tree`: what a text consists of
- `Tree.Writes`: how a tree is written
- `Body.Says`: the text that stands between quotation marks

## Main results

- `Tree.writes_write`: every tree can be written
- `Tree.Writes.opening`: what a tree begins with
- `Body.scanText_iff`: what stands between quotation marks is scanned to its end, or is no text
-/

namespace EdgeSync.Json

open EdgeSync.Text

/-! ## Numbers -/

/-- Digits, at least one of them. -/
def IsDigits (ds : List Char) : Prop :=
  ds ≠ [] ∧ ∀ c ∈ ds, c.isDigit = true

/-- The whole part of a number: a zero stands in front of no other digit. -/
inductive WholeText : List Char → Prop
  | zero : WholeText ['0']
  | digits {c : Char} {ds : List Char} (hc : c.isDigit = true) (hne : c ≠ '0')
      (hds : ∀ c ∈ ds, c.isDigit = true) : WholeText (c :: ds)

/-- The part of a number behind the point. -/
inductive FractionText : List Char → Prop
  | none : FractionText []
  | digits {ds : List Char} (hds : IsDigits ds) : FractionText ('.' :: ds)

/-- The exponent of a number. -/
inductive ExponentText : List Char → Prop
  | none : ExponentText []
  | digits {mark : Char} {sign ds : List Char} (hmark : mark = 'e' ∨ mark = 'E')
      (hsign : sign = [] ∨ sign = ['+'] ∨ sign = ['-']) (hds : IsDigits ds) :
      ExponentText (mark :: (sign ++ ds))

/-- A number without its sign. -/
inductive MagnitudeText : List Char → Prop
  | parts {whole fraction exponent : List Char} (hwhole : WholeText whole)
      (hfraction : FractionText fraction) (hexponent : ExponentText exponent) :
      MagnitudeText (whole ++ (fraction ++ exponent))

/-- A number. -/
inductive NumberText : List Char → Prop
  | positive {cs : List Char} (hcs : MagnitudeText cs) : NumberText cs
  | negative {cs : List Char} (hcs : MagnitudeText cs) : NumberText ('-' :: cs)

/-- A number as it is written. -/
structure Numeral where
  chars : List Char
  wellFormed : NumberText chars

/-! ## Quoted Texts -/

/-- What may stand between quotation marks. -/
inductive BodyText : List Char → Prop
  | nil : BodyText []
  | plain {c : Char} {cs : List Char} (hquote : c ≠ '"') (hbackslash : c ≠ '\\')
      (hcontrol : ¬ c.toNat < 0x20) (hcs : BodyText cs) : BodyText (c :: cs)
  | letter {c : Char} {cs : List Char} (hletter : (letterEscape? (.char c)).isSome = true)
      (hcs : BodyText cs) : BodyText ('\\' :: c :: cs)
  | code {h₁ h₂ h₃ h₄ : Char} {cs : List Char} (hh₁ : (hexDigit? (.char h₁)).isSome = true)
      (hh₂ : (hexDigit? (.char h₂)).isSome = true) (hh₃ : (hexDigit? (.char h₃)).isSome = true)
      (hh₄ : (hexDigit? (.char h₄)).isSome = true) (hcs : BodyText cs) :
      BodyText ('\\' :: 'u' :: h₁ :: h₂ :: h₃ :: h₄ :: cs)

/-- What stands between quotation marks, as it is written. -/
structure Body where
  chars : List Char
  wellFormed : BodyText chars

theorem bodyText_escapeChar (c : Char) {cs : List Char} (hcs : BodyText cs) :
    BodyText (Value.escapeChar c ++ cs) := by
  unfold Value.escapeChar
  split
  · exact .letter rfl hcs
  · exact .letter rfl hcs
  · exact .letter rfl hcs
  · exact .letter rfl hcs
  · exact .letter rfl hcs
  · exact .letter rfl hcs
  · exact .letter rfl hcs
  · next hquote hbackslash _ _ _ _ _ =>
    split
    · next hcontrol =>
      have hhigh := Option.isSome_of_mem (hexDigit?_digitChar (n := c.toNat / 16) (by omega))
      have hlow := Option.isSome_of_mem (hexDigit?_digitChar (n := c.toNat % 16) (by omega))
      exact .code rfl rfl hhigh hlow hcs
    · next hcontrol => exact .plain hquote hbackslash hcontrol hcs

/-- A text as the agent writes it. -/
def Body.ofText (s : String) : Body where
  chars := s.toList.flatMap Value.escapeChar
  wellFormed := by
    induction s.toList with
    | nil => exact .nil
    | cons c cs ih => exact bodyText_escapeChar c ih

/-! ## Trees -/

/-- What a text consists of. -/
inductive Tree where
  | null
  | flag (value : Bool)
  | number (numeral : Numeral)
  | text (body : Body)
  | list (items : List Tree)
  | object (members : List (Body × Tree))

namespace Tree

mutual

/-- A text writes a tree. -/
inductive Writes : Tree → List Char → Prop where
  | null : Writes .null ['n', 'u', 'l', 'l']
  | flag (value : Bool) : Writes (.flag value) (Value.writeFlag value)
  | number (numeral : Numeral) : Writes (.number numeral) numeral.chars
  | text (body : Body) : Writes (.text body) ('"' :: (body.chars ++ ['"']))
  | list {items : List Tree} {cs : List Char} (hitems : WritesItems true items cs) :
      Writes (.list items) ('[' :: cs)
  | object {members : List (Body × Tree)} {cs : List Char}
      (hmembers : WritesMembers true members cs) : Writes (.object members) ('\x7b' :: cs)

/-- A text writes the items of a list that are to come, the first of all or further ones, and
the closing bracket. -/
inductive WritesItems : Bool → List Tree → List Char → Prop where
  | close (isFirst : Bool) {gap : List Char} (hgap : IsGap gap) :
      WritesItems isFirst [] (gap ++ [']'])
  | item {isFirst : Bool} {lead cs more : List Char} {item : Tree} {items : List Tree}
      (hlead : Lead isFirst lead) (hitem : Writes item cs) (hitems : WritesItems false items more) :
      WritesItems isFirst (item :: items) (lead ++ (cs ++ more))

/-- A text writes the members of an object that are to come, the first of all or further ones,
and the closing brace. -/
inductive WritesMembers : Bool → List (Body × Tree) → List Char → Prop where
  | close (isFirst : Bool) {gap : List Char} (hgap : IsGap gap) :
      WritesMembers isFirst [] (gap ++ ['\x7d'])
  | member (key : Body) {isFirst : Bool} {lead before gap cs more : List Char} {value : Tree}
      {members : List (Body × Tree)} (hlead : Lead isFirst lead) (hbefore : IsGap before)
      (hgap : IsGap gap) (hvalue : Writes value cs) (hmembers : WritesMembers false members more) :
      WritesMembers isFirst ((key, value) :: members)
        (lead ++ ('"' :: (key.chars ++ '"' :: (before ++ ':' :: (gap ++ (cs ++ more))))))

end

/-- What stands in front of an item or a member, without gaps. -/
def writeLead : Bool → List Char
  | true => []
  | false => [',']

theorem lead_writeLead : (isFirst : Bool) → Lead isFirst (writeLead isFirst)
  | true => .first isGap_nil
  | false => lead_compact

mutual

/-- A tree written without gaps. -/
def write : Tree → List Char
  | .null => ['n', 'u', 'l', 'l']
  | .flag value => Value.writeFlag value
  | .number numeral => numeral.chars
  | .text body => '"' :: (body.chars ++ ['"'])
  | .list items => '[' :: writeItems true items
  | .object members => '\x7b' :: writeMembers true members

/-- Items with what closes their list. -/
def writeItems (isFirst : Bool) : List Tree → List Char
  | [] => [']']
  | item :: items => writeLead isFirst ++ (write item ++ writeItems false items)

/-- Members with what closes their object. -/
def writeMembers (isFirst : Bool) : List (Body × Tree) → List Char
  | [] => ['\x7d']
  | (key, value) :: members =>
    writeLead isFirst ++
      ('"' :: (key.chars ++ '"' :: ':' :: (write value ++ writeMembers false members)))

end

mutual

/-- Every tree can be written. -/
theorem writes_write : (t : Tree) → t.Writes t.write
  | .null => .null
  | .flag value => .flag value
  | .number numeral => .number numeral
  | .text body => .text body
  | .list items => .list (writes_writeItems true items)
  | .object members => .object (writes_writeMembers true members)

theorem writes_writeItems (isFirst : Bool) :
    (items : List Tree) → WritesItems isFirst items (writeItems isFirst items)
  | [] => .close isFirst isGap_nil
  | item :: items =>
    .item (lead_writeLead isFirst) (writes_write item) (writes_writeItems false items)

theorem writes_writeMembers (isFirst : Bool) :
    (members : List (Body × Tree)) → WritesMembers isFirst members (writeMembers isFirst members)
  | [] => .close isFirst isGap_nil
  | (key, value) :: members =>
    .member key (lead_writeLead isFirst) isGap_nil isGap_nil (writes_write value)
      (writes_writeMembers false members)

end

/-! ## What Trees Begin With -/

/-- The characters that a tree may begin with. -/
def Opens : Tree → Char → Prop
  | .null, c => c = 'n'
  | .flag true, c => c = 't'
  | .flag false, c => c = 'f'
  | .number _, c => c = '-' ∨ c.isDigit = true
  | .text _, c => c = '"'
  | .list _, c => c = '['
  | .object _, c => c = '\x7b'

end Tree

theorem WholeText.head {cs : List Char} (h : WholeText cs) :
    ∃ c more, cs = c :: more ∧ c.isDigit = true := by
  cases h with
  | zero => exact ⟨'0', [], rfl, rfl⟩
  | digits hc _ _ => exact ⟨_, _, rfl, hc⟩

theorem Numeral.head (numeral : Numeral) :
    ∃ c more, numeral.chars = c :: more ∧ (c = '-' ∨ c.isDigit = true) := by
  obtain ⟨chars, hchars⟩ := numeral
  cases hchars with
  | positive hcs =>
    obtain @⟨whole, fraction, exponent, hwhole, -, -⟩ := hcs
    obtain ⟨c, more, rfl, hc⟩ := hwhole.head
    exact ⟨c, _, rfl, Or.inr hc⟩
  | negative _ => exact ⟨'-', _, rfl, Or.inl rfl⟩

namespace Tree

variable {t : Tree} {c : Char} {cs : List Char}

theorem Writes.opening (h : t.Writes cs) : ∃ c more, cs = c :: more ∧ t.Opens c := by
  cases h with
  | null => exact ⟨'n', _, rfl, rfl⟩
  | flag value =>
    cases value with
    | false => exact ⟨'f', _, rfl, rfl⟩
    | true => exact ⟨'t', _, rfl, rfl⟩
  | number numeral => exact numeral.head
  | text body => exact ⟨'"', _, rfl, rfl⟩
  | list _ => exact ⟨'[', _, rfl, rfl⟩
  | object _ => exact ⟨'\x7b', _, rfl, rfl⟩

theorem ne_of_isDigit {d : Char} (hc : c.isDigit = true) (hd : d.isDigit = false) : c ≠ d := by
  rintro rfl
  rw [hd] at hc
  cases hc

/-- A tree begins neither with a blank nor with what closes a list or an object. -/
theorem Opens.not_closing (h : t.Opens c) :
    isGap (.char c) = false ∧ c ≠ ']' ∧ c ≠ '\x7d' := by
  have hdigit : c.isDigit = true → isGap (.char c) = false ∧ c ≠ ']' ∧ c ≠ '\x7d' := by
    intro hc
    have hne : ∀ d : Char, d.isDigit = false → c ≠ d := fun _ => ne_of_isDigit hc
    refine ⟨?_, hne _ rfl, hne _ rfl⟩
    simp [isGap, hne ' ' rfl, hne '\t' rfl, hne '\n' rfl, hne '\r' rfl]
  cases t with
  | number _ =>
    obtain rfl | hc := h
    · exact ⟨rfl, by decide, by decide⟩
    · exact hdigit hc
  | flag value => cases value <;> cases h <;> exact ⟨rfl, by decide, by decide⟩
  | _ => cases h; exact ⟨rfl, by decide, by decide⟩

end Tree

/-! ## Scanning Quoted Texts -/

/-- Up to the closing quotation mark, some characters are scanned as the given glyphs, or are
not scanned at all. -/
def Scans (cs : List Char) (answer : Option (List Glyph)) : Prop :=
  ∀ d, (scanGlyphs (glyphs cs ++ .char '"' :: d)).toOption = answer.map (·, d)

theorem toOption_withChar (c : Char) (answer : Except Fault (List Glyph × Document)) :
    (withChar c answer).toOption = answer.toOption.map fun p => (.char c :: p.1, p.2) := by
  cases answer <;> rfl

theorem Scans.withChar {c : Char} {cs ds : List Char} {answer : Option (List Glyph)}
    (hscans : Scans cs answer)
    (h : ∀ d, scanGlyphs (glyphs ds ++ .char '"' :: d) =
      Json.withChar c (scanGlyphs (glyphs cs ++ .char '"' :: d))) :
    Scans ds (answer.map (.char c :: ·)) := by
  intro d
  rw [h, toOption_withChar, hscans d]
  cases answer <;> rfl

/-- A backslash with no proper escape behind it. -/
theorem scanGlyphs_escape_error {d : Document} {fault : Fault} (h : scanEscape d = .error fault) :
    scanGlyphs (.char '\\' :: d) = .error fault := by
  have hquote : Glyph.char '\\' ≠ .char '"' := by decide
  rw [scanGlyphs, if_neg hquote, if_pos rfl]
  split
  · next hfault =>
    rw [h] at hfault
    cases hfault
    rfl
  · next hok =>
    rw [h] at hok
    cases hok

theorem scanText_escape_error {d : Document} {fault : Fault} (h : scanEscape d = .error fault) :
    scanText (.char '\\' :: d) = .error fault := by
  rw [scanText, scanGlyphs_escape_error h]

theorem Scans.none_of_error {cs : List Char}
    (h : ∀ d, ∃ fault, scanEscape (glyphs cs ++ .char '"' :: d) = .error fault) :
    Scans ('\\' :: cs) none := by
  intro d
  obtain ⟨fault, hfault⟩ := h d
  rw [glyphs_cons, List.cons_append, scanGlyphs_escape_error hfault]
  rfl

theorem scanEscape_code (d : Document) : scanEscape (.char 'u' :: d) = scanCode d := by
  rw [scanEscape, if_pos rfl]

theorem scanEscape_letter {c : Char} (h : (letterEscape? (.char c)).isSome = true) :
    c ≠ 'u' ∧ ∃ c', ∀ d, scanEscape (.char c :: d) = .ok (c', d) := by
  obtain ⟨c', hc'⟩ := Option.isSome_iff_exists.mp h
  have hne : c ≠ 'u' := by
    rintro rfl
    cases h
  have hneGlyph : Glyph.char c ≠ .char 'u' := fun heq => hne (Glyph.char.inj heq)
  refine ⟨hne, c', fun d => ?_⟩
  rw [scanEscape, if_neg hneGlyph, hc']

/-- An escape by code that is no half of a surrogate pair stands for a character. -/
theorem scanCode_alone {n : Nat} {d d' : Document} (h : scanHex d = .ok (n, d'))
    (hlow : isLowSurrogate n = false) (hhigh : isHighSurrogate n = false) :
    scanCode d = .ok (Char.ofNat n, d') := by
  simp [scanCode, h, hlow, hhigh]

/-- The second half of a surrogate pair does not stand first, and the first half stands only in
front of another escape by code. -/
theorem scanCode_error {n : Nat} {d d' : Document} (h : scanHex d = .ok (n, d'))
    (hhalf : isLowSurrogate n = true ∨ isHighSurrogate n = true ∧
      ∀ d'', d' ≠ .char '\\' :: .char 'u' :: d'') : ∃ fault, scanCode d = .error fault := by
  unfold scanCode
  rw [h]
  dsimp only
  split
  · exact ⟨_, rfl⟩
  · next hlow =>
    obtain hfirst | ⟨hhigh, hnot⟩ := hhalf
    · exact absurd hfirst hlow
    · rw [hhigh]
      simp only [Bool.not_true, Bool.false_eq_true, if_false]
      split
      · exact ⟨_, rfl⟩
      · exact ⟨_, rfl⟩
      · exact absurd rfl (hnot _)
      · exact ⟨_, rfl⟩

/-- Two escapes by code, the first of which is the first half of a surrogate pair. -/
theorem scanCode_pair {n low : Nat} {d d' d'' : Document}
    (h : scanHex d = .ok (n, .char '\\' :: .char 'u' :: d')) (hhigh : isHighSurrogate n = true)
    (h' : scanHex d' = .ok (low, d'')) :
    scanCode d = if isLowSurrogate low then
      .ok (Char.ofNat ((n - 0xd800) * 0x400 + (low - 0xdc00) + 0x10000), d'')
      else .error .loneSurrogate := by
  have hlow : isLowSurrogate n = false := by
    simp only [isHighSurrogate, isLowSurrogate, Bool.and_eq_true, decide_eq_true_eq,
      Bool.and_eq_false_iff, decide_eq_false_iff_not] at hhigh ⊢
    omega
  simp only [scanCode, h, hlow, hhigh, h', Bool.not_true, Bool.false_eq_true, if_false]

/-- An escape by code is scanned as a number whatever comes behind it. -/
theorem exists_scanHex {h₁ h₂ h₃ h₄ : Char} (hh₁ : (hexDigit? (.char h₁)).isSome = true)
    (hh₂ : (hexDigit? (.char h₂)).isSome = true) (hh₃ : (hexDigit? (.char h₃)).isSome = true)
    (hh₄ : (hexDigit? (.char h₄)).isSome = true) :
    ∃ n, ∀ d, scanHex (.char h₁ :: .char h₂ :: .char h₃ :: .char h₄ :: d) = .ok (n, d) := by
  obtain ⟨n₁, hn₁⟩ := Option.isSome_iff_exists.mp hh₁
  obtain ⟨n₂, hn₂⟩ := Option.isSome_iff_exists.mp hh₂
  obtain ⟨n₃, hn₃⟩ := Option.isSome_iff_exists.mp hh₃
  obtain ⟨n₄, hn₄⟩ := Option.isSome_iff_exists.mp hh₄
  exact ⟨_, scanHex_of_digits hn₁ hn₂ hn₃ hn₄⟩

/-- What stands between quotation marks is scanned in one way, whatever comes behind it. -/
theorem exists_scans {cs : List Char} (h : BodyText cs) : ∃ answer, Scans cs answer := by
  -- By induction on the length: an escape by code may take the next one along.
  induction hlength : cs.length using Nat.strongRecOn generalizing cs with
  | ind length ih =>
    cases h with
    | nil =>
      refine ⟨some [], fun d => ?_⟩
      rw [glyphs_nil, List.nil_append, scanGlyphs, if_pos rfl]
      rfl
    | @plain c cs hquote hbackslash hcontrol hcs =>
      obtain ⟨answer, hscans⟩ := ih cs.length (by simp at hlength; omega) hcs rfl
      exact ⟨_, hscans.withChar fun _ => scanGlyphs_plain hquote hbackslash hcontrol _⟩
    | @letter c cs hletter hcs =>
      obtain ⟨answer, hscans⟩ := ih cs.length (by simp at hlength; omega) hcs rfl
      obtain ⟨-, c', hc'⟩ := scanEscape_letter hletter
      exact ⟨_, hscans.withChar fun _ => scanGlyphs_escape (hc' _)⟩
    | @code h₁ h₂ h₃ h₄ cs hh₁ hh₂ hh₃ hh₄ hcs =>
      obtain ⟨n, hn⟩ := exists_scanHex hh₁ hh₂ hh₃ hh₄
      -- With a half of a surrogate pair that has no other half nothing is scanned.
      have herror : (isLowSurrogate n = true ∨ isHighSurrogate n = true ∧
          ∀ d d', glyphs cs ++ .char '"' :: d ≠ .char '\\' :: .char 'u' :: d') →
          Scans ('\\' :: 'u' :: h₁ :: h₂ :: h₃ :: h₄ :: cs) none := by
        intro hhalf
        refine .none_of_error fun d => ?_
        rw [glyphs_cons, List.cons_append, scanEscape_code]
        exact scanCode_error (hn _) (hhalf.imp_right fun hhigh => ⟨hhigh.1, hhigh.2 d⟩)
      cases hlow : isLowSurrogate n with
      | true => exact ⟨none, herror (Or.inl hlow)⟩
      | false =>
        cases hhigh : isHighSurrogate n with
        | false =>
          obtain ⟨answer, hscans⟩ := ih cs.length (by simp at hlength; omega) hcs rfl
          have halone := fun d => scanCode_alone (hn (glyphs cs ++ .char '"' :: d)) hlow hhigh
          exact ⟨_, hscans.withChar fun d =>
            scanGlyphs_escape ((scanEscape_code _).trans (halone d))⟩
        | true =>
          cases hcs with
          | nil => exact ⟨none, herror (Or.inr ⟨hhigh, by simp⟩)⟩
          | plain hquote hbackslash hcontrol hcs =>
            refine ⟨none, herror (Or.inr ⟨hhigh, ?_⟩)⟩
            rintro d d' heq
            exact hbackslash (Glyph.char.inj (List.cons.inj heq).1)
          | letter hletter hcs =>
            refine ⟨none, herror (Or.inr ⟨hhigh, ?_⟩)⟩
            rintro d d' heq
            have htail := (List.cons.inj heq).2
            exact (scanEscape_letter hletter).1 (Glyph.char.inj (List.cons.inj htail).1)
          | @code k₁ k₂ k₃ k₄ cs hk₁ hk₂ hk₃ hk₄ hcs =>
            obtain ⟨low, hsecond⟩ := exists_scanHex hk₁ hk₂ hk₃ hk₄
            obtain ⟨answer, hscans⟩ := ih cs.length (by simp at hlength; omega) hcs rfl
            have hpair := fun d => scanCode_pair (hn (glyphs ('\\' :: 'u' :: k₁ :: k₂ :: k₃ :: k₄ ::
              cs) ++ .char '"' :: d)) hhigh (hsecond _)
            cases hother : isLowSurrogate low with
            | true =>
              exact ⟨_, hscans.withChar fun d =>
                scanGlyphs_escape ((scanEscape_code _).trans ((hpair d).trans (if_pos hother)))⟩
            | false =>
              refine ⟨none, .none_of_error fun d => ⟨.loneSurrogate, ?_⟩⟩
              exact (scanEscape_code _).trans ((hpair d).trans (if_neg (by simp [hother])))

/-! ## What Is Said Between Quotation Marks -/

/-- The text that stands between quotation marks. -/
def Body.Says (body : Body) (s : String) : Prop :=
  ∀ d, scanText (glyphs body.chars ++ .char '"' :: d) = .ok (s, d)

/-- What stands between quotation marks is scanned to its end as the text that it says. -/
theorem Body.scanText_iff {body : Body} {s : String} {d r : Document} :
    scanText (glyphs body.chars ++ .char '"' :: d) = .ok (s, r) ↔ body.Says s ∧ r = d := by
  constructor
  · intro h
    obtain ⟨answer, hscans⟩ := exists_scans body.wellFormed
    cases answer with
    | none =>
      -- Where the glyphs are not scanned, the text is not.
      cases hglyphs : scanGlyphs (glyphs body.chars ++ .char '"' :: d) with
      | error fault =>
        rw [scanText, hglyphs] at h
        cases h
      | ok p =>
        have hnone := hscans d
        rw [hglyphs] at hnone
        cases hnone
    | some gs =>
      have hglyphs : ∀ d, scanGlyphs (glyphs body.chars ++ .char '"' :: d) = .ok (gs, d) := by
        intro d
        have hsome := hscans d
        cases hglyphs : scanGlyphs (glyphs body.chars ++ .char '"' :: d) with
        | error fault =>
          rw [hglyphs] at hsome
          cases hsome
        | ok p =>
          rw [hglyphs] at hsome
          exact congrArg _ (Option.some.inj hsome)
      simp only [Body.Says, scanText, hglyphs] at h ⊢
      cases htext : Document.text? gs with
      | none =>
        rw [htext] at h
        cases h
      | some s' =>
        rw [htext] at h
        cases h
        exact ⟨fun _ => rfl, rfl⟩
  · rintro ⟨hsaid, rfl⟩
    exact hsaid r

/-- What is written of a text says that text. -/
theorem Body.says_ofText (s : String) : (Body.ofText s).Says s := by
  intro d
  have hscan := scanText_writeText s d
  rwa [glyphs_append, List.append_assoc] at hscan

/-- No other text stands there. -/
theorem Body.Says.unique {body : Body} {s s' : String} (h : body.Says s) (h' : body.Says s') :
    s = s' := by
  have heq := (h []).symm.trans (h' [])
  cases heq
  rfl

end EdgeSync.Json
