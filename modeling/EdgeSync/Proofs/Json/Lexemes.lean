import EdgeSync.Json.Reader
import EdgeSync.Proofs.Json.Spelling

/-!
# Written Lexemes

What is written of a text or of a natural number is scanned as that text or number. Every
character is written in one of three ways: as itself, by a letter after a backslash, or by
its code. A number is scanned up to the first glyph that cannot belong to it.

## Main definitions

- `Apart`: no glyph that could belong to a number comes first

## Main results

- `scanText_writeText`: texts
- `scanNumber_toDigits`: natural numbers
-/

namespace EdgeSync.Json

open EdgeSync.Text EdgeSync.Number

/-! ## Characters -/

/-- The value of a written hexadecimal digit. -/
theorem hexDigit?_digitChar {n : Nat} (h : n < 16) :
    hexDigit? (.char (Nat.digitChar n)) = some n := by
  decide +revert

/-- Four hexadecimal digits are scanned as their number. -/
theorem scanHex_of_digits {g₁ g₂ g₃ g₄ : Glyph} {n₁ n₂ n₃ n₄ : Nat}
    (h₁ : hexDigit? g₁ = some n₁) (h₂ : hexDigit? g₂ = some n₂) (h₃ : hexDigit? g₃ = some n₃)
    (h₄ : hexDigit? g₄ = some n₄) (d : Document) :
    scanHex (g₁ :: g₂ :: g₃ :: g₄ :: d) = .ok (((n₁ * 16 + n₂) * 16 + n₃) * 16 + n₄, d) := by
  -- A glyph takes one byte at least, so there are enough of them.
  have hpos : ∀ g : Glyph, 1 ≤ g.size := by
    intro g
    cases g with
    | char c => exact Char.utf8Size_pos c
    | stray byte => exact Nat.le_refl 1
  have hsize : ¬ Document.byteSize (g₁ :: g₂ :: g₃ :: g₄ :: d) < 4 := by
    have := hpos g₁
    have := hpos g₂
    have := hpos g₃
    have := hpos g₄
    simp only [Document.byteSize, List.foldr_cons]
    omega
  unfold scanHex
  rw [if_neg hsize]
  simp [h₁, h₂, h₃, h₄]

/-- A character below U+0020 is scanned from its code. -/
theorem scanCode_twoHexDigits {c : Char} (h : c.toNat < 0x20) (d : Document) :
    scanCode (glyphs ('0' :: '0' :: Value.twoHexDigits c.toNat) ++ d) = .ok (c, d) := by
  have hhigh : hexDigit? (.char (Nat.digitChar (c.toNat / 16))) = some (c.toNat / 16) :=
    hexDigit?_digitChar (by omega)
  have hlow : hexDigit? (.char (Nat.digitChar (c.toNat % 16))) = some (c.toNat % 16) :=
    hexDigit?_digitChar (by omega)
  have hzero : hexDigit? (.char '0') = some 0 := rfl
  have hhex := scanHex_of_digits hzero hzero hhigh hlow d
  have hvalue : ((0 * 16 + 0) * 16 + c.toNat / 16) * 16 + c.toNat % 16 = c.toNat := by omega
  rw [hvalue] at hhex
  -- The code is no half of a surrogate pair.
  have hnotLow : isLowSurrogate c.toNat = false := by
    simp [isLowSurrogate]
    omega
  have hnotHigh : isHighSurrogate c.toNat = false := by
    simp [isHighSurrogate]
    omega
  unfold scanCode
  simp only [Value.twoHexDigits, glyphs_cons, glyphs_nil, List.cons_append, List.nil_append, hhex,
    hnotLow, hnotHigh, Bool.not_false, Bool.false_eq_true, if_false, if_true, Char.ofNat_toNat]

/-- One more character in front of what is scanned. -/
def withChar (c : Char) (answer : Except Fault (List Glyph × Document)) :
    Except Fault (List Glyph × Document) :=
  answer.map fun p => (.char c :: p.1, p.2)

/-- A character that is written after a backslash. -/
theorem scanGlyphs_escape {c : Char} {d rest : Document} (h : scanEscape d = .ok (c, rest)) :
    scanGlyphs (.char '\\' :: d) = withChar c (scanGlyphs rest) := by
  have hquote : Glyph.char '\\' ≠ .char '"' := by decide
  rw [scanGlyphs, if_neg hquote, if_pos rfl]
  split
  · next fault hfault =>
    rw [h] at hfault
    cases hfault
  · next c' afterEscape hok =>
    rw [h] at hok
    cases hok
    cases scanGlyphs rest <;> rfl

/-- A character that is written as itself. -/
theorem scanGlyphs_plain {c : Char} (hquote : c ≠ '"') (hbackslash : c ≠ '\\')
    (hcontrol : ¬ c.toNat < 0x20) (d : Document) :
    scanGlyphs (.char c :: d) = withChar c (scanGlyphs d) := by
  have hnotControl : ¬ isControl (.char c) = true := by simpa [isControl] using hcontrol
  rw [scanGlyphs, if_neg (by simpa using hquote), if_neg (by simpa using hbackslash),
    if_neg hnotControl]
  cases scanGlyphs d <;> rfl

/-- Every character is scanned as what it was. -/
theorem scanGlyphs_escapeChar (c : Char) (d : Document) :
    scanGlyphs (glyphs (Value.escapeChar c) ++ d) = withChar c (scanGlyphs d) := by
  unfold Value.escapeChar
  -- The characters with a letter of their own come first.
  split
  · exact scanGlyphs_escape rfl
  · exact scanGlyphs_escape rfl
  · exact scanGlyphs_escape rfl
  · exact scanGlyphs_escape rfl
  · exact scanGlyphs_escape rfl
  · exact scanGlyphs_escape rfl
  · exact scanGlyphs_escape rfl
  · next hquote hbackslash _ _ _ _ _ =>
    split
    · next hcontrol => exact scanGlyphs_escape (scanCode_twoHexDigits hcontrol d)
    · next hcontrol => exact scanGlyphs_plain hquote hbackslash hcontrol d

/-! ## Texts -/

theorem scanGlyphs_flatMap (cs : List Char) (d : Document) :
    scanGlyphs (glyphs (cs.flatMap Value.escapeChar ++ ['"']) ++ d) = .ok (glyphs cs, d) := by
  induction cs with
  | nil =>
    change scanGlyphs (.char '"' :: d) = _
    rw [scanGlyphs, if_pos rfl]
    rfl
  | cons c cs ih =>
    rw [List.flatMap_cons, List.append_assoc, glyphs_append, List.append_assoc,
      scanGlyphs_escapeChar, ih]
    rfl

/-- Characters are a text without stray bytes. -/
theorem text?_glyphs (cs : List Char) : Document.text? (glyphs cs) = some (String.ofList cs) := by
  have hall : (glyphs cs).mapM Glyph.char? = some cs := by
    induction cs with
    | nil => rfl
    | cons c cs ih => simp [Glyph.char?, ih]
  rw [Document.text?, hall]
  rfl

/-- A written text is scanned as that text; the opening quotation mark has been taken. -/
theorem scanText_writeText (s : String) (d : Document) :
    scanText (glyphs (s.toList.flatMap Value.escapeChar ++ ['"']) ++ d) = .ok (s, d) := by
  unfold scanText
  rw [scanGlyphs_flatMap]
  simp [text?_glyphs]

/-! ## Natural Numbers -/

/-- No glyph that could belong to a number comes first. -/
def Apart : Document → Prop
  | [] => True
  | g :: _ => isDigit g = false ∧ g ≠ .char '.' ∧ isExponentMark g = false

theorem digit?_of_isDigit {c : Char} (h : c.isDigit = true) :
    digit? (.char c) = some (c.toNat - '0'.toNat) := by
  simp [digit?, h]

theorem Apart.head {d : Document} (hd : Apart d) : ∀ g ∈ d.head?, isDigit g = false := by
  cases d with
  | nil => exact nofun
  | cons g d =>
    rintro g' ⟨⟩
    exact hd.1

/-- The digits of a number are those in front of what does not begin with a digit. -/
theorem digits_append {cs : List Char} (hcs : ∀ c ∈ cs, c.isDigit = true) {d : Document}
    (hd : ∀ g ∈ d.head?, isDigit g = false) :
    digits (glyphs cs ++ d) = cs.map (fun c => c.toNat - '0'.toNat) ∧
      afterDigits (glyphs cs ++ d) = d := by
  have hall : ∀ g ∈ glyphs cs, isDigit g = true := by
    intro g hg
    obtain ⟨c, hc, rfl⟩ := List.mem_map.mp hg
    rw [isDigit, digit?_of_isDigit (hcs c hc)]
    rfl
  -- Taking digits goes on to the end of these, and stops there.
  have hstop : d.takeWhile isDigit = [] ∧ d.dropWhile isDigit = d := by
    cases d with
    | nil => exact ⟨rfl, rfl⟩
    | cons g d => simp [hd g rfl]
  refine ⟨?_, ?_⟩
  · rw [digits, List.takeWhile_append_of_pos hall, hstop.1, List.append_nil]
    clear hall
    induction cs with
    | nil => rfl
    | cons c cs ih =>
      rw [List.forall_mem_cons] at hcs
      rw [glyphs_cons, List.filterMap_cons_some (digit?_of_isDigit hcs.1), ih hcs.2]
      rfl
  · rw [afterDigits, List.dropWhile_append_of_pos hall, hstop.2]

/-- Digits are gathered to their number if it is within the limit. -/
theorem gather_eq (limit : Nat) (ds : List Nat) (n : Nat)
    (h : ds.foldl (fun n d => 10 * n + d) n ≤ limit) :
    gather limit n ds = (ds.foldl (fun n d => 10 * n + d) n, []) := by
  -- The number only grows, so it is within the limit after each digit.
  have hgrows : ∀ (ds : List Nat) (n : Nat), n ≤ ds.foldl (fun n d => 10 * n + d) n := by
    intro ds
    induction ds with
    | nil => exact fun n => Nat.le_refl n
    | cons d ds ih => exact fun n => Nat.le_trans (by omega) (ih (10 * n + d))
  induction ds generalizing n with
  | nil => rfl
  | cons d ds ih =>
    have hfirst : ¬ limit < 10 * n + d := Nat.not_lt.mpr (Nat.le_trans (hgrows ds _) h)
    rw [gather, if_neg hfirst]
    exact ih (10 * n + d) h

/-- The first digit of a positive number is not zero. -/
theorem head_toDigits_ne_zero {n : Nat} (h : 0 < n) : (Nat.toDigits 10 n).head? ≠ some '0' := by
  induction n using Nat.strongRecOn with
  | ind n ih =>
    rw [Nat.toDigits_eq_if (by decide)]
    split
    · next hsmall =>
      have hne : ∀ k < 10, 0 < k → Nat.digitChar k ≠ '0' := by decide
      simpa using hne n hsmall h
    · next hlarge =>
      have htail := ih (n / 10) (by omega) (by omega)
      obtain ⟨c, cs, hcs⟩ :=
        List.exists_cons_of_ne_nil (Nat.toDigits_ne_nil (n := n / 10) (b := 10))
      rw [hcs] at htail ⊢
      exact htail

theorem eq_zero_of_isDigit {c : Char} (h : c.isDigit = true) (hzero : c.toNat - '0'.toNat = 0) :
    c = '0' := by
  have hle : '0'.toNat ≤ c.toNat := by
    simp only [Char.isDigit, Bool.and_eq_true, decide_eq_true_eq] at h
    exact h.1
  exact Char.toNat_inj.mp (by omega)

/-- A number has no digit more than it needs. -/
theorem toDigits_cases (n : Nat) :
    (∃ c, Nat.toDigits 10 n = [c]) ∨
      ∃ c c' cs, Nat.toDigits 10 n = c :: c' :: cs ∧ c ≠ '0' := by
  obtain ⟨c, cs, hcs⟩ := List.exists_cons_of_ne_nil (Nat.toDigits_ne_nil (n := n) (b := 10))
  cases cs with
  | nil => exact .inl ⟨c, hcs⟩
  | cons c' cs =>
    refine .inr ⟨c, c', cs, hcs, ?_⟩
    rintro rfl
    -- Then the number is positive, as zero has one digit only.
    have hpos : 0 < n := by
      rcases Nat.eq_zero_or_pos n with rfl | hpos
      · cases hcs
      · exact hpos
    exact head_toDigits_ne_zero hpos (by rw [hcs]; rfl)

/-- A written number is scanned as that number, up to what is apart from it. -/
theorem scanNumber_toDigits {n : Nat} (hn : n ≤ maxNatural) {d : Document} (hd : Apart d) :
    scanNumber false (glyphs (Nat.toDigits 10 n) ++ d) = .ok (.natural n, d) := by
  have hall : ∀ c ∈ Nat.toDigits 10 n, c.isDigit = true := fun c hc =>
    Nat.isDigit_of_mem_toDigits (by decide) (by decide) hc
  obtain ⟨hdigits, hafter⟩ := digits_append hall hd.head
  have hvalue : ((Nat.toDigits 10 n).map fun c => c.toNat - '0'.toNat).foldl
      (fun n d => 10 * n + d) 0 = n := by
    rw [List.foldl_map]
    exact Nat.ofDigitChars_toDigits (by decide) (by decide)
  have hgather := gather_eq maxNatural _ 0 (hvalue.symm ▸ hn)
  rw [hvalue] at hgather
  unfold scanNumber
  split
  · next hnone _ =>
    rw [hdigits] at hnone
    exact absurd (List.map_eq_nil_iff.mp hnone) Nat.toDigits_ne_nil
  · next hnone _ =>
    rw [hdigits] at hnone
    exact absurd (List.map_eq_nil_iff.mp hnone) Nat.toDigits_ne_nil
  · next hzero =>
    -- A zero in front of another digit has not been written.
    rw [hdigits] at hzero
    rcases toDigits_cases n with ⟨c, hone⟩ | ⟨c, c', cs, hmore, hne⟩
    · simp [hone] at hzero
    · rw [hmore, List.map_cons, List.cons.injEq] at hzero
      have hdigit : c.isDigit = true := hall c (hmore ▸ List.mem_cons_self)
      exact absurd (eq_zero_of_isDigit hdigit hzero.1) hne
  · rw [hdigits, hafter, hgather]
    cases d with
    | nil => rfl
    | cons g d =>
      obtain ⟨-, hpoint, hmark⟩ := hd
      dsimp only
      split
      · next rest hrest =>
        cases hrest
        exact absurd rfl hpoint
      · rw [List.head?_cons, Option.map_some, hmark]
        rfl

end EdgeSync.Json
