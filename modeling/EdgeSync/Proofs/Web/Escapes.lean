import EdgeSync.Web.Percent
import Mathlib.Data.List.Flatten

/-!
# What Escapes Stand For

Escaping a part of an address does not change what it stands for. A text stands for its own bytes
exactly if there is no escape in it; with escapes it stands for fewer bytes.

## Main definitions

- `bytes`: the bytes of a text
- `StartsHex`, `HasNoEscape`: where escapes are

## Main results

- `unescape_escape`: escaping changes nothing
- `unescape_eq_bytes_iff`, `length_unescape_le`: what a text stands for, and its own bytes
- `unescapeText?_eq_some_iff`: the text that a text stands for
-/

namespace EdgeSync.Web

variable {c : Char} {cs ds rest marks : List Char}

/-! ## Bytes -/

/-- The bytes of a text. -/
def bytes (cs : List Char) : List UInt8 :=
  cs.flatMap String.utf8EncodeChar

theorem bytes_cons (c : Char) (cs : List Char) :
    bytes (c :: cs) = String.utf8EncodeChar c ++ bytes cs :=
  List.flatMap_cons

theorem utf8EncodeChar_length_pos (c : Char) : 0 < (String.utf8EncodeChar c).length := by
  rw [String.length_utf8EncodeChar]
  exact c.utf8Size_pos

/-- Any other part of a text has fewer bytes. -/
theorem eq_of_sublist_of_bytes (h : cs.Sublist ds)
    (hbytes : (bytes ds).length ≤ (bytes cs).length) : cs = ds := by
  have hle : ∀ {cs ds : List Char}, cs.Sublist ds → (bytes cs).length ≤ (bytes ds).length :=
    fun hsub => (hsub.flatMap _).length_le
  induction h with
  | slnil => rfl
  | cons d hsub ih =>
    -- A character that is left out has a byte at least.
    rw [bytes_cons, List.length_append] at hbytes
    have hpos := utf8EncodeChar_length_pos d
    have hshorter := hle hsub
    omega
  | cons_cons d hsub ih =>
    rw [bytes_cons, bytes_cons, List.length_append, List.length_append] at hbytes
    rw [ih (Nat.le_of_add_le_add_left hbytes)]

/-! ## Escapes -/

/-- A text begins with two hexadecimal digits. -/
def StartsHex : List Char → Prop
  | a :: b :: _ => (hexDigit? a).isSome ∧ (hexDigit? b).isSome
  | _ => False

/-- No percent sign begins an escape. -/
def HasNoEscape (cs : List Char) : Prop :=
  ∀ front rest, cs = front ++ '%' :: rest → ¬ StartsHex rest

/-- A character that begins no escape stands for itself. -/
theorem unescape_plain (h : c = '%' → ¬ StartsHex rest) :
    unescape (c :: rest) = String.utf8EncodeChar c ++ unescape rest := by
  by_cases hc : c = '%'
  · subst hc
    have hpercent : String.utf8EncodeChar '%' = [0x25] := rfl
    rw [hpercent, List.singleton_append]
    rcases rest with _ | ⟨a, _ | ⟨b, rest⟩⟩
    · rfl
    · rfl
    · rw [unescape]
      cases ha : hexDigit? a with
      | none => rfl
      | some high =>
        cases hb : hexDigit? b with
        | none => rfl
        | some low => exact absurd ⟨by rw [ha]; rfl, by rw [hb]; rfl⟩ (h rfl)
  · rw [unescape]
    rintro a b rest' rfl
    exact absurd rfl hc

theorem unescape_hex {a b : Char} {high low : Nat} (ha : hexDigit? a = some high)
    (hb : hexDigit? b = some low) (rest : List Char) :
    unescape ('%' :: a :: b :: rest) = UInt8.ofNat (16 * high + low) :: unescape rest := by
  rw [unescape, ha, hb]

/-- An escape stands for one byte. -/
theorem exists_unescape_hex {a b : Char} (h : StartsHex (a :: b :: rest)) :
    ∃ byte, unescape ('%' :: a :: b :: rest) = byte :: unescape rest := by
  obtain ⟨high, ha⟩ := Option.isSome_iff_exists.mp h.1
  obtain ⟨low, hb⟩ := Option.isSome_iff_exists.mp h.2
  exact ⟨_, unescape_hex ha hb rest⟩

/-- A text is read character by character, except where there is an escape. -/
theorem escapes_induction {motive : List Char → Prop} (nil : motive [])
    (plain : ∀ c rest, (c = '%' → ¬ StartsHex rest) → motive rest → motive (c :: rest))
    (hex : ∀ a b rest, StartsHex (a :: b :: rest) → motive rest → motive ('%' :: a :: b :: rest))
    (cs : List Char) : motive cs := by
  -- By induction on the length, as an escape is three characters long.
  induction hlength : cs.length using Nat.strongRecOn generalizing cs with
  | ind length ih =>
    subst hlength
    rcases cs with _ | ⟨c, rest⟩
    · exact nil
    · by_cases hescape : c = '%' ∧ StartsHex rest
      · obtain ⟨rfl, hhex⟩ := hescape
        rcases rest with _ | ⟨a, _ | ⟨b, rest⟩⟩
        · exact hhex.elim
        · exact hhex.elim
        · exact hex a b rest hhex (ih rest.length (by simp only [List.length_cons]; omega) rest rfl)
      · exact plain c rest (fun hc hhex => hescape ⟨hc, hhex⟩)
          (ih rest.length (by simp) rest rfl)

theorem hexDigit?_upperHexDigit : ∀ n < 16, hexDigit? (upperHexDigit n) = some n := by
  decide

/-- An escaped byte stands for itself. -/
theorem unescape_escapeByte (byte : UInt8) (rest : List Char) :
    unescape (escapeByte byte ++ rest) = byte :: unescape rest := by
  have hbyte := byte.toNat_lt
  have hhigh := hexDigit?_upperHexDigit (byte.toNat / 16) (by omega)
  have hlow := hexDigit?_upperHexDigit (byte.toNat % 16) (by omega)
  have hsum : 16 * (byte.toNat / 16) + byte.toNat % 16 = byte.toNat := Nat.div_add_mod _ 16
  exact (unescape_hex hhigh hlow rest).trans (by rw [hsum, UInt8.ofNat_toNat])

theorem unescape_escapeBytes (all : List UInt8) (rest : List Char) :
    unescape (all.flatMap escapeByte ++ rest) = all ++ unescape rest := by
  induction all with
  | nil => rfl
  | cons byte all ih =>
    rw [List.flatMap_cons, List.append_assoc, unescape_escapeByte, ih, List.cons_append]

/-! ## Escaping -/

/-- Neither percent signs nor hexadecimal digits must be escaped. -/
def IsSafe (marks : List Char) : Prop :=
  ∀ c ∈ marks, c ≠ '%' ∧ hexDigit? c = none

theorem isSafe_pathMarks : IsSafe pathMarks := by
  have hall : (pathMarks.all fun c => c != '%' && (hexDigit? c).isNone) = true := rfl
  intro c hc
  simpa using List.all_eq_true.mp hall c hc

theorem hexDigit?_eq_none (h : c.toNat < 0x30 ∨ 0x66 < c.toNat) : hexDigit? c = none := by
  have hle : ∀ a b : Char, a ≤ b ↔ a.toNat ≤ b.toNat := fun a b => Iff.rfl
  simp only [hexDigit?, hle]
  have hdigits : ('0'.toNat, '9'.toNat, 'a'.toNat, 'f'.toNat, 'A'.toNat, 'F'.toNat) =
      (0x30, 0x39, 0x61, 0x66, 0x41, 0x46) := rfl
  simp only [Prod.mk.injEq] at hdigits
  rw [if_neg (by omega), if_neg (by omega), if_neg (by omega)]

/-- What is escaped is neither a percent sign nor a hexadecimal digit. -/
theorem IsSafe.of_needsEscape (hmarks : IsSafe marks) (h : needsEscape marks c = true) :
    c ≠ '%' ∧ hexDigit? c = none := by
  rcases Bool.or_eq_true_iff.mp h with hrange | hmark
  · have hout : c.toNat < 0x20 ∨ 0x7e < c.toNat := by
      simp only [isControl, Bool.or_eq_true, decide_eq_true_eq, beq_iff_eq] at hrange
      omega
    refine ⟨?_, hexDigit?_eq_none (by omega)⟩
    rintro rfl
    exact absurd hout (by decide)
  · exact hmarks c (List.contains_iff_mem.mp hmark)

/-- An escaped character is itself, or begins with a percent sign and is no digit. -/
theorem IsSafe.escapeChar_cases (hmarks : IsSafe marks) (c : Char) :
    escapeChar marks c = [c] ∨ hexDigit? c = none ∧ ∃ more, escapeChar marks c = '%' :: more := by
  unfold escapeChar
  split
  · next hneeds =>
    refine .inr ⟨(hmarks.of_needsEscape hneeds).2, ?_⟩
    obtain ⟨byte, all, hall⟩ :=
      List.exists_cons_of_length_pos (utf8EncodeChar_length_pos c)
    rw [hall]
    exact ⟨_, rfl⟩
  · exact .inl rfl

/-- Escaping makes no digits and takes none away. -/
theorem IsSafe.startsHex_escape (hmarks : IsSafe marks) :
    StartsHex (escape marks cs) ↔ StartsHex cs := by
  have hpercent : ∀ more, ¬ StartsHex ('%' :: more) := by
    rintro (_ | ⟨b, more⟩) h
    · exact h
    · exact absurd h.1 (by decide)
  have hsecond : ∀ a more, ¬ StartsHex (a :: '%' :: more) := fun a more h => absurd h.2 (by decide)
  rcases cs with _ | ⟨a, cs⟩
  · exact Iff.rfl
  · rw [escape, List.flatMap_cons]
    -- Neither of the first two characters is a digit after it was escaped.
    rcases hmarks.escapeChar_cases a with ha | ⟨hnone, more, ha⟩
    · rw [ha, List.singleton_append]
      rcases cs with _ | ⟨b, cs⟩
      · exact Iff.rfl
      · rw [List.flatMap_cons]
        rcases hmarks.escapeChar_cases b with hb | ⟨hnone, more, hb⟩
        · rw [hb]
          exact Iff.rfl
        · rw [hb]
          refine iff_of_false (hsecond a _) fun h => ?_
          rw [StartsHex, hnone] at h
          exact absurd h.2 (by decide)
    · rw [ha]
      refine iff_of_false (hpercent _) fun h => ?_
      rcases cs with _ | ⟨b, cs⟩
      · exact h
      · rw [StartsHex, hnone] at h
        exact absurd h.1 (by decide)

/-- Percent signs and digits stay as they are. -/
theorem IsSafe.escape_cons (hmarks : IsSafe marks) (h : c = '%' ∨ (hexDigit? c).isSome)
    (cs : List Char) : escape marks (c :: cs) = c :: escape marks cs := by
  have hneeds : needsEscape marks c = false := by
    rw [← Bool.not_eq_true]
    intro hneeds
    obtain ⟨hpercent, hdigit⟩ := hmarks.of_needsEscape hneeds
    rw [hdigit] at h
    exact h.elim hpercent nofun
  have hself : escapeChar marks c = [c] := by simp [escapeChar, hneeds]
  rw [escape, List.flatMap_cons, hself, List.singleton_append, escape]

/-- Escaping does not change what a text stands for. -/
theorem IsSafe.unescape_escape (hmarks : IsSafe marks) (cs : List Char) :
    unescape (escape marks cs) = unescape cs := by
  induction cs using escapes_induction with
  | nil => rfl
  | plain c rest hplain ih =>
    -- The percent sign of an escaped byte begins an escape, one of the text still does not.
    rw [unescape_plain hplain, ← ih, escape, List.flatMap_cons, ← escape]
    unfold escapeChar
    split
    · exact unescape_escapeBytes _ _
    · exact unescape_plain fun hc hhex => hplain hc (hmarks.startsHex_escape.mp hhex)
  | hex a b rest hhex ih =>
    obtain ⟨high, ha⟩ := Option.isSome_iff_exists.mp hhex.1
    obtain ⟨low, hb⟩ := Option.isSome_iff_exists.mp hhex.2
    rw [hmarks.escape_cons (.inl rfl), hmarks.escape_cons (.inr hhex.1),
      hmarks.escape_cons (.inr hhex.2), unescape_hex ha hb, unescape_hex ha hb, ih]

/-! ## Texts Without Escapes -/

theorem hasNoEscape_cons :
    HasNoEscape (c :: rest) ↔ (c = '%' → ¬ StartsHex rest) ∧ HasNoEscape rest := by
  constructor
  · intro h
    refine ⟨?_, fun front more heq => h (c :: front) more (by rw [heq]; rfl)⟩
    rintro rfl
    exact h [] rest rfl
  · rintro ⟨hfirst, hrest⟩ front more heq
    cases front with
    | nil =>
      cases heq
      exact hfirst rfl
    | cons d front =>
      cases heq
      exact hrest front more rfl

/-- A text does not stand for more bytes than it has. -/
theorem length_unescape_le (cs : List Char) : (unescape cs).length ≤ (bytes cs).length := by
  induction cs using escapes_induction with
  | nil => exact Nat.le_refl _
  | plain c rest hplain ih =>
    rw [unescape_plain hplain, bytes_cons, List.length_append, List.length_append]
    exact Nat.add_le_add_left ih _
  | hex a b rest hhex ih =>
    obtain ⟨byte, heq⟩ := exists_unescape_hex hhex
    have hpos := utf8EncodeChar_length_pos '%'
    rw [heq]
    simp only [bytes_cons, List.length_append, List.length_cons]
    omega

/-- A text stands for its own bytes if and only if there is no escape in it. -/
theorem unescape_eq_bytes_iff : unescape cs = bytes cs ↔ HasNoEscape cs := by
  induction cs using escapes_induction with
  | nil => exact iff_of_true rfl fun front rest heq => absurd heq (by simp)
  | plain c rest hplain ih =>
    rw [unescape_plain hplain, bytes_cons, List.append_cancel_left_eq, hasNoEscape_cons, ih]
    exact (and_iff_right hplain).symm
  | hex a b rest hhex ih =>
    -- One byte stands for three characters.
    refine iff_of_false (fun heq => ?_) fun hnone => hnone [] _ rfl hhex
    obtain ⟨byte, hbyte⟩ := exists_unescape_hex hhex
    have hlength := congrArg List.length (hbyte.symm.trans heq)
    have hrest := length_unescape_le rest
    have hpercent := utf8EncodeChar_length_pos '%'
    have hfirst := utf8EncodeChar_length_pos a
    simp only [bytes_cons, List.length_append, List.length_cons] at hlength
    omega

/-! ## Texts -/

theorem toUTF8_toList (text : String) : text.toUTF8.data.toList = bytes text.toList := by
  have hencoded : text.toUTF8 = ((bytes text.toList).toByteArray) :=
    (String.utf8Encode_toList).symm
  rw [hencoded, List.data_toByteArray]

/-- A text stands for another one if it stands for its bytes. -/
theorem unescapeText?_eq_some_iff {text : String} :
    unescapeText? cs = some text ↔ unescape cs = bytes text.toList := by
  rw [← toUTF8_toList, unescapeText?, String.fromUTF8?]
  constructor
  · intro h
    split at h
    · cases h
      rfl
    · cases h
  · intro h
    rw [h]
    exact dif_pos text.isValidUTF8

end EdgeSync.Web
