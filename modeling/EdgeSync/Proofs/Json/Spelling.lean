import EdgeSync.Json.Scan
import EdgeSync.Json.Value

/-!
# Spellings

A value has many spellings: between any two lexemes there may be blanks. The compact form
and the form over several lines are two of them, so whatever is shown of all spellings holds
for both.

## Main definitions

- `Spells`: a text spells a value
- `glyphs`: a text as the front of a document

## Main results

- `spells_writeCompact`, `spells_writePretty`: both forms are spellings
- `Spells.opening`: what a spelling begins with
-/

namespace EdgeSync.Json

open EdgeSync.Text

/-! ## Blanks -/

/-- A text of blanks that may stand between lexemes. -/
def IsGap (gap : List Char) : Prop :=
  ∀ c ∈ gap, isGap (.char c) = true

/-- A text as the front of a document. -/
def glyphs (cs : List Char) : Document :=
  cs.map Glyph.char

@[simp] theorem glyphs_nil : glyphs [] = [] := rfl

@[simp] theorem glyphs_cons (c : Char) (cs : List Char) :
    glyphs (c :: cs) = .char c :: glyphs cs := rfl

@[simp] theorem glyphs_append (cs ds : List Char) : glyphs (cs ++ ds) = glyphs cs ++ glyphs ds :=
  List.map_append

theorem isGap_nil : IsGap [] := nofun

theorem isGap_blank : IsGap [' '] := by
  intro c hc
  rw [List.mem_singleton.mp hc]
  rfl

theorem isGap_newLine (level : Nat) : IsGap (Value.newLine level) := by
  intro c hc
  rcases List.mem_cons.mp hc with rfl | hblank
  · rfl
  · rw [List.eq_of_mem_replicate hblank]
    rfl

/-- The blanks in front of a document do not matter. -/
theorem skipGap_gap {gap : List Char} (h : IsGap gap) (d : Document) :
    skipGap (glyphs gap ++ d) = skipGap d := by
  refine List.dropWhile_append_of_pos ?_
  intro g hg
  obtain ⟨c, hc, rfl⟩ := List.mem_map.mp hg
  exact h c hc

theorem skipGap_of_not_gap {g : Glyph} (h : isGap g = false) (d : Document) :
    skipGap (g :: d) = g :: d := by
  simp [skipGap, h]

/-! ## Spellings of Values -/

/-- What may stand before an item of a list or a member of an object: before the first one
blanks only, before a further one a comma. -/
inductive Lead : Bool → List Char → Prop where
  | first {gap : List Char} (hgap : IsGap gap) : Lead true gap
  | further {before gap : List Char} (hbefore : IsGap before) (hgap : IsGap gap) :
      Lead false (before ++ ',' :: gap)

mutual

/-- A text spells a value. -/
inductive Spells : Value → List Char → Prop where
  | null : Spells .null ['n', 'u', 'l', 'l']
  | flag (value : Bool) : Spells (.flag value) (Value.writeFlag value)
  | natural (n : Nat) : Spells (.natural n) (Nat.toDigits 10 n)
  | text (s : String) : Spells (.text s) (Value.writeText s)
  | list {items : List Value} {cs : List Char} (hitems : SpellsItems true items cs) :
      Spells (.list items) ('[' :: cs)
  | object {members : List (String × Value)} {cs : List Char}
      (hmembers : SpellsMembers true members cs) : Spells (.object members) ('\x7b' :: cs)

/-- A text spells the items of a list that are to come, the first of all or further ones, and
the closing bracket. -/
inductive SpellsItems : Bool → List Value → List Char → Prop where
  | close (isFirst : Bool) {gap : List Char} (hgap : IsGap gap) :
      SpellsItems isFirst [] (gap ++ [']'])
  | item {isFirst : Bool} {lead cs more : List Char} {item : Value} {items : List Value}
      (hlead : Lead isFirst lead) (hitem : Spells item cs) (hitems : SpellsItems false items more) :
      SpellsItems isFirst (item :: items) (lead ++ (cs ++ more))

/-- A text spells the members of an object that are to come, the first of all or further ones,
and the closing brace. -/
inductive SpellsMembers : Bool → List (String × Value) → List Char → Prop where
  | close (isFirst : Bool) {gap : List Char} (hgap : IsGap gap) :
      SpellsMembers isFirst [] (gap ++ ['\x7d'])
  | member (key : String) {isFirst : Bool} {lead before gap cs more : List Char} {value : Value}
      {members : List (String × Value)} (hlead : Lead isFirst lead) (hbefore : IsGap before)
      (hgap : IsGap gap) (hvalue : Spells value cs) (hmembers : SpellsMembers false members more) :
      SpellsMembers isFirst ((key, value) :: members)
        (lead ++ (Value.writeText key ++ (before ++ ':' :: (gap ++ (cs ++ more)))))

end

/-- What a spelling begins with: no blank and no closing bracket, and for no other value than
`null` the first letter of that word. -/
theorem Spells.opening {v : Value} {cs : List Char} (h : Spells v cs) :
    ∃ c more, cs = c :: more ∧ isGap (.char c) = false ∧ c ≠ ']' ∧ c ≠ '\x7d' ∧
      (c = 'n' → v = .null) := by
  cases h with
  | null => exact ⟨'n', _, rfl, rfl, by decide, by decide, fun _ => rfl⟩
  | flag value =>
    cases value with
    | false => exact ⟨'f', _, rfl, rfl, by decide, by decide, nofun⟩
    | true => exact ⟨'t', _, rfl, rfl, by decide, by decide, nofun⟩
  | natural n =>
    obtain ⟨c, more, hcs⟩ := List.exists_cons_of_ne_nil (Nat.toDigits_ne_nil (n := n) (b := 10))
    have hdigit : c.isDigit = true := by
      refine Nat.isDigit_of_mem_toDigits (b := 10) (n := n) (by decide) (by decide) ?_
      rw [hcs]
      exact List.mem_cons_self
    -- None of the characters in question is a digit.
    have hne : ∀ d : Char, d.isDigit = false → c ≠ d := by
      rintro d hd rfl
      rw [hd] at hdigit
      cases hdigit
    refine ⟨c, more, hcs, ?_, hne _ rfl, hne _ rfl, fun hn => absurd hn (hne _ rfl)⟩
    simp [isGap, hne ' ' rfl, hne '\t' rfl, hne '\n' rfl, hne '\r' rfl]
  | text s => exact ⟨'"', _, rfl, rfl, by decide, by decide, nofun⟩
  | list hitems => exact ⟨'[', _, rfl, rfl, by decide, by decide, nofun⟩
  | object hmembers => exact ⟨'\x7b', _, rfl, rfl, by decide, by decide, nofun⟩

/-! ## The Compact Form -/

theorem lead_compact : Lead false [','] :=
  .further isGap_nil isGap_nil

mutual

theorem spells_writeCompact : (v : Value) → Spells v v.writeCompact
  | .null => .null
  | .flag value => .flag value
  | .natural n => .natural n
  | .text s => .text s
  | .list [] => .list (.close true isGap_nil)
  | .list (item :: items) =>
    .list (.item (.first isGap_nil) (spells_writeCompact item) (spellsItems_compactItems items))
  | .object [] => .object (.close true isGap_nil)
  | .object ((key, value) :: members) => by
    have hmembers := SpellsMembers.member key (.first isGap_nil) isGap_nil isGap_nil
      (spells_writeCompact value) (spellsMembers_compactMembers members)
    simpa [Value.writeCompact] using Spells.object hmembers

theorem spellsItems_compactItems :
    (items : List Value) → SpellsItems false items (Value.compactItems items)
  | [] => .close false isGap_nil
  | item :: items =>
    .item lead_compact (spells_writeCompact item) (spellsItems_compactItems items)

theorem spellsMembers_compactMembers :
    (members : List (String × Value)) → SpellsMembers false members (Value.compactMembers members)
  | [] => .close false isGap_nil
  | (key, value) :: members => by
    have hmembers := SpellsMembers.member key lead_compact isGap_nil isGap_nil
      (spells_writeCompact value) (spellsMembers_compactMembers members)
    simpa [Value.compactMembers] using hmembers

end

/-! ## The Form Over Several Lines -/

theorem lead_newLine (level : Nat) : Lead false (',' :: Value.newLine level) :=
  .further isGap_nil (isGap_newLine level)

mutual

theorem spells_writePretty (level : Nat) : (v : Value) → Spells v (v.writePretty level)
  | .null => .null
  | .flag value => .flag value
  | .natural n => .natural n
  | .text s => .text s
  | .list [] => .list (.close true isGap_nil)
  | .list (item :: items) => by
    have hitems := SpellsItems.item (.first (isGap_newLine (level + 1)))
      (spells_writePretty (level + 1) item) (spellsItems_prettyItems level items)
    simpa [Value.writePretty] using Spells.list hitems
  | .object [] => .object (.close true isGap_nil)
  | .object ((key, value) :: members) => by
    have hmembers := SpellsMembers.member key (.first (isGap_newLine (level + 1)))
      isGap_nil isGap_blank (spells_writePretty (level + 1) value)
      (spellsMembers_prettyMembers level members)
    simpa [Value.writePretty] using Spells.object hmembers

theorem spellsItems_prettyItems (level : Nat) :
    (items : List Value) → SpellsItems false items (Value.prettyItems level items)
  | [] => .close false (isGap_newLine level)
  | item :: items => by
    have hitems := SpellsItems.item (lead_newLine (level + 1))
      (spells_writePretty (level + 1) item) (spellsItems_prettyItems level items)
    simpa [Value.prettyItems] using hitems

theorem spellsMembers_prettyMembers (level : Nat) : (members : List (String × Value)) →
    SpellsMembers false members (Value.prettyMembers level members)
  | [] => .close false (isGap_newLine level)
  | (key, value) :: members => by
    have hmembers := SpellsMembers.member key (lead_newLine (level + 1)) isGap_nil
      isGap_blank (spells_writePretty (level + 1) value)
      (spellsMembers_prettyMembers level members)
    simpa [Value.prettyMembers] using hmembers

end

end EdgeSync.Json
