import EdgeSync.Json.Skip

/-!
# JSON Readers

A reader takes one value of a fixed type from the front of a document. It comes
with the proof that it takes at least one glyph, so that lists and records of
values can be read by recursion on the length of the document.

## Main definitions

- `Reader`: a function on documents with that proof
- `Reader.text`, `Reader.flag`, `Reader.natural`: readers of simple values
- `Reader.orNull`, `Reader.list`: readers built from readers
- `Reader.readAll`: read a whole document
-/

namespace EdgeSync.Json

open EdgeSync.Text

/-- A function that takes a value from the front of a document. -/
structure Reader (α : Type) where
  run : Document → Except Fault (α × Document)
  shorter : ∀ {d r : Document} {a : α}, run d = .ok (a, r) → r.length < d.length

/-! ## Values of the wrong kind -/

/-- What stands at the front of a document, or the fault met in reading it. -/
def found (g : Glyph) (d : Document) : Except Fault Found :=
  match g with
  | .char 'n' => (scanWord ['u', 'l', 'l'] d).map fun _ => .null
  | .char 't' => (scanWord ['r', 'u', 'e'] d).map fun _ => .flag true
  | .char 'f' => (scanWord ['a', 'l', 's', 'e'] d).map fun _ => .flag false
  | .char '-' => (scanNumber true d).map fun r => .number r.1
  | .char '"' => (scanText d).map fun r => .text r.1
  | .char '[' => .ok .list
  | .char '\x7b' => .ok .object
  | g =>
    if isDigit g then (scanNumber false (g :: d)).map fun r => .number r.1
    else .error .valueExpected

/-- The fault of a value that does not fit its place. -/
def refusal (expected : Expected) (g : Glyph) (d : Document) : Fault :=
  match found g d with
  | .error fault => fault
  | .ok value => .mismatch value expected

/-! ## Lengths -/

private theorem map_eq_ok {α β ε : Type} {f : α → β} {x : Except ε α} {b : β}
    (h : x.map f = .ok b) : ∃ a, x = .ok a ∧ f a = b := by
  cases x with
  | error e => simp [Except.map] at h
  | ok a => exact ⟨a, rfl, by simpa [Except.map] using h⟩

theorem length_scanGlyphs_lt {d r : Document} {gs : List Glyph}
    (h : scanGlyphs d = .ok (gs, r)) : r.length < d.length := by
  fun_induction scanGlyphs d generalizing gs r with
  | case1 => simp at h
  | case2 => simp only [Except.ok.injEq, Prod.mk.injEq] at h; simp [← h.2]
  | case3 => simp at h
  | case4 => simp_all
  | case5 d' c afterEscape _ hlt gs' r' hr _ ih =>
    simp only [Except.ok.injEq, Prod.mk.injEq] at h
    have := ih hr
    rw [← h.2, List.length_cons]
    omega
  | case6 => simp at h
  | case7 => simp_all
  | case8 g d' _ _ _ gs' r' hr ih =>
    simp only [Except.ok.injEq, Prod.mk.injEq] at h
    have := ih hr
    rw [← h.2, List.length_cons]
    omega

theorem length_scanText_lt {d r : Document} {s : String} (h : scanText d = .ok (s, r)) :
    r.length < d.length := by
  unfold scanText at h
  split at h
  · simp at h
  · rename_i gs r' hgs
    have := length_scanGlyphs_lt hgs
    split at h
    · simp only [Except.ok.injEq, Prod.mk.injEq] at h
      rw [← h.2]; exact this
    · simp at h

private theorem length_scanExponent_le {n : Bool} {s : Nat} {e : Int} {d r : Document}
    {x : Number} (h : scanExponent n s e d = .ok (x, r)) : r.length ≤ d.length := by
  have h0 := length_exponentSign_le d
  have h1 := length_afterDigits_le (exponentSign d).2
  unfold scanExponent at h
  simp only at h
  split at h
  · simp at h
  · simp at h
  · split at h
    · split at h
      · simp at h
      · simp only [Except.ok.injEq, Prod.mk.injEq] at h
        rw [← h.2]; omega
    · split at h
      · simp at h
      · simp only [Except.ok.injEq, Prod.mk.injEq] at h
        rw [← h.2]; omega

private theorem length_scanScale_le {n : Bool} {s : Nat} {e : Int} {d r : Document}
    {x : Number} (h : scanScale n s e d = .ok (x, r)) : r.length ≤ d.length := by
  cases d with
  | nil =>
    simp only [scanScale] at h
    obtain ⟨a, _, ha⟩ := map_eq_ok h
    simp only [Prod.mk.injEq] at ha
    simp [← ha.2]
  | cons g d =>
    simp only [scanScale] at h
    split at h
    · exact Nat.le_succ_of_le (length_scanExponent_le h)
    · obtain ⟨a, _, ha⟩ := map_eq_ok h
      simp only [Prod.mk.injEq] at ha
      simp [← ha.2]

private theorem length_scanFraction_le {n : Bool} {s : Nat} {e : Int} {d r : Document}
    {x : Number} (h : scanFraction n s e d = .ok (x, r)) : r.length ≤ d.length := by
  unfold scanFraction at h
  split at h
  · simp at h
  · simp at h
  · exact Nat.le_trans (length_scanScale_le h) (length_afterDigits_le _)

theorem length_scanNumber_lt {n : Bool} {d r : Document} {x : Number}
    (h : scanNumber n d = .ok (x, r)) : r.length < d.length := by
  unfold scanNumber at h
  split at h
  · simp at h
  · simp at h
  · simp at h
  · rename_i d0 _ _ _ hnil hcons
    have hne : digits d0 ≠ [] := by
      intro he
      cases d0 with
      | nil => exact hnil he rfl
      | cons g t => exact hcons g t he rfl
    have h0 := length_afterDigits_lt hne
    simp only at h
    split at h
    · rename_i rest hrest
      have := length_scanFraction_le h
      rw [hrest, List.length_cons] at h0
      omega
    · split at h
      · have := length_scanScale_le h
        omega
      · split at h
        · obtain ⟨a, _, ha⟩ := map_eq_ok h
          simp only [Prod.mk.injEq] at ha
          rw [← ha.2]; exact h0
        · have := length_scanScale_le h
          omega

/-! ## Simple values -/

namespace Reader

/-- A reader that looks at the first glyph after a gap. -/
def ofGlyph {α : Type} (read : Glyph → Document → Except Fault (α × Document))
    (short : ∀ {g d r a}, read g d = .ok (a, r) → r.length ≤ d.length) : Reader α where
  run d :=
    match skipGap d with
    | [] => .error .endInValue
    | g :: rest => read g rest
  shorter := by
    intro d r a h
    split at h
    · simp at h
    · rename_i g rest hg
      exact Nat.lt_of_le_of_lt (short h) (length_lt_of_skipGap hg)

/-- Read a text. -/
def text : Reader String :=
  ofGlyph
    (fun g d => if g = .char '"' then scanText d else .error (refusal .text g d))
    (by
      intro g d r a h
      split at h
      · exact Nat.le_of_lt (length_scanText_lt h)
      · simp at h)

/-- Read a truth value. -/
def flag : Reader Bool :=
  ofGlyph
    (fun g d =>
      if g = .char 't' then (scanWord ['r', 'u', 'e'] d).map (true, ·)
      else if g = .char 'f' then (scanWord ['a', 'l', 's', 'e'] d).map (false, ·)
      else .error (refusal .flag g d))
    (by
      intro g d r a h
      split at h
      · obtain ⟨r', hr, he⟩ := map_eq_ok h
        simp only [Prod.mk.injEq] at he
        rw [← he.2]; exact length_scanWord_le hr
      · split at h
        · obtain ⟨r', hr, he⟩ := map_eq_ok h
          simp only [Prod.mk.injEq] at he
          rw [← he.2]; exact length_scanWord_le hr
        · simp at h)

/-- A number as a natural number. -/
def toNatural : Number × Document → Except Fault (Nat × Document)
  | (.natural n, d) => .ok (n, d)
  | (.negative n, _) => .error (.outOfDomain n .natural)
  | (n, _) => .error (.mismatch (.number n) .natural)

private theorem toNatural_eq_ok {p : Number × Document} {n : Nat} {r : Document}
    (h : toNatural p = .ok (n, r)) : p.2 = r := by
  unfold toNatural at h
  split at h
  · simp only [Except.ok.injEq, Prod.mk.injEq] at h; exact h.2
  · simp at h
  · simp at h

/-- Read a natural number. -/
def natural : Reader Nat :=
  ofGlyph
    (fun g d =>
      if g = .char '-' then
        match scanNumber true d with
        | .error fault => .error fault
        | .ok p => toNatural p
      else if isDigit g then
        match scanNumber false (g :: d) with
        | .error fault => .error fault
        | .ok p => toNatural p
      else .error (refusal .natural g d))
    (by
      intro g d r a h
      split at h
      · split at h
        · simp at h
        · rename_i p hp
          have := length_scanNumber_lt (x := p.1) (r := p.2) hp
          rw [toNatural_eq_ok h] at this
          omega
      · split at h
        · split at h
          · simp at h
          · rename_i p hp
            have := length_scanNumber_lt (x := p.1) (r := p.2) hp
            rw [toNatural_eq_ok h, List.length_cons] at this
            omega
        · simp at h)

/-! ## Readers from readers -/

/-- Apply a function to the value read. -/
def map {α β : Type} (f : α → β) (reader : Reader α) : Reader β where
  run d := (reader.run d).map fun p => (f p.1, p.2)
  shorter := by
    intro d r b h
    obtain ⟨p, hp, he⟩ := map_eq_ok h
    simp only [Prod.mk.injEq] at he
    rw [← he.2]
    exact reader.shorter hp

/-- Read `null` as a given value. -/
def orNull {α : Type} (absent : α) (reader : Reader α) : Reader α where
  run d :=
    match skipGap d with
    | [] => .error .endInValue
    | g :: rest =>
      if g = .char 'n' then (scanWord ['u', 'l', 'l'] rest).map (absent, ·)
      else reader.run (g :: rest)
  shorter := by
    intro d r a h
    split at h
    · simp at h
    · rename_i g rest hg
      have h0 := length_lt_of_skipGap hg
      split at h
      · obtain ⟨r', hr, he⟩ := map_eq_ok h
        simp only [Prod.mk.injEq] at he
        rw [← he.2]
        exact Nat.lt_of_le_of_lt (length_scanWord_le hr) h0
      · have := reader.shorter h
        rw [List.length_cons] at this
        omega

/-! ## Lists -/

/-- The continuation of a list: its end, or a place before a further item. -/
inductive NextItem where
  | stop (rest : Document)
  | item (d : Document)

/-- Go to the next item of a list. -/
def nextItem (isFirst : Bool) (d : Document) : Except Fault NextItem :=
  match skipGap d with
  | [] => .error .endInList
  | g :: rest =>
    if g = .char ']' then .ok (.stop rest)
    else if isFirst then .ok (.item (g :: rest))
    else if g = .char ',' then
      match skipGap rest with
      | [] => .error .endInValue
      | g :: rest => if g = .char ']' then .error .trailingComma else .ok (.item (g :: rest))
    else .error .commaOrBracketExpected

theorem length_nextItem_stop {isFirst : Bool} {d rest : Document}
    (h : nextItem isFirst d = .ok (.stop rest)) : rest.length < d.length := by
  unfold nextItem at h
  split at h
  · simp at h
  · rename_i g r hg
    have h0 := length_lt_of_skipGap hg
    split at h
    · simp only [Except.ok.injEq, NextItem.stop.injEq] at h; rw [← h]; exact h0
    · split at h
      · simp at h
      · split at h
        · split at h
          · simp at h
          · split at h <;> simp at h
        · simp at h

theorem length_nextItem_item {isFirst : Bool} {d d' : Document}
    (h : nextItem isFirst d = .ok (.item d')) : d'.length ≤ d.length := by
  unfold nextItem at h
  split at h
  · simp at h
  · rename_i g r hg
    have h0 := length_lt_of_skipGap hg
    split at h
    · simp at h
    · split at h
      · simp only [Except.ok.injEq, NextItem.item.injEq] at h
        rw [← h, List.length_cons]; omega
      · split at h
        · split at h
          · simp at h
          · rename_i g' r' hg'
            have h1 := length_lt_of_skipGap hg'
            split at h
            · simp at h
            · simp only [Except.ok.injEq, NextItem.item.injEq] at h
              rw [← h, List.length_cons]; omega
        · simp at h

/-- The items of a list up to its closing bracket. -/
def readItems {α : Type} (reader : Reader α) (isFirst : Bool) (d : Document) :
    Except Fault (List α × Document) :=
  match hn : nextItem isFirst d with
  | .error fault => .error fault
  | .ok (.stop rest) => .ok ([], rest)
  | .ok (.item d') =>
    match hr : reader.run d' with
    | .error fault => .error fault
    | .ok (a, r) =>
      have := Nat.lt_of_lt_of_le (reader.shorter hr) (length_nextItem_item hn)
      match readItems reader false r with
      | .error fault => .error fault
      | .ok (as, r) => .ok (a :: as, r)
termination_by d.length

theorem length_readItems_lt {α : Type} {reader : Reader α} {isFirst : Bool}
    {d r : Document} {as : List α} (h : readItems reader isFirst d = .ok (as, r)) :
    r.length < d.length := by
  fun_induction readItems reader isFirst d generalizing as r with
  | case1 => simp at h
  | case2 isFirst d rest hn =>
    simp only [Except.ok.injEq, Prod.mk.injEq] at h
    rw [← h.2]; exact length_nextItem_stop hn
  | case3 => simp at h
  | case4 => simp_all
  | case5 isFirst d d' hn a r' hr hlt as' r'' hrest ih =>
    simp only [Except.ok.injEq, Prod.mk.injEq] at h
    have := ih hrest
    rw [← h.2]
    omega

/-- Read a list. -/
def list {α : Type} (reader : Reader α) : Reader (List α) :=
  ofGlyph
    (fun g d =>
      if g = .char '[' then readItems reader true d else .error (refusal .list g d))
    (by
      intro g d r a h
      split at h
      · exact Nat.le_of_lt (length_readItems_lt h)
      · simp at h)

/-! ## Whole documents -/

/-- Read a whole document. -/
def readAll {α : Type} (reader : Reader α) (d : Document) : Except Fault α :=
  match reader.run d with
  | .error fault => .error fault
  | .ok (a, rest) => if (skipGap rest).isEmpty then .ok a else .error .trailingText

end Reader

end EdgeSync.Json
