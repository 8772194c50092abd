import EdgeSync.Json.Scan

/-!
# Passing Over JSON Values

A value that nothing needs is passed over, however deeply it is nested. The
brackets that are still open are kept on a stack, so one loop serves all nesting.

## Main definitions

- `Bracket`, `Place`: an open bracket and a place within nested values
- `skipValue`: pass over one value
-/

namespace EdgeSync.Json

open EdgeSync.Text

/-- The kind of an open bracket. -/
inductive Bracket where
  | list
  | object
  deriving DecidableEq, Repr

/-- The glyph that closes a bracket. -/
def Bracket.closing : Bracket → Glyph
  | list => .char ']'
  | object => .char '\x7d'

/-- The fault of a document that ends within a bracket. -/
def Bracket.atEnd : Bracket → Fault
  | list => .endInList
  | object => .endInObject

/-- The fault of a bracket whose members are not divided by commas. -/
def Bracket.undivided : Bracket → Fault
  | list => .commaOrBracketExpected
  | object => .commaOrBraceExpected

/-- Pass over a simple value at the front of a document. -/
def skipSimple (g : Glyph) (d : Document) : Except Fault Document :=
  match g with
  | .char 'n' => scanWord ['u', 'l', 'l'] d
  | .char 't' => scanWord ['r', 'u', 'e'] d
  | .char 'f' => scanWord ['a', 'l', 's', 'e'] d
  | .char '-' => skipNumber d
  | .char '"' => skipText d
  | g => if isDigit g then skipNumber (g :: d) else .error .valueExpected

/-- Pass over the key and the colon in front of a member of an object; an item of
a list has neither. -/
def skipKey : Bracket → Document → Except Fault Document
  | .list, d => .ok d
  | .object, d =>
    match skipGap d with
    | [] => .error .endInObject
    | g :: d =>
      if g = .char '"' then
        match skipText d with
        | .error fault => .error fault
        | .ok d =>
          match skipGap d with
          | [] => .error .endInObject
          | g :: d => if g = .char ':' then .ok d else .error .colonExpected
      else .error .keyExpected

/-! ## Lengths -/

theorem length_afterDigits_le (d : Document) : (afterDigits d).length ≤ d.length :=
  (List.dropWhile_suffix isDigit).length_le

theorem length_exponentSign_le (d : Document) :
    (exponentSign d).2.length ≤ d.length := by
  unfold exponentSign
  split <;> simp

private theorem length_skipExponent_le {d r : Document} (h : skipExponent d = .ok r) :
    r.length ≤ d.length := by
  unfold skipExponent at h
  simp only at h
  split at h
  · simp at h
  · simp only [Except.ok.injEq] at h
    rw [← h]
    exact Nat.le_trans (length_afterDigits_le _) (length_exponentSign_le _)

private theorem length_skipScale_le {d r : Document} (h : skipScale d = .ok r) :
    r.length ≤ d.length := by
  cases d with
  | nil => simp only [skipScale, Except.ok.injEq] at h; simp [← h]
  | cons g d =>
    simp only [skipScale] at h
    split at h
    · exact Nat.le_succ_of_le (length_skipExponent_le h)
    · simp only [Except.ok.injEq] at h; simp [← h]

theorem length_afterDigits_lt {d : Document} (h : digits d ≠ []) :
    (afterDigits d).length < d.length := by
  cases d with
  | nil => simp [digits] at h
  | cons g d =>
    by_cases hg : isDigit g = true
    · have : afterDigits (g :: d) = afterDigits d := by simp [afterDigits, hg]
      rw [this]
      exact Nat.lt_succ_of_le (length_afterDigits_le d)
    · simp [digits, hg] at h

private theorem length_skipNumber_lt {d r : Document} (h : skipNumber d = .ok r) :
    r.length < d.length := by
  unfold skipNumber at h
  split at h
  · simp at h
  · simp at h
  · rename_i hne _
    have hlt := length_afterDigits_lt (d := d) (fun he => hne he)
    split at h
    · rename_i rest hrest
      split at h
      · simp at h
      · have h1 := length_skipScale_le h
        have h2 := length_afterDigits_le rest
        rw [hrest] at hlt
        simp only [List.length_cons] at hlt
        omega
    · have h1 := length_skipScale_le h
      omega

private theorem length_skipText_lt {d r : Document} (h : skipText d = .ok r) :
    r.length < d.length := by
  fun_induction skipText d with
  | case1 => simp at h
  | case2 d' => simp only [Except.ok.injEq] at h; simp [← h]
  | case3 => simp at h
  | case4 d' afterEscape _ hlt _ ih =>
    have := ih h
    simp only [List.length_cons]
    omega
  | case5 => simp at h
  | case6 g d' _ _ _ ih =>
    have := ih h
    simp only [List.length_cons]
    omega

theorem length_skipSimple_le {g : Glyph} {d r : Document} (h : skipSimple g d = .ok r) :
    r.length ≤ d.length := by
  unfold skipSimple at h
  split at h
  · exact length_scanWord_le h
  · exact length_scanWord_le h
  · exact length_scanWord_le h
  · exact Nat.le_of_lt (length_skipNumber_lt h)
  · exact Nat.le_of_lt (length_skipText_lt h)
  · split at h
    · have := length_skipNumber_lt h
      simp only [List.length_cons] at this
      omega
    · simp at h

theorem length_skipKey_le {b : Bracket} {d r : Document} (h : skipKey b d = .ok r) :
    r.length ≤ d.length := by
  cases b with
  | list => simp only [skipKey, Except.ok.injEq] at h; simp [h]
  | object =>
    have h0 := length_skipGap_le d
    simp only [skipKey] at h
    split at h
    · simp at h
    · rename_i g d1 hd
      rw [hd] at h0
      simp only [List.length_cons] at h0
      split at h
      · split at h
        · simp at h
        · rename_i d2 ht
          have h1 := length_skipText_lt ht
          have h2 := length_skipGap_le d2
          split at h
          · simp at h
          · rename_i g' d3 hd3
            rw [hd3] at h2
            simp only [List.length_cons] at h2
            split at h
            · simp only [Except.ok.injEq] at h
              rw [← h]; omega
            · simp at h
      · simp at h

/-! ## The loop -/

/-- A place within nested values: before a value, just after an opening bracket,
or after a value. -/
inductive Place where
  | before
  | opened (bracket : Bracket)
  | after
  deriving DecidableEq, Repr

/-- The part of the measure that counts a step which takes no glyph. -/
def Place.weight : Place → Nat
  | opened _ => 1
  | _ => 0

/-- Pass over what is left of nested values, the innermost open bracket first. -/
def skipNested (stack : List Bracket) (place : Place) (d : Document) :
    Except Fault Document :=
  match place, stack with
  | .after, [] => .ok d
  | .before, stack =>
    match h : skipGap d with
    | [] => .error .endInValue
    | g :: rest =>
      have := length_lt_of_skipGap h
      if g = .char '[' then skipNested stack (.opened .list) rest
      else if g = .char '\x7b' then skipNested stack (.opened .object) rest
      else
        match h' : skipSimple g rest with
        | .error fault => .error fault
        | .ok rest' =>
          have := length_skipSimple_le h'
          skipNested stack .after rest'
  | .opened bracket, stack =>
    match h : skipGap d with
    | [] => .error bracket.atEnd
    | g :: rest =>
      have := length_lt_of_skipGap h
      if g = bracket.closing then skipNested stack .after rest
      else
        match h' : skipKey bracket (g :: rest) with
        | .error fault => .error fault
        | .ok rest' =>
          have : rest'.length ≤ rest.length + 1 := length_skipKey_le h'
          skipNested (bracket :: stack) .before rest'
  | .after, bracket :: stack =>
    match h : skipGap d with
    | [] => .error bracket.atEnd
    | g :: rest =>
      have := length_lt_of_skipGap h
      if g = .char ',' then
        match h' : skipKey bracket rest with
        | .error fault => .error fault
        | .ok rest' =>
          have := length_skipKey_le h'
          skipNested (bracket :: stack) .before rest'
      else if g = bracket.closing then skipNested stack .after rest
      else .error bracket.undivided
termination_by 2 * d.length + place.weight
decreasing_by all_goals simp only [Place.weight]; omega

/-- Pass over one value. -/
def skipValue (d : Document) : Except Fault Document :=
  skipNested [] .before d

theorem length_skipNested_le {stack : List Bracket} {place : Place} {d r : Document}
    (h : skipNested stack place d = .ok r) : r.length ≤ d.length := by
  fun_induction skipNested stack place d <;> simp_all <;> omega

end EdgeSync.Json
