import EdgeSync.Json.Fault
import EdgeSync.Text.Document

/-!
# Scanning JSON Lexemes

Words, numbers and quoted texts are scanned at the front of a document. Every
scanner returns the rest of the document, and a lemma beside it says that the
rest is shorter.

An integer that does not fit 64 bits, a fraction and an exponent make a number
floating: its digits are gathered as long as they fit 64 bits, and the power of
ten is applied with one rounding for the digits and one for the power.

## Main definitions

- `skipGap`: drop blanks between lexemes
- `scanWord`, `scanNumber`, `scanText`: scan one lexeme
- `skipNumber`, `skipText`: pass over a lexeme whose value is not needed
-/

namespace EdgeSync.Json

open EdgeSync.Number EdgeSync.Text

/-! ## Gaps and words -/

/-- The blanks that may stand between lexemes. -/
def isGap : Glyph → Bool
  | .char c => c == ' ' || c == '\t' || c == '\n' || c == '\r'
  | .stray _ => false

/-- Drop the blanks at the front of a document. -/
def skipGap (d : Document) : Document :=
  d.dropWhile isGap

theorem length_skipGap_le (d : Document) : (skipGap d).length ≤ d.length :=
  (List.dropWhile_suffix isGap).length_le

theorem length_lt_of_skipGap {d rest : Document} {g : Glyph} (h : skipGap d = g :: rest) :
    rest.length < d.length := by
  have := length_skipGap_le d
  rw [h, List.length_cons] at this
  exact this

/-- The remaining letters of a word whose first letter has been seen. -/
def scanWord : List Char → Document → Except Fault Document
  | [], d => .ok d
  | _ :: _, [] => .error .endInValue
  | c :: cs, g :: d => if g = .char c then scanWord cs d else .error .brokenWord

theorem length_scanWord_le {cs : List Char} {d r : Document} (h : scanWord cs d = .ok r) :
    r.length ≤ d.length := by
  induction cs generalizing d with
  | nil => simp only [scanWord, Except.ok.injEq] at h; simp [h]
  | cons c cs ih =>
    cases d with
    | nil => simp [scanWord] at h
    | cons g d =>
      simp only [scanWord] at h
      split at h
      · exact Nat.le_succ_of_le (ih h)
      · simp at h

/-! ## Numbers -/

/-- The value of a decimal digit. -/
def digit? : Glyph → Option Nat
  | .char c => if c.isDigit then some (c.toNat - '0'.toNat) else none
  | .stray _ => none

/-- Whether a glyph is a decimal digit. -/
def isDigit (g : Glyph) : Bool :=
  (digit? g).isSome

/-- The digits at the front of a document. -/
def digits (d : Document) : List Nat :=
  (d.takeWhile isDigit).filterMap digit?

/-- The document after the digits at its front. -/
def afterDigits (d : Document) : Document :=
  d.dropWhile isDigit

/-- The greatest natural number of 64 bits. -/
def maxNatural : Nat := 18446744073709551615

/-- Append digits to a number as long as it stays within a limit; the digits from
the first one that does not fit are returned. -/
def gather (limit : Nat) : Nat → List Nat → Nat × List Nat
  | n, [] => (n, [])
  | n, d :: ds => if limit < 10 * n + d then (n, d :: ds) else gather limit (10 * n + d) ds

/-- The greatest power of ten that is applied in one step. -/
def maxPower : Nat := 308

/-- The number nearest to a power of ten. -/
def tenPower (e : Nat) : Option Binary64 :=
  Binary64.ofNat (Nat.pow 10 e)

/-- Divide by the same number some times, stopping at zero. -/
def divideTimes (divisor : Binary64) : Nat → Binary64 → Option Binary64
  | 0, x => some x
  | steps + 1, x =>
    if x.isZero then some x else (x.div divisor).bind (divideTimes divisor steps)

/-- The steps in which a large negative power of ten is applied before the last one. -/
def wholeSteps (e : Nat) : Nat :=
  (e - 1) / maxPower

/-- Multiply or divide by a power of ten, rounding after every factor. -/
def scaleTen? (x : Binary64) (isNegative : Bool) (e : Nat) : Option Binary64 :=
  if x.isZero then some x
  else if isNegative then do
    let y ← divideTimes (← tenPower maxPower) (wholeSteps e) x
    if y.isZero then some y else y.div (← tenPower (e - maxPower * wholeSteps e))
  else if e ≤ maxPower then do x.mul (← tenPower e)
  else none

/-- The floating number with given digits and power of ten. -/
def floatingOf (isNegative : Bool) (significand : Nat) (e : Int) : Except Fault Number :=
  match Binary64.ofNat significand with
  | none => .error .numberTooLarge
  | some x =>
    match scaleTen? x (e < 0) e.natAbs with
    | none => .error .numberTooLarge
    | some y => .ok (.floating isNegative y)

/-- The mark of an exponent. -/
def isExponentMark (g : Glyph) : Bool :=
  g == .char 'e' || g == .char 'E'

/-- The sign and the rest after the mark of an exponent. -/
def exponentSign : Document → Bool × Document
  | .char '+' :: d => (false, d)
  | .char '-' :: d => (true, d)
  | d => (false, d)

/-- The greatest exponent that is counted exactly. -/
def maxExponent : Nat := 2147483647

/-- A number with an exponent; `d` follows the exponent mark. -/
def scanExponent (isNegative : Bool) (significand : Nat) (scale : Int) (d : Document) :
    Except Fault (Number × Document) :=
  let signed := exponentSign d
  match digits signed.2, signed.2 with
  | [], [] => .error .endInValue
  | [], _ :: _ => .error .badNumber
  | ds, _ =>
    let gathered := gather maxExponent 0 ds
    if gathered.2.isEmpty then
      let e : Int := if signed.1 then scale - gathered.1 else scale + gathered.1
      match floatingOf isNegative significand e with
      | .error fault => .error fault
      | .ok n => .ok (n, afterDigits signed.2)
    else if significand ≠ 0 ∧ !signed.1 then .error .numberTooLarge
    else .ok (.floating isNegative .zero, afterDigits signed.2)

/-- The end of a floating number: an exponent or nothing. -/
def scanScale (isNegative : Bool) (significand : Nat) (scale : Int) :
    Document → Except Fault (Number × Document)
  | [] => (floatingOf isNegative significand scale).map (·, [])
  | g :: d =>
    if isExponentMark g then scanExponent isNegative significand scale d
    else (floatingOf isNegative significand scale).map (·, g :: d)

/-- A number with a fraction; `d` follows the point. -/
def scanFraction (isNegative : Bool) (significand : Nat) (scale : Int) (d : Document) :
    Except Fault (Number × Document) :=
  match digits d, d with
  | [], [] => .error .endInValue
  | [], _ :: _ => .error .badNumber
  | ds, _ =>
    let gathered := gather maxNatural significand ds
    let taken : Nat := ds.length - gathered.2.length
    scanScale isNegative gathered.1 (scale - taken) (afterDigits d)

/-- The greatest magnitude of a negative integer of 64 bits. -/
def maxNegative : Nat := 9223372036854775808

/-- An integer without fraction and exponent. -/
def integerOf (isNegative : Bool) (n : Nat) : Except Fault Number :=
  if !isNegative then .ok (.natural n)
  else if 1 ≤ n ∧ n ≤ maxNegative then .ok (.negative n)
  else floatingOf true n 0

/-- A number without its sign. A zero at its front has no digit after it. -/
def scanNumber (isNegative : Bool) (d : Document) : Except Fault (Number × Document) :=
  match digits d, d with
  | [], [] => .error .endInValue
  | [], _ :: _ => .error .badNumber
  | 0 :: _ :: _, _ => .error .badNumber
  | ds, _ =>
    let gathered := gather maxNatural 0 ds
    -- Digits that do not fit only count as powers of ten.
    let scale : Int := gathered.2.length
    match afterDigits d with
    | .char '.' :: rest => scanFraction isNegative gathered.1 scale rest
    | rest =>
      match rest.head?.map isExponentMark with
      | some true => scanScale isNegative gathered.1 scale rest
      | _ =>
        if gathered.2.isEmpty then (integerOf isNegative gathered.1).map (·, rest)
        else scanScale isNegative gathered.1 scale rest

/-- Pass over the digits of an exponent; `d` follows its mark. -/
def skipExponent (d : Document) : Except Fault Document :=
  let signed := exponentSign d
  if (digits signed.2).isEmpty then .error .badNumber else .ok (afterDigits signed.2)

/-- Pass over an exponent, if there is one. -/
def skipScale : Document → Except Fault Document
  | [] => .ok []
  | g :: d => if isExponentMark g then skipExponent d else .ok (g :: d)

/-- Pass over a number without its sign. -/
def skipNumber (d : Document) : Except Fault Document :=
  match digits d with
  | [] => .error .badNumber
  | 0 :: _ :: _ => .error .badNumber
  | _ =>
    match afterDigits d with
    | .char '.' :: rest =>
      if (digits rest).isEmpty then .error .badNumber else skipScale (afterDigits rest)
    | rest => skipScale rest

/-! ## Quoted texts -/

/-- The value of a hexadecimal digit. -/
def hexDigit? : Glyph → Option Nat
  | .char c =>
    if c.isDigit then some (c.toNat - '0'.toNat)
    else if 'a' ≤ c ∧ c ≤ 'f' then some (c.toNat - 'a'.toNat + 10)
    else if 'A' ≤ c ∧ c ≤ 'F' then some (c.toNat - 'A'.toNat + 10)
    else none
  | .stray _ => none

/-- Four hexadecimal digits. Fewer than four bytes are the end of the text. -/
def scanHex (d : Document) : Except Fault (Nat × Document) :=
  if Document.byteSize d < 4 then .error .endInText
  else
    match (d.take 4).mapM hexDigit? with
    | some [a, b, c, e] => .ok (((a * 16 + b) * 16 + c) * 16 + e, d.drop 4)
    | _ => .error .badEscape

/-- The first half of a surrogate pair. -/
def isHighSurrogate (n : Nat) : Bool := 0xd800 ≤ n && n ≤ 0xdbff

/-- The second half of a surrogate pair. -/
def isLowSurrogate (n : Nat) : Bool := 0xdc00 ≤ n && n ≤ 0xdfff

/-- The character of an escape by code; `d` follows its letter. -/
def scanCode (d : Document) : Except Fault (Char × Document) :=
  match scanHex d with
  | .error fault => .error fault
  | .ok (n, rest) =>
    if isLowSurrogate n then .error .loneSurrogate
    else if !isHighSurrogate n then .ok (Char.ofNat n, rest)
    else
      match rest with
      | [] => .error .endInText
      | [.char '\\'] => .error .endInText
      | .char '\\' :: .char 'u' :: rest =>
        match scanHex rest with
        | .error fault => .error fault
        | .ok (low, rest) =>
          if isLowSurrogate low then
            .ok (Char.ofNat ((n - 0xd800) * 0x400 + (low - 0xdc00) + 0x10000), rest)
          else .error .loneSurrogate
      | _ => .error .halfSurrogatePair

/-- The character of an escape by letter. -/
def letterEscape? : Glyph → Option Char
  | .char '"' => some '"'
  | .char '\\' => some '\\'
  | .char '/' => some '/'
  | .char 'b' => some '\x08'
  | .char 'f' => some '\x0c'
  | .char 'n' => some '\n'
  | .char 'r' => some '\r'
  | .char 't' => some '\t'
  | _ => none

/-- The character of an escape; `d` follows the backslash. -/
def scanEscape : Document → Except Fault (Char × Document)
  | [] => .error .endInText
  | g :: d =>
    if g = .char 'u' then scanCode d
    else
      match letterEscape? g with
      | some c => .ok (c, d)
      | none => .error .badEscape

/-- Control characters may not stand in a quoted text. -/
def isControl : Glyph → Bool
  | .char c => c.toNat < 0x20
  | .stray _ => false

theorem length_scanHex_le {d r : Document} {n : Nat} (h : scanHex d = .ok (n, r)) :
    r.length ≤ d.length := by
  unfold scanHex at h
  split at h
  · simp at h
  · split at h
    · simp only [Except.ok.injEq, Prod.mk.injEq] at h
      rw [← h.2, List.length_drop]
      omega
    · simp at h

theorem length_scanCode_le {d r : Document} {c : Char} (h : scanCode d = .ok (c, r)) :
    r.length ≤ d.length := by
  unfold scanCode at h
  split at h
  · simp at h
  · rename_i n rest hn
    have h1 := length_scanHex_le hn
    split at h
    · simp at h
    · split at h
      · simp only [Except.ok.injEq, Prod.mk.injEq] at h
        rw [← h.2]; exact h1
      · split at h
        · simp at h
        · simp at h
        · split at h
          · simp at h
          · rename_i low rest' hlow
            have h2 := length_scanHex_le hlow
            split at h
            · simp only [Except.ok.injEq, Prod.mk.injEq] at h
              rw [← h.2]
              simp only [List.length_cons] at h1
              omega
            · simp at h
        · simp at h

theorem length_scanEscape_lt {d r : Document} {c : Char} (h : scanEscape d = .ok (c, r)) :
    r.length < d.length := by
  cases d with
  | nil => simp [scanEscape] at h
  | cons g d =>
    simp only [scanEscape] at h
    split at h
    · exact Nat.lt_succ_of_le (length_scanCode_le h)
    · split at h
      · simp only [Except.ok.injEq, Prod.mk.injEq] at h
        rw [← h.2]; simp
      · simp at h

/-- The glyphs of a quoted text; `d` follows the opening quotation mark. -/
def scanGlyphs (d : Document) : Except Fault (List Glyph × Document) :=
  match d with
  | [] => .error .endInText
  | g :: rest =>
    if g = .char '"' then .ok ([], rest)
    else if g = .char '\\' then
      match h : scanEscape rest with
      | .error fault => .error fault
      | .ok (c, afterEscape) =>
        have := length_scanEscape_lt h
        match scanGlyphs afterEscape with
        | .error fault => .error fault
        | .ok (gs, r) => .ok (.char c :: gs, r)
    else if isControl g then .error .controlCharacter
    else
      match scanGlyphs rest with
      | .error fault => .error fault
      | .ok (gs, r) => .ok (g :: gs, r)
termination_by d.length
decreasing_by
  · simp only [List.length_cons]; omega
  · simp

/-- A quoted text without stray bytes; `d` follows the opening quotation mark. -/
def scanText (d : Document) : Except Fault (String × Document) :=
  match scanGlyphs d with
  | .error fault => .error fault
  | .ok (gs, r) =>
    match Document.text? gs with
    | some s => .ok (s, r)
    | none => .error .strayByte

/-- Pass over an escape; `d` follows the backslash. -/
def skipEscape : Document → Except Fault Document
  | [] => .error .endInText
  | g :: d =>
    if g = .char 'u' then (scanHex d).map (·.2)
    else if (letterEscape? g).isSome then .ok d
    else .error .badEscape

theorem length_skipEscape_lt {d r : Document} (h : skipEscape d = .ok r) :
    r.length < d.length := by
  cases d with
  | nil => simp [skipEscape] at h
  | cons g d =>
    simp only [skipEscape] at h
    split at h
    · cases hs : scanHex d with
      | error fault => rw [hs] at h; simp [Except.map] at h
      | ok a =>
        rw [hs] at h
        simp only [Except.map, Except.ok.injEq] at h
        have := length_scanHex_le (n := a.1) (r := a.2) hs
        rw [← h]
        exact Nat.lt_succ_of_le this
    · split at h
      · simp only [Except.ok.injEq] at h
        rw [← h]; simp
      · simp at h

/-- Pass over a quoted text; `d` follows the opening quotation mark. -/
def skipText (d : Document) : Except Fault Document :=
  match d with
  | [] => .error .endInText
  | g :: rest =>
    if g = .char '"' then .ok rest
    else if g = .char '\\' then
      match h : skipEscape rest with
      | .error fault => .error fault
      | .ok afterEscape =>
        have := length_skipEscape_lt h
        skipText afterEscape
    else if isControl g then .error .controlCharacter
    else skipText rest
termination_by d.length
decreasing_by
  · simp only [List.length_cons]; omega
  · simp

end EdgeSync.Json
