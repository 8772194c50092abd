/-!
# Fields of a Calendar Expression

A calendar expression is a row of fields, one for each unit of civil time. A
field is a list of items between commas, an item is a range of values or every
n-th value of a range. The grammar is read by ordered choice: of the forms that
an item may take, the first that fits is taken, and what it leaves over is read
by the next field.

## Main definitions

- `TimeUnit`: the units with their least and greatest values and their names
- `Range`, `Item`: what a field says
- `readField`: read one field from the front of a text
- `Item.stride?`, `fieldValues?`: the values that items allow in a unit
-/

namespace EdgeSync.Schedule

/-! ## Units -/

/-- The units of a calendar expression, in the order of its fields. -/
inductive TimeUnit where
  | second
  | minute
  | hour
  | day
  | month
  | weekday
  | year
  deriving DecidableEq, Repr

namespace TimeUnit

/-- The least value of a unit. -/
def least : TimeUnit → Nat
  | second => 0
  | minute => 0
  | hour => 0
  | day => 1
  | month => 1
  | weekday => 1
  | year => 1970

/-- The greatest value of a unit. -/
def greatest : TimeUnit → Nat
  | second => 59
  | minute => 59
  | hour => 23
  | day => 31
  | month => 12
  | weekday => 7
  | year => 2100

/-- All values of a unit in ascending order. -/
def values (u : TimeUnit) : List Nat :=
  List.range' u.least (u.greatest + 1 - u.least)

/-- Whether a question mark may stand for all values. -/
def allowsQuestion : TimeUnit → Bool
  | day => true
  | weekday => true
  | _ => false

/-- The lower-case names of the values of a unit. -/
def names : TimeUnit → List (String × Nat)
  | month =>
    [("jan", 1), ("january", 1), ("feb", 2), ("february", 2), ("mar", 3), ("march", 3),
     ("apr", 4), ("april", 4), ("may", 5), ("jun", 6), ("june", 6), ("jul", 7), ("july", 7),
     ("aug", 8), ("august", 8), ("sep", 9), ("september", 9), ("oct", 10), ("october", 10),
     ("nov", 11), ("november", 11), ("dec", 12), ("december", 12)]
  | weekday =>
    [("sun", 1), ("sunday", 1), ("mon", 2), ("monday", 2), ("tue", 3), ("tues", 3),
     ("tuesday", 3), ("wed", 4), ("wednesday", 4), ("thu", 5), ("thurs", 5),
     ("thursday", 5), ("fri", 6), ("friday", 6), ("sat", 7), ("saturday", 7)]
  | _ => []

/-- The value that a name stands for, in any case of its letters. -/
def valueOf? (u : TimeUnit) (name : List Char) : Option Nat :=
  (u.names.find? fun entry => entry.1.toList == name.map Char.toLower).map (·.2)

end TimeUnit

/-! ## Items -/

/-- A range of values. -/
inductive Range where
  | all
  | point (value : Nat)
  | span (first last : Nat)
  | named (first last : List Char)
  deriving DecidableEq, Repr

/-- One item of a field. -/
inductive Item where
  | plain (range : Range)
  | every (range : Range) (step : Nat)
  | name (text : List Char)
  deriving DecidableEq, Repr

/-! ## Reading -/

/-- A reader takes a value from the front of a text, or fails. -/
abbrev Reader (α : Type) := List Char → Option (α × List Char)

/-- The characters that may surround fields, numbers and names. -/
def isGap (c : Char) : Bool :=
  c == ' ' || c == '\t' || c == '\r' || c == '\n'

/-- Drop the gap at the front of a text. -/
def skipGap (cs : List Char) : List Char :=
  cs.dropWhile isGap

/-- The greatest number that a field may hold. -/
def maxNumber : Nat := 4294967295

/-- The value of a run of decimal digits. -/
def digitsValue (ds : List Char) : Nat :=
  ds.foldl (fun n c => 10 * n + (c.toNat - '0'.toNat)) 0

/-- A number with the gaps around it. -/
def readNumber : Reader Nat := fun cs =>
  let cs := skipGap cs
  let ds := cs.takeWhile Char.isDigit
  let n := digitsValue ds
  if ds.isEmpty || maxNumber < n then none
  else some (n, skipGap (cs.dropWhile Char.isDigit))

/-- A name with the gaps around it. -/
def readName : Reader (List Char) := fun cs =>
  let cs := skipGap cs
  let name := cs.takeWhile Char.isAlpha
  if name.isEmpty then none else some (name, skipGap (cs.dropWhile Char.isAlpha))

/-- One given character. -/
def readMark (mark : Char) : Reader Unit
  | [] => none
  | c :: rest => if c = mark then some ((), rest) else none

/-- Two values with a hyphen between them. -/
def readPair {α : Type} (value : Reader α) : Reader (α × α) := fun cs => do
  let (first, cs) ← value cs
  let ((), cs) ← readMark '-' cs
  let (last, cs) ← value cs
  return ((first, last), cs)

/-- A range: all values, two numbers, one number, or two names. -/
def readRange (u : TimeUnit) : Reader Range := fun cs =>
  ((readMark '*' cs).map fun r => (Range.all, r.2))
  <|> (if u.allowsQuestion then (readMark '?' cs).map fun r => (Range.all, r.2) else none)
  <|> ((readPair readNumber cs).map fun r => (Range.span r.1.1 r.1.2, r.2))
  <|> ((readNumber cs).map fun r => (Range.point r.1, r.2))
  <|> ((readPair readName cs).map fun r => (Range.named r.1.1 r.1.2, r.2))

/-- A range, a stroke and a step. -/
def readEvery (u : TimeUnit) : Reader Item := fun cs => do
  let (range, cs) ← readRange u cs
  let ((), cs) ← readMark '/' cs
  let (step, cs) ← readNumber cs
  return (.every range step, cs)

/-- An item: a range with a step, a range, or a name. -/
def readItem (u : TimeUnit) : Reader Item := fun cs =>
  readEvery u cs
  <|> ((readRange u cs).map fun r => (Item.plain r.1, r.2))
  <|> ((readName cs).map fun r => (Item.name r.1, r.2))

/-- Further items, each after a comma; a comma without an item is left over. -/
def readMore (u : TimeUnit) : Nat → List Char → List Item × List Char
  | 0, cs => ([], cs)
  | fuel + 1, cs =>
    match readMark ',' cs with
    | none => ([], cs)
    | some (_, afterComma) =>
      match readItem u afterComma with
      | none => ([], cs)
      | some (item, rest) =>
        let (items, rest) := readMore u fuel rest
        (item :: items, rest)

/-- A field: items between commas, with gaps around the whole. -/
def readField (u : TimeUnit) : Reader (List Item) := fun cs => do
  let (item, cs) ← readItem u (skipGap cs)
  let (items, cs) := readMore u cs.length cs
  return (item :: items, skipGap cs)

/-! ## Meaning -/

/-- The values `first`, `first + step`, and so on up to `last`. -/
structure Stride where
  first : Nat
  last : Nat
  step : Nat
  deriving DecidableEq, Repr

/-- Whether a stride meets a value. -/
def Stride.meets (s : Stride) (n : Nat) : Bool :=
  s.first ≤ n && n ≤ s.last && (n - s.first) % s.step == 0

/-- A value within the bounds of a unit. -/
def TimeUnit.bound? (u : TimeUnit) (n : Nat) : Option Nat :=
  if u.least ≤ n ∧ n ≤ u.greatest then some n else none

/-- The first and last value of a range in a unit. -/
def Range.ends? (u : TimeUnit) : Range → Option (Nat × Nat)
  | .all => some (u.least, u.greatest)
  | .point n => (u.bound? n).map fun n => (n, n)
  | .span a b => do
    let a ← u.bound? a
    let b ← u.bound? b
    if a ≤ b then some (a, b) else none
  | .named a b => do
    let a ← u.valueOf? a
    let b ← u.valueOf? b
    if a ≤ b then some (a, b) else none

/-- The stride of an item in a unit. A single number with a step runs to the
greatest value of the unit. -/
def Item.stride? (u : TimeUnit) : Item → Option Stride
  | .plain range => (range.ends? u).map fun r => ⟨r.1, r.2, 1⟩
  | .name text => (u.valueOf? text).map fun n => ⟨n, n, 1⟩
  | .every range step => do
    let (first, last) ← range.ends? u
    let last := match range with
      | .point _ => u.greatest
      | _ => last
    if step = 0 then none else some ⟨first, last, step⟩

/-- The values that a field allows, in ascending order; none if an item is faulty. -/
def fieldValues? (u : TimeUnit) (items : List Item) : Option (List Nat) :=
  (items.mapM (Item.stride? u)).map fun strides =>
    u.values.filter fun n => strides.any (·.meets n)

end EdgeSync.Schedule
