/-!
# Written JSON

Values are written compactly, or over several lines with two blanks for each
level of nesting. A text is written between quotation marks; only the quotation
mark, the backslash and the characters below U+0020 are escaped.

## Main definitions

- `Value`: the values that are written
- `Value.compact`, `Value.pretty`: both forms
-/

namespace EdgeSync.Json

/-- A value to be written; the members of an object keep their order. -/
inductive Value where
  | null
  | flag (value : Bool)
  | natural (value : Nat)
  | text (value : String)
  | list (items : List Value)
  | object (members : List (String × Value))
  deriving Repr

namespace Value

/-! ## Texts -/

/-- The two hexadecimal digits of a number below 256. -/
def twoHexDigits (n : Nat) : List Char :=
  [Nat.digitChar (n / 16), Nat.digitChar (n % 16)]

/-- How one character of a text is written. -/
def escapeChar (c : Char) : List Char :=
  match c with
  | '"' => ['\\', '"']
  | '\\' => ['\\', '\\']
  | '\x08' => ['\\', 'b']
  | '\x0c' => ['\\', 'f']
  | '\n' => ['\\', 'n']
  | '\r' => ['\\', 'r']
  | '\t' => ['\\', 't']
  | c =>
    if c.toNat < 0x20 then ['\\', 'u', '0', '0'] ++ twoHexDigits c.toNat else [c]

/-- How a text is written. -/
def writeText (s : String) : List Char :=
  '"' :: s.toList.flatMap escapeChar ++ ['"']

/-- How a simple value is written. -/
def writeFlag (value : Bool) : List Char :=
  if value then ['t', 'r', 'u', 'e'] else ['f', 'a', 'l', 's', 'e']

/-! ## The compact form -/

mutual

/-- A value in the compact form. -/
def writeCompact : Value → List Char
  | .null => ['n', 'u', 'l', 'l']
  | .flag value => writeFlag value
  | .natural n => Nat.toDigits 10 n
  | .text s => writeText s
  | .list [] => ['[', ']']
  | .list (item :: items) => '[' :: writeCompact item ++ compactItems items
  | .object [] => ['\x7b', '\x7d']
  | .object ((key, value) :: members) =>
    '\x7b' :: writeText key ++ ':' :: writeCompact value ++ compactMembers members

/-- The further items of a list and its closing bracket. -/
def compactItems : List Value → List Char
  | [] => [']']
  | item :: items => ',' :: writeCompact item ++ compactItems items

/-- The further members of an object and its closing brace. -/
def compactMembers : List (String × Value) → List Char
  | [] => ['\x7d']
  | (key, value) :: members =>
    ',' :: writeText key ++ ':' :: writeCompact value ++ compactMembers members

end

/-! ## The form over several lines -/

/-- A new line at a level of nesting. -/
def newLine (level : Nat) : List Char :=
  '\n' :: List.replicate (2 * level) ' '

mutual

/-- A value over several lines, begun at a level of nesting. -/
def writePretty (level : Nat) : Value → List Char
  | .null => ['n', 'u', 'l', 'l']
  | .flag value => writeFlag value
  | .natural n => Nat.toDigits 10 n
  | .text s => writeText s
  | .list [] => ['[', ']']
  | .list (item :: items) =>
    '[' :: newLine (level + 1) ++ writePretty (level + 1) item ++ prettyItems level items
  | .object [] => ['\x7b', '\x7d']
  | .object ((key, value) :: members) =>
    '\x7b' :: newLine (level + 1) ++ writeText key ++ ':' :: ' ' ::
      writePretty (level + 1) value ++ prettyMembers level members

/-- The further items of a list and its closing bracket, over several lines. -/
def prettyItems (level : Nat) : List Value → List Char
  | [] => newLine level ++ [']']
  | item :: items =>
    ',' :: newLine (level + 1) ++ writePretty (level + 1) item ++ prettyItems level items

/-- The further members of an object and its closing brace, over several lines. -/
def prettyMembers (level : Nat) : List (String × Value) → List Char
  | [] => newLine level ++ ['\x7d']
  | (key, value) :: members =>
    ',' :: newLine (level + 1) ++ writeText key ++ ':' :: ' ' ::
      writePretty (level + 1) value ++ prettyMembers level members

end

/-- The compact text of a value. -/
def compact (v : Value) : String :=
  String.ofList v.writeCompact

/-- The text of a value over several lines. -/
def pretty (v : Value) : String :=
  String.ofList (v.writePretty 0)

end Value

end EdgeSync.Json
