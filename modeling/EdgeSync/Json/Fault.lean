import EdgeSync.Number.Shortest
import EdgeSync.Text.Quoted

/-!
# Faults of JSON Documents

A document is read from left to right, and the first fault ends the reading. A
fault is an error of grammar, or a value that does not fit the place where it
stands.

## Main definitions

- `Number`: the three kinds of number that a reader tells apart
- `Found`, `Expected`: what stood somewhere and what should have stood there
- `Fault`, `Fault.message`: the faults and their wording
-/

namespace EdgeSync.Json

open EdgeSync.Number EdgeSync.Text

/-- A number: natural up to 64 bits, a negative integer down to `-2 ^ 63` given by
its absolute value, or anything else as a signed binary64 number. -/
inductive Number where
  | natural (value : Nat)
  | negative (magnitude : Nat)
  | floating (isNegative : Bool) (magnitude : Binary64)
  deriving DecidableEq, Repr

/-- What stood in a document. -/
inductive Found where
  | null
  | flag (value : Bool)
  | number (value : Number)
  | text (value : String)
  | list
  | object
  deriving DecidableEq, Repr

/-- What should have stood in a document. -/
inductive Expected where
  | flag
  | natural
  | text
  | list
  | record (name : String)
  deriving DecidableEq, Repr

/-- Why a document cannot be read. -/
inductive Fault where
  | endInValue
  | endInText
  | endInList
  | endInObject
  | valueExpected
  | brokenWord
  | colonExpected
  | commaOrBracketExpected
  | commaOrBraceExpected
  | keyExpected
  | trailingComma
  | trailingText
  | badNumber
  | numberTooLarge
  | badEscape
  | controlCharacter
  | halfSurrogatePair
  | loneSurrogate
  | strayByte
  | mismatch (found : Found) (expected : Expected)
  | outOfDomain (magnitude : Nat) (expected : Expected)
  | tooFewItems (count : Nat) (record : String) (size : Nat)
  | repeatedField (name : String)
  | missingField (name : String)
  deriving DecidableEq, Repr

/-! ## Wording -/

/-- The text of a number. -/
def Number.render : Number → String
  | .natural n => toString n
  | .negative n => "-" ++ toString n
  | .floating isNegative magnitude =>
    (if isNegative then "-" else "") ++ String.ofList magnitude.render

/-- The description of a value that stood in a document. -/
def Found.describe : Found → String
  | .null => "null"
  | .flag value => "boolean `" ++ toString value ++ "`"
  | .number (.floating isNegative magnitude) =>
    "floating point `" ++ (Number.floating isNegative magnitude).render ++ "`"
  | .number n => "integer `" ++ n.render ++ "`"
  | .text value => "string " ++ quoted value
  | .list => "sequence"
  | .object => "map"

/-- The description of a place in a document. -/
def Expected.describe : Expected → String
  | .flag => "a boolean"
  | .natural => "u64"
  | .text => "a string"
  | .list => "a sequence"
  | .record name => "struct " ++ name

/-- The wording of a fault. -/
def Fault.message : Fault → String
  | endInValue => "EOF while parsing a value"
  | endInText => "EOF while parsing a string"
  | endInList => "EOF while parsing a list"
  | endInObject => "EOF while parsing an object"
  | valueExpected => "expected value"
  | brokenWord => "expected ident"
  | colonExpected => "expected `:`"
  | commaOrBracketExpected => "expected `,` or `]`"
  | commaOrBraceExpected => "expected `,` or `\x7d`"
  | keyExpected => "key must be a string"
  | trailingComma => "trailing comma"
  | trailingText => "trailing characters"
  | badNumber => "invalid number"
  | numberTooLarge => "number out of range"
  | badEscape => "invalid escape"
  | controlCharacter =>
    "control character (\\u0000-\\u001F) found while parsing a string"
  | halfSurrogatePair => "unexpected end of hex escape"
  | loneSurrogate => "lone leading surrogate in hex escape"
  | strayByte => "invalid unicode code point"
  | mismatch found expected =>
    "invalid type: " ++ found.describe ++ ", expected " ++ expected.describe
  | outOfDomain magnitude expected =>
    "invalid value: integer `-" ++ toString magnitude ++ "`, expected " ++ expected.describe
  | tooFewItems count record size =>
    "invalid length " ++ toString count ++ ", expected struct " ++ record ++ " with " ++
      toString size ++ (if size = 1 then " element" else " elements")
  | repeatedField name => "duplicate field `" ++ name ++ "`"
  | missingField name => "missing field `" ++ name ++ "`"

/-- The wording of a fault as the reason why a document cannot be used. -/
def Fault.report (f : Fault) : String :=
  "failed to parse json: " ++ f.message

end EdgeSync.Json
