/-!
# Percent Escapes

The parts of an address are texts in which some characters are replaced by the
escapes of their bytes. Controls and characters beyond ASCII are escaped in every
part; which others are depends on the part.

## Main definitions

- `escape`: a text with the escapes that a part needs
- `unescape`: the bytes that a text with escapes stands for
- `userInfoMarks`, `pathMarks`, `queryMarks`, `fragmentMarks`: the characters that
  the parts escape
-/

namespace EdgeSync.Web

/-! ## Escaping -/

/-- The upper-case hexadecimal digit of a number below 16. -/
def upperHexDigit (n : Nat) : Char :=
  (Nat.digitChar n).toUpper

/-- The escape of one byte. -/
def escapeByte (byte : UInt8) : List Char :=
  ['%', upperHexDigit (byte.toNat / 16), upperHexDigit (byte.toNat % 16)]

/-- Whether a character is an ASCII control. -/
def isControl (c : Char) : Bool :=
  c.toNat < 0x20 || c.toNat == 0x7f

/-- Whether a character must be escaped where the given marks must be. -/
def needsEscape (marks : List Char) (c : Char) : Bool :=
  isControl c || 0x7f < c.toNat || marks.contains c

/-- One character, escaped if it must be. -/
def escapeChar (marks : List Char) (c : Char) : List Char :=
  if needsEscape marks c then (String.utf8EncodeChar c).flatMap escapeByte else [c]

/-- A text with the escapes that the given marks ask for. -/
def escape (marks : List Char) (cs : List Char) : List Char :=
  cs.flatMap (escapeChar marks)

/-! ## The parts of an address -/

/-- What a fragment escapes. -/
def fragmentMarks : List Char := [' ', '\x22', '<', '>', '\x60']

/-- What a path escapes. -/
def pathMarks : List Char := fragmentMarks ++ ['#', '?', '\x7b', '\x7d']

/-- What an account escapes. -/
def userInfoMarks : List Char :=
  pathMarks ++ ['/', ':', ';', '=', '@', '[', '\\', ']', '^', '|']

/-- What a query escapes; the well-known schemes escape the apostrophe too. -/
def queryMarks (isSpecial : Bool) : List Char :=
  [' ', '\x22', '#', '<', '>'] ++ (if isSpecial then ['\x27'] else [])

/-! ## Unescaping -/

/-- The value of a hexadecimal digit. -/
def hexDigit? (c : Char) : Option Nat :=
  if '0' ≤ c ∧ c ≤ '9' then some (c.toNat - 48)
  else if 'a' ≤ c ∧ c ≤ 'f' then some (c.toNat - 87)
  else if 'A' ≤ c ∧ c ≤ 'F' then some (c.toNat - 55)
  else none

/-- The bytes that a text with escapes stands for; a percent sign that begins no
escape stands for itself. -/
def unescape : List Char → List UInt8
  | '%' :: a :: b :: rest =>
    match hexDigit? a, hexDigit? b with
    | some high, some low => UInt8.ofNat (16 * high + low) :: unescape rest
    | _, _ => 0x25 :: unescape (a :: b :: rest)
  | c :: rest => String.utf8EncodeChar c ++ unescape rest
  | [] => []

/-- The text that a text with escapes stands for, if its bytes encode one. -/
def unescapeText? (cs : List Char) : Option String :=
  String.fromUTF8? ⟨(unescape cs).toArray⟩

end EdgeSync.Web
