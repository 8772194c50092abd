import EdgeSync.Text.Hidden

/-!
# Quoted Text

Messages quote the text they complain about: it stands between quotation marks,
the quotation mark and the backslash are escaped, four controls have letters of
their own, and every other hidden character is written by its code point.

## Main definitions

- `quoteChar`: how one character is written
- `quoted`: how a text is written
-/

namespace EdgeSync.Text

/-- The lower-case hexadecimal digits of a number, without leading zeros. -/
def hexDigits (n : Nat) : List Char :=
  Nat.toDigits 16 n

/-- How one character is written between quotation marks. -/
def quoteChar (c : Char) : List Char :=
  match c with
  | '"' => ['\\', '"']
  | '\\' => ['\\', '\\']
  | '\n' => ['\\', 'n']
  | '\r' => ['\\', 'r']
  | '\t' => ['\\', 't']
  | '\x00' => ['\\', '0']
  | c =>
    if isHidden c then ['\\', 'u', '\x7b'] ++ hexDigits c.toNat ++ ['\x7d'] else [c]

/-- A text between quotation marks. -/
def quoted (s : String) : String :=
  String.ofList ('"' :: s.toList.flatMap quoteChar ++ ['"'])

end EdgeSync.Text
