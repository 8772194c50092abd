/-!
# Base64

Bytes are written in groups of three as four characters of an alphabet of 64; a
last group that is not full is filled up.

## Main definitions

- `base64`: bytes in this form
-/

namespace EdgeSync.Web

/-- The alphabet. -/
def base64Alphabet : String :=
  "ABCDEFGHIJKLMNOPQRSTUVWXYZabcdefghijklmnopqrstuvwxyz0123456789+/"

/-- The character of a number below 64. -/
def base64Char (n : Nat) : Char :=
  (base64Alphabet.toList[n]?).getD '='

/-- The four characters of a group, of which `used` are not filling. -/
def base64Group (used a b c : Nat) : List Char :=
  ([base64Char (a / 4), base64Char (a % 4 * 16 + b / 16), base64Char (b % 16 * 4 + c / 64),
    base64Char (c % 64)].take used ++ ['=', '=']).take 4

/-- The characters of some bytes. -/
def base64 : List UInt8 → List Char
  | [] => []
  | [a] => base64Group 2 a.toNat 0 0
  | [a, b] => base64Group 3 a.toNat b.toNat 0
  | a :: b :: c :: rest => base64Group 4 a.toNat b.toNat c.toNat ++ base64 rest

end EdgeSync.Web
