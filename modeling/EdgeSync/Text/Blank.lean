/-!
# Blank Characters and Words

Blank characters are those with the Unicode property White_Space. Trimming,
counting words and cutting a text at separators work on lists of characters, so
that each has a structural definition.

## Main definitions

- `isBlank`: the property White_Space
- `trim`: a text without the blanks at both ends
- `splitOn`: the pieces between separators
- `words`: the maximal blank-free runs
-/

namespace EdgeSync.Text

/-! ## The property -/

/-- The Unicode property White_Space. -/
def isBlank (c : Char) : Bool :=
  let n := c.toNat
  (0x9 ≤ n && n ≤ 0xd) || n == 0x20 || n == 0x85 || n == 0xa0 || n == 0x1680 ||
    (0x2000 ≤ n && n ≤ 0x200a) || n == 0x2028 || n == 0x2029 || n == 0x202f ||
    n == 0x205f || n == 0x3000

/-! ## Trimming -/

/-- Drop the characters that satisfy `p` from the end of a list. -/
def dropEndWhile (p : Char → Bool) (cs : List Char) : List Char :=
  (cs.reverse.dropWhile p).reverse

/-- Drop the blanks at both ends of a list of characters. -/
def trimChars (cs : List Char) : List Char :=
  dropEndWhile isBlank (cs.dropWhile isBlank)

/-- Drop the blanks at both ends of a text. -/
def trim (s : String) : String :=
  String.ofList (trimChars s.toList)

/-! ## Cutting at separators -/

/-- The pieces between the characters that satisfy `p`; always at least one piece. -/
def splitOn (p : Char → Bool) : List Char → List (List Char)
  | [] => [[]]
  | c :: rest =>
    if p c then [] :: splitOn p rest
    else
      match splitOn p rest with
      | [] => [[c]]
      | piece :: pieces => (c :: piece) :: pieces

/-- The maximal runs of characters that are not blank. -/
def words (cs : List Char) : List (List Char) :=
  (splitOn isBlank cs).filter fun w => !w.isEmpty

end EdgeSync.Text
