import EdgeSync.Text.Blank
import EdgeSync.Web.Percent

/-!
# Hosts

The host of an address is a name, an address of four bytes, or an address of
eight pieces of two bytes between brackets. For the well-known schemes a name loses
its escapes and its capitals, and is an address of four bytes if its last label is a
number. Names beyond ASCII have a form in ASCII; which one is not decided here. For
other schemes a name keeps what it is.

## Main definitions

- `Host`, `Host.text`: hosts and how they are written
- `NameForm`, `asciiName?`: names in ASCII
- `Host.parse?`: the host of a well-known scheme
- `Host.parsePlain?`: the host of another scheme
-/

namespace EdgeSync.Web

open EdgeSync.Text

/-- The host of an address. -/
inductive Host where
  | name (label : List Char)
  | four (address : Nat)
  | eight (pieces : List Nat)
  deriving DecidableEq, Repr

/-! ## Numbers -/

/-- The value of some digits to a base, if there are only digits. -/
def digits? (base : Nat) (cs : List Char) : Option Nat :=
  cs.foldl (fun sum c => do
    let value ← sum
    let digit ← hexDigit? c
    if digit < base then some (base * value + digit) else none) (some 0)

/-- Whether a text begins with the mark of a hexadecimal number. -/
def isHexMarked : List Char → Bool
  | '0' :: 'x' :: _ => true
  | '0' :: 'X' :: _ => true
  | _ => false

/-- A number in an address of four bytes: hexadecimal after `0x`, octal after
another leading zero, else decimal. -/
def hostNumber? (cs : List Char) : Option Nat :=
  if cs.isEmpty then none
  else if isHexMarked cs then digits? 16 (cs.drop 2)
  else
    match cs with
    | '0' :: c :: rest => digits? 8 (c :: rest)
    | _ => digits? 10 cs

/-! ## Addresses of four bytes -/

/-- The labels of a name; one empty label at the end does not count. -/
def labels (cs : List Char) : List (List Char) :=
  let all := splitOn (· == '.') cs
  if 1 < all.length && all.getLast? == some [] then all.dropLast else all

/-- Whether the last label of a name is a number. -/
def endsInNumber (cs : List Char) : Bool :=
  match (labels cs).getLast? with
  | none => false
  | some label => (!label.isEmpty && label.all Char.isDigit) || (hostNumber? label).isSome

/-- The address that some numbers stand for: each but the last is a byte, and the
last one fills the remaining bytes. -/
def joinNumbers? (numbers : List Nat) : Option Nat :=
  let leading := numbers.dropLast
  let last := numbers.getLastD 0
  let room := 4 - leading.length
  if numbers.length ≤ 4 ∧ (leading.all fun n => decide (n < 256)) = true ∧
      last < Nat.pow 256 room then
    some (leading.foldl (fun sum n => 256 * sum + n) 0 * Nat.pow 256 room + last)
  else none

/-- The address that a name ending in a number stands for. -/
def fourBytes? (cs : List Char) : Option Nat := do
  let numbers ← (labels cs).mapM hostNumber?
  joinNumbers? numbers

/-- The bytes of an address of four bytes. -/
def byteList (address : Nat) : List Nat :=
  [address / 16777216 % 256, address / 65536 % 256, address / 256 % 256, address % 256]

/-! ## Addresses of eight pieces -/

/-- A piece: one to four hexadecimal digits. -/
def piece? (cs : List Char) : Option Nat :=
  if cs.isEmpty || 4 < cs.length then none else digits? 16 cs

/-- A byte in plain decimal: no leading zero, at most 255. -/
def plainByte? (cs : List Char) : Option Nat :=
  if cs.isEmpty || 3 < cs.length || (cs.length != 1 && cs.head? == some '0') then none
  else (digits? 10 cs).bind fun n => if n < 256 then some n else none

/-- The two pieces that four bytes in plain decimal stand for. -/
def dottedPieces? (cs : List Char) : Option (List Nat) :=
  match (splitOn (· == '.') cs).mapM plainByte? with
  | some [a, b, c, d] => some [256 * a + b, 256 * c + d]
  | _ => none

/-- Some pieces; the last two may be four bytes in plain decimal if `dotted`. -/
def pieceList? (dotted : Bool) : List (List Char) → Option (List Nat)
  | [] => some []
  | [cs] =>
    if dotted && cs.contains '.' then dottedPieces? cs else (piece? cs).map fun p => [p]
  | cs :: rest => do
    let piece ← piece? cs
    let pieces ← pieceList? dotted rest
    some (piece :: pieces)

/-- The pieces between colons; an empty text has none. -/
def pieces? (dotted : Bool) (cs : List Char) : Option (List Nat) :=
  if cs.isEmpty then some [] else pieceList? dotted (splitOn (· == ':') cs)

/-- A text cut at its first doubled colon. -/
def cutGap? : List Char → Option (List Char × List Char)
  | ':' :: ':' :: rest => some ([], rest)
  | c :: rest => (cutGap? rest).map fun cut => (c :: cut.1, cut.2)
  | [] => none

/-- The eight pieces of an address; a doubled colon stands for at least one piece
that is zero. -/
def eightPieces? (cs : List Char) : Option (List Nat) :=
  match cutGap? cs with
  | some (left, right) => do
    let before ← pieces? false left
    let after ← pieces? true right
    -- The gap stands for one piece at least.
    if before.length + after.length ≤ 7 then
      some (before ++ List.replicate (8 - before.length - after.length) 0 ++ after)
    else none
  | none => do
    let pieces ← pieces? true cs
    if pieces.length = 8 then some pieces else none

/-- The number of zeros at the beginning of a list. -/
def zeroRun (pieces : List Nat) : Nat :=
  (pieces.takeWhile (· == 0)).length

/-- The place and length of the first longest run of zeros, from a given place on. -/
def longestRun (place : Nat) : List Nat → Nat × Nat
  | [] => (place, 0)
  | piece :: rest =>
    let later := longestRun (place + 1) rest
    let here := zeroRun (piece :: rest)
    if later.2 ≤ here then (place, here) else later

/-- Texts with a separator between them. -/
def joinWith (separator : Char) : List (List Char) → List Char
  | [] => []
  | [text] => text
  | text :: rest => text ++ separator :: joinWith separator rest

/-- How eight pieces are written: the first longest run of at least two zeros is a
doubled colon. -/
def writePieces (pieces : List Nat) : List Char :=
  let write (ps : List Nat) := joinWith ':' (ps.map (Nat.toDigits 16))
  let run := longestRun 0 pieces
  if 2 ≤ run.2 then
    write (pieces.take run.1) ++ [':', ':'] ++ write (pieces.drop (run.1 + run.2))
  else write pieces

/-! ## Hosts -/

/-- Whether a character may not stand in the name of a well-known scheme. -/
def isForbiddenInName (c : Char) : Bool :=
  c.toNat ≤ 0x20 || c.toNat == 0x7f ||
    ['%', '#', '/', ':', '<', '>', '?', '@', '[', '\\', ']', '^', '|'].contains c

/-- The ASCII form of names beyond plain ASCII, if they have one. -/
abbrev NameForm := List Char → Option (List Char)

/-- Names that are in ASCII stay as they are but for capitals, and others have no form. -/
def asciiOnly : NameForm := fun cs =>
  if cs.all fun c => c.toNat < 0x80 then some (cs.map Char.toLower) else none

/-- Whether a label is marked as the ASCII form of another one. -/
def isEncoded (label : List Char) : Bool :=
  ['x', 'n', '-', '-'].isPrefixOf label

/-- The ASCII form of the name that some bytes encode. Plain ASCII loses its capitals. -/
def asciiName? (names : NameForm) (bytes : List UInt8) : Option (List Char) :=
  let plain := bytes.map fun byte => (Char.ofNat byte.toNat).toLower
  if (bytes.all fun byte => byte < 0x80) && !(labels plain).any isEncoded then some plain
  else (String.fromUTF8? ⟨bytes.toArray⟩).bind fun name => names name.toList

/-- Whether a character may not stand in the name of another scheme. -/
def isForbiddenInPlainName (c : Char) : Bool :=
  ['\x00', '\t', '\n', '\r', ' ', '#', '/', ':', '<', '>', '?', '@', '[', '\\', ']', '^',
    '|'].contains c

namespace Host

/-- An address between brackets. -/
def bracketed? (cs : List Char) : Option Host :=
  if cs.getLast? = some ']' then (eightPieces? cs.tail.dropLast).map eight else none

/-- The host that a name in ASCII stands for. -/
def ofName? (label : List Char) : Option Host :=
  if label.isEmpty || label.any fun c => isForbiddenInName c || 0x80 ≤ c.toNat then none
  else if endsInNumber label then (fourBytes? label).map four
  else some (.name label)

/-- The host of a well-known scheme. -/
def parse? (names : NameForm) (cs : List Char) : Option Host :=
  if cs.head? = some '[' then bracketed? cs
  else
    let bytes := unescape cs
    if bytes.any fun byte => isForbiddenInName (Char.ofNat byte.toNat) then none
    else (asciiName? names bytes).bind ofName?

/-- The host of another scheme. -/
def parsePlain? (cs : List Char) : Option Host :=
  if cs.head? = some '[' then bracketed? cs
  else if cs.any isForbiddenInPlainName then none
  else some (.name (escape [] cs))

/-- How a host is written. -/
def text : Host → List Char
  | name label => label
  | four address => joinWith '.' ((byteList address).map (Nat.toDigits 10))
  | eight pieces => '[' :: writePieces pieces ++ [']']

/-- Whether a host is the empty name. -/
def isEmpty : Host → Bool
  | name [] => true
  | _ => false

end Host

end EdgeSync.Web
