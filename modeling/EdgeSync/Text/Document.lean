/-!
# Documents

A document is what a file or a reply holds: a sequence of characters in which
single bytes may stand that belong to no character. Keeping such bytes as members
of the sequence lets a reader pass over them where they do no harm and refuse
them elsewhere.

## Main definitions

- `Glyph`: a character or a stray byte
- `Document`, `Document.ofString`, `Document.ofBytes`: texts and bytes as documents
- `Document.text?`: the text of a document without stray bytes
-/

namespace EdgeSync.Text

/-- A character, or a byte that belongs to none. -/
inductive Glyph where
  | char (c : Char)
  | stray (byte : UInt8)
  deriving DecidableEq, Repr

/-- The number of bytes that a glyph takes. -/
def Glyph.size : Glyph → Nat
  | .char c => c.utf8Size
  | .stray _ => 1

/-- The character of a glyph that is one. -/
def Glyph.char? : Glyph → Option Char
  | .char c => some c
  | .stray _ => none

/-- A sequence of glyphs. -/
abbrev Document := List Glyph

namespace Document

/-- A text as a document. -/
def ofString (s : String) : Document :=
  s.toList.map Glyph.char

/-- The number of bytes of a document. -/
def byteSize (d : Document) : Nat :=
  d.foldr (fun g size => g.size + size) 0

/-- The character that some bytes encode, if they encode exactly one. -/
def charOf? (bytes : List UInt8) : Option Char :=
  match (String.fromUTF8? ⟨bytes.toArray⟩).map String.toList with
  | some [c] => some c
  | _ => none

/-- The first glyph of a non-empty sequence of bytes and the number of its bytes. -/
def firstGlyph (byte : UInt8) (rest : List UInt8) : Glyph × Nat :=
  match [1, 2, 3, 4].findSome? fun n =>
      (charOf? ((byte :: rest).take n)).map fun c => (Glyph.char c, n) with
  | some answer => answer
  | none => (.stray byte, 1)

/-- The glyphs of a sequence of bytes, from left to right. -/
def scan : List UInt8 → Document
  | [] => []
  | byte :: rest =>
    let answer := firstGlyph byte rest
    answer.1 :: scan (rest.drop (answer.2 - 1))
termination_by bytes => bytes.length
decreasing_by simp only [List.length_drop, List.length_cons]; omega

/-- Bytes as a document; bytes that encode a text stand for that text. -/
def ofBytes (bytes : ByteArray) : Document :=
  match String.fromUTF8? bytes with
  | some s => ofString s
  | none => scan bytes.toList

/-- The text of a document without stray bytes. -/
def text? (d : Document) : Option String :=
  (d.mapM Glyph.char?).map String.ofList

end Document

end EdgeSync.Text
