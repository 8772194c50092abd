import EdgeSync.Model.Artifact

/-!
# Snapshots

A snapshot lists the artifacts that a registry should hold at one time. A fetched
snapshot is normalized and loses its untagged artifacts before it is compared.

## Main definitions

- `Snapshot`: the record
- `Snapshot.prepare`: normalize and drop untagged artifacts
- `Snapshot.parse`: read a document
-/

namespace EdgeSync

open EdgeSync.Json EdgeSync.Text

/-- The artifacts that a registry should hold. -/
structure Snapshot where
  registry : String
  artifacts : List Artifact
  deriving DecidableEq, Repr, Inhabited

namespace Snapshot

/-- The snapshot without artifacts. -/
def empty : Snapshot := ⟨"", []⟩

/-- Normalize every artifact. -/
def normalize (s : Snapshot) : Snapshot :=
  { s with artifacts := s.artifacts.map Artifact.normalize }

/-- Drop the untagged artifacts. -/
def retainTagged (s : Snapshot) : Snapshot :=
  { s with artifacts := s.artifacts.filter Artifact.isTagged }

/-- The number of untagged artifacts. -/
def untaggedCount (s : Snapshot) : Nat :=
  s.artifacts.length - s.retainTagged.artifacts.length

/-- The form in which snapshots are compared. -/
def prepare (s : Snapshot) : Snapshot :=
  s.normalize.retainTagged

/-! ## JSON form -/

/-- The fields in their order. -/
def shape : Shape Snapshot where
  name := "State"
  fields :=
    [.optional "registry" .text fun v s => { s with registry := v },
     .optional "artifacts" (.orNull [] (.list Artifact.reader)) fun v s =>
       { s with artifacts := v }]

/-- Read a snapshot; absent fields are empty. -/
def reader : Reader Snapshot :=
  shape.reader empty

/-- Read a document that holds a snapshot. -/
def parse (d : Document) : Except Fault Snapshot :=
  reader.readAll d

/-- The JSON form, with every field. -/
def toJson (s : Snapshot) : Value :=
  .object [("registry", .text s.registry), ("artifacts", .list (s.artifacts.map Artifact.toJson))]

end Snapshot

end EdgeSync
