import EdgeSync.Json.Record
import EdgeSync.Json.Value
import EdgeSync.Text.Blank

/-!
# Artifacts

An artifact is an image in a registry: a repository, a name, tags, and the digest
of its content. Its key, made of the name and the first tag, says which artifacts
of two snapshots are the same one at different times.

## Main definitions

- `Artifact`: the record
- `Artifact.key?`: the key of a tagged artifact
- `Artifact.normalize`: move the last segment of the repository path into the name
- `Artifact.reader`, `Artifact.toJson`: the JSON form
-/

namespace EdgeSync

open EdgeSync.Json

/-- An image in a registry. -/
structure Artifact where
  repository : String
  name : String
  tags : List String
  labels : List String
  kind : String
  digest : String
  deleted : Bool
  deriving DecidableEq, Repr, Inhabited

namespace Artifact

/-- The artifact with nothing filled in. -/
def empty : Artifact := ⟨"", "", [], [], "", "", false⟩

/-! ## Identity -/

/-- The first tag. -/
def firstTag? (a : Artifact) : Option String :=
  a.tags.head?

/-- Whether there is a tag. -/
def isTagged (a : Artifact) : Bool :=
  !a.tags.isEmpty

/-- The key of a tagged artifact: its name and first tag. -/
def key? (a : Artifact) : Option String :=
  a.firstTag?.map fun tag => a.name ++ "|" ++ tag

/-! ## Normal form -/

/-- Whether a character divides the segments of a path. -/
def isSlash (c : Char) : Bool :=
  c == '/'

/-- A path cut at its last slash, if it has one. -/
def splitLast? (path : List Char) : Option (List Char × List Char) :=
  let reversed := path.reverse
  match reversed.dropWhile fun c => !isSlash c with
  | [] => none
  | _ :: before => some (before.reverse, (reversed.takeWhile fun c => !isSlash c).reverse)

/-- Split the repository path, without slashes at its end, into the repository and
the name. A path of one segment is both; an empty path changes nothing. -/
def normalize (a : Artifact) : Artifact :=
  let path := Text.dropEndWhile isSlash a.repository.toList
  if path.isEmpty then a
  else
    match splitLast? path with
    | some (parent, leaf) =>
      { a with repository := String.ofList parent, name := String.ofList leaf }
    | none => { a with repository := String.ofList path, name := String.ofList path }

/-! ## JSON form -/

/-- The fields in their order. -/
def shape : Shape Artifact where
  name := "Artifact"
  fields :=
    [.optional "repository" .text fun v a => { a with repository := v },
     .optional "name" .text fun v a => { a with name := v },
     .optional "tags" (.orNull [] (.list .text)) fun v a => { a with tags := v },
     .optional "labels" (.orNull [] (.list .text)) fun v a => { a with labels := v },
     .optional "type" .text fun v a => { a with kind := v },
     .optional "digest" .text fun v a => { a with digest := v },
     .optional "deleted" .flag fun v a => { a with deleted := v }]

/-- Read an artifact; absent fields are empty. -/
def reader : Reader Artifact :=
  shape.reader empty

/-- The JSON form, with every field. -/
def toJson (a : Artifact) : Value :=
  .object
    [("repository", .text a.repository), ("name", .text a.name),
     ("tags", .list (a.tags.map .text)), ("labels", .list (a.labels.map .text)),
     ("type", .text a.kind), ("digest", .text a.digest), ("deleted", .flag a.deleted)]

end Artifact

end EdgeSync
