import EdgeSync.Model.Snapshot

/-!
# Changes Between Snapshots

Two tagged artifacts are the same one at different times if they have the same
key. Comparing two snapshots gives the artifacts that the replica has to delete and
those that it has to replicate. Untagged artifacts take no part.

Each key of the old snapshot stands for its last artifact and can be met once: an
artifact of the new snapshot takes the old one of its key away, so a second one of
the same key counts as new.

## Main definitions

- `Changes`: what has to be deleted and replicated
- `lastOfEachKey`: the artifacts that the keys of a snapshot stand for
- `changes`: the comparison of two snapshots
-/

namespace EdgeSync

/-- What the replica has to do to follow a snapshot. -/
structure Changes where
  delete : List Artifact
  replicate : List Artifact
  deriving DecidableEq, Repr

namespace Changes

/-- Whether there is nothing to do. -/
def isEmpty (c : Changes) : Bool :=
  c.delete.isEmpty && c.replicate.isEmpty

/-- One more artifact to replicate, before the others. -/
def withNew (a : Artifact) (c : Changes) : Changes :=
  { c with replicate := a :: c.replicate }

/-- One more artifact that replaces an old one, before the others. -/
def withReplaced (previous a : Artifact) (c : Changes) : Changes :=
  ⟨previous :: c.delete, a :: c.replicate⟩

end Changes

/-- Whether an artifact has a given key. -/
def Artifact.hasKey (key : String) (a : Artifact) : Bool :=
  a.key? == some key

/-- The last artifact of each key, in the order of the list. -/
def lastOfEachKey : List Artifact → List Artifact
  | [] => []
  | a :: rest =>
    match a.key? with
    | none => lastOfEachKey rest
    | some key => if rest.any (Artifact.hasKey key) then lastOfEachKey rest
      else a :: lastOfEachKey rest

/-- Compare new artifacts with the old ones that have not been met yet. Those that
are never met are deleted last. -/
def compareWith (unmet : List Artifact) : List Artifact → Changes
  | [] => ⟨unmet, []⟩
  | a :: rest =>
    match a.key? with
    | none => compareWith unmet rest
    | some key =>
      match unmet.find? (Artifact.hasKey key) with
      | none => (compareWith unmet rest).withNew a
      | some previous =>
        let later := compareWith (unmet.filter fun b => !b.hasKey key) rest
        -- The same digest means that the replica has it.
        if previous.digest = a.digest then later else later.withReplaced previous a

/-- Compare the last known snapshot, if there is one, with a new one. -/
def changes (old : Option Snapshot) (new : Snapshot) : Changes :=
  match old with
  | none => ⟨[], new.artifacts.filter Artifact.isTagged⟩
  | some old => compareWith (lastOfEachKey old.artifacts) new.artifacts

end EdgeSync
