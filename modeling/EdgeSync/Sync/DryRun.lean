import EdgeSync.Model.Artifact
import EdgeSync.Observe.Record

/-!
# The Dry Run

A dry run touches no registry: it logs what it would replicate and delete, and
logs a notice where others would be notified.

## Main definitions

- `Artifact.reference`: how the log names an artifact
- `DryRun.replicate`, `DryRun.delete`, `DryRun.notify`: the records
-/

namespace EdgeSync

/-- How the log names an artifact: its path, and its first tag or else its digest. -/
def Artifact.reference (a : Artifact) : String :=
  let path :=
    if a.repository.isEmpty || a.repository == a.name then a.name
    else a.repository ++ "/" ++ a.name
  match a.firstTag? with
  | some tag => path ++ ":" ++ tag
  | none => path ++ "@" ++ a.digest

namespace DryRun

/-- The record of one artifact. -/
def record (message destination : String) (a : Artifact) : LogRecord :=
  ⟨.info, message,
    [("destination", .text destination), ("artifact", .text a.reference),
     ("digest", .text a.digest)]⟩

/-- What the dry run logs instead of replicating. -/
def replicate (destination : String) (artifacts : List Artifact) : List LogRecord :=
  artifacts.map (record "replicate (dry run)" destination)

/-- What the dry run logs instead of deleting. -/
def delete (destination : String) (artifacts : List Artifact) : List LogRecord :=
  artifacts.map (record "delete (dry run)" destination)

/-- What is logged instead of notifying others. -/
def notify : LogRecord :=
  ⟨.info, "state reconciled", []⟩

end DryRun

end EdgeSync
