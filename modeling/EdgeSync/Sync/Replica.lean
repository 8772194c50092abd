import EdgeSync.Model.Artifact
import EdgeSync.Sync.DryRun

/-!
# The Replica

The replica is asked to delete artifacts, to take over new ones, and to give notice
when a snapshot is reached. Here it keeps a list of what it was asked to do. A cue
tells what happens while it does so.

## Main definitions

- `ReplicaCall`: what the replica is asked to do
- `ReplicaCall.dryRun`: what a dry run logs for it
- `Cue`: what happens meanwhile
-/

namespace EdgeSync

/-- What the replica is asked to do. -/
inductive ReplicaCall where
  | delete (artifacts : List Artifact)
  | replicate (artifacts : List Artifact)
  | notify
  deriving DecidableEq, Repr

/-- The kinds of calls. -/
inductive ReplicaCallKind where
  | delete
  | replicate
  | notify
  deriving DecidableEq, Repr

/-- The kind of a call. -/
def ReplicaCall.kind : ReplicaCall → ReplicaCallKind
  | delete _ => .delete
  | replicate _ => .replicate
  | notify => .notify

/-- What a dry run logs for a call. -/
def ReplicaCall.dryRun (destination : String) : ReplicaCall → List LogRecord
  | delete artifacts => DryRun.delete destination artifacts
  | replicate artifacts => DryRun.replicate destination artifacts
  | notify => [DryRun.notify]

/-- What happens during a call: it fails, its scope is canceled, its scope is canceled
and it never ends, or the locators are replaced. -/
inductive CueAction where
  | fail (reason : String)
  | cancel
  | cancelAndHang
  | setLocators (locators : List String)
  deriving DecidableEq, Repr

/-- What happens during all calls of a kind. -/
structure Cue where
  kind : ReplicaCallKind
  action : CueAction
  deriving DecidableEq, Repr

end EdgeSync
