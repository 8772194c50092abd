import EdgeSync.Event.Event
import EdgeSync.Json.Fault
import EdgeSync.Sync.Locator
import EdgeSync.Task.Tick
import EdgeSync.Web.Exchange

/-!
# Faults of Synchronization

## Main definitions

- `SyncFault`: why a step of the synchronization failed
- `SyncFault.taskFault`: what it means for the task that took the step
-/

namespace EdgeSync

/-- Why a step of the synchronization failed. -/
inductive SyncFault where
  | request (fault : Web.WebFault)
  | rejected (reason : String)
  | invalidResponse (reason : String)
  | incompleteAuth (missing : List String)
  | invalidLocator (locator : String) (fault : PathFault)
  | undecodable (fault : Json.Fault)
  | unreadable (path : String) (fault : FileFault)
  | replication (reason : String)
  | notification (reason : String)
  | publication (fault : TopicMismatch)
  | canceled
  deriving DecidableEq, Repr

namespace SyncFault

/-- The wording of a fault. -/
def message : SyncFault → String
  | request fault => "http request failed: " ++ fault.message
  | rejected reason => "request rejected: " ++ reason
  | invalidResponse reason => "invalid response: " ++ reason
  | incompleteAuth missing => "incomplete credentials: missing " ++ ", ".intercalate missing
  | invalidLocator locator fault => "invalid locator " ++ locator ++ ": " ++ fault.message
  | undecodable fault => "failed to decode state: " ++ fault.report
  | unreadable path fault => "failed to read " ++ path ++ ": " ++ fault.message
  | replication reason => "replication failed: " ++ reason
  | notification reason => "notification failed: " ++ reason
  | publication fault => "publish failed: " ++ fault.message
  | canceled => "canceled"

/-- What a fault means for the task that met it. -/
def taskFault : SyncFault → TaskFault
  | canceled => .canceled
  | fault => .failed fault.message

end SyncFault

end EdgeSync
