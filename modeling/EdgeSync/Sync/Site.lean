import EdgeSync.Event.Broker
import EdgeSync.Store.ConfigStore
import EdgeSync.Sync.Fetch

/-!
# Sites

A site is what the tasks of an agent share: the files, the network, the store of
the configuration, and the broker.

## Main definitions

- `Site`: the shared things
- `Site.enroll`, `Site.publish`: changes that tasks make
-/

namespace EdgeSync

open EdgeSync.Web

/-- What the tasks of an agent share. -/
structure Site where
  files : FileTree
  network : Network
  store : ConfigStore
  broker : Broker

namespace Site

/-- Replace the enrollment. If it cannot be written to the file of the store, the
store has it nevertheless. -/
def enroll (s : Site) (e : Enrollment) : Site :=
  let (store, files, _) := s.store.enroll s.files e
  { s with store, files }

/-- Publish an event. -/
def publish (s : Site) (e : Event) : Except TopicMismatch Nat × Site :=
  let (answer, broker) := s.broker.publish e
  (answer, { s with broker })

/-- Publish events one after the other, up to the first that is refused. -/
def publishAll (s : Site) : List Event → Except SyncFault Unit × Site
  | [] => (.ok (), s)
  | e :: rest =>
    match s.publish e with
    | (.error fault, s) => (.error (.publication fault), s)
    | (.ok _, s) => publishAll s rest

end Site

end EdgeSync
