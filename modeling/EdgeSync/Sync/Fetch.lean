import EdgeSync.Model.Snapshot
import EdgeSync.Sync.Fault

/-!
# Fetching Snapshots

A snapshot is fetched from where its locator says it is. A request carries the
account for the source registry if there is one.

## Main definitions

- `fetchFile`: a snapshot in a file
- `readResponse`: the snapshot in a response
- `fetch`: the snapshot at a locator
-/

namespace EdgeSync

open EdgeSync.Text EdgeSync.Web

/-- Read a document that holds a snapshot. -/
def readSnapshot (d : Document) : Except SyncFault Snapshot :=
  match Snapshot.parse d with
  | .ok snapshot => .ok snapshot
  | .error fault => .error (.undecodable fault)

/-- The snapshot in a file. -/
def fetchFile (files : FileTree) (path : String) : Except SyncFault Snapshot :=
  match files.read path with
  | .error fault => .error (.unreadable path fault)
  | .ok content => readSnapshot (Document.ofBytes content)

/-- The snapshot in the response from an address. -/
def readResponse (url : Url) : Except WebFault Response → Except SyncFault Snapshot
  | .error fault => .error (.request fault)
  | .ok response =>
    if isSuccess response.status then readSnapshot response.body
    else .error (.rejected ("GET " ++ url.text ++ " returned " ++ statusText response.status))

/-- The account for a request; there is none without a name. -/
def accountFor (username password : String) : Option Account :=
  if username.isEmpty then none else some ⟨username, password⟩

/-- The snapshot at a locator. -/
def fetch (files : FileTree) (network : Network) (account : Option Account) :
    Locator → Except SyncFault Snapshot × Network
  | .file path => (fetchFile files path, network)
  | .web url =>
    let (response, network) := network.get url account
    (readResponse url response, network)

end EdgeSync
