import EdgeSync.Model.ConfigFile
import EdgeSync.Store.JobCheck

/-!
# The Configuration Store

The store holds the current configuration. Every change replaces it as a whole and
gives it the next version. A store that was loaded from a file writes each new
enrollment back; a version is written only if no newer one has been written.

## Main definitions

- `ConfigStore`: the current configuration and what is known of its file
- `ConfigStore.load`: a store over a checked configuration file
- `writeVersionBy`, `writeVersion`: write one version unless a newer one is there
- `ConfigStore.enroll`: replace the enrollment and write it back
-/

namespace EdgeSync

/-- The current configuration. `version` counts its changes, and `written` is the
version that the file holds. -/
structure ConfigStore where
  config : Config
  version : Nat
  written : Nat
  path : Option String
  deriving DecidableEq, Repr

namespace ConfigStore

/-- A store that has no file. -/
def ofConfig (c : Config) : ConfigStore := ⟨c, 0, 0, none⟩

/-- The wording of a fault that keeps a store from being loaded. -/
def loadFaultMessage (f : ConfigFault) : String :=
  "config error: " ++ f.message

/-- A store over a configuration file, with the warnings of the check of its jobs. -/
def load (files : FileTree) (path : String) :
    Except ConfigFault (ConfigStore × List JobWarning) :=
  match Config.load files path with
  | .error fault => .error fault
  | .ok c =>
    let checked := c.checkJobs
    .ok (⟨checked.1, 0, 0, some path⟩, checked.2)

/-! ## Looking at the configuration -/

/-- The registry that artifacts come from. -/
def remoteRegistryUrl (s : ConfigStore) : String :=
  s.config.enrollment.auth.registry

/-- The registry that artifacts go to: the operator's own one, or the bundled one. -/
def localRegistryUrl (s : ConfigStore) : String :=
  if s.config.settings.bringOwnRegistry then
    s.config.settings.ownRegistryAddr ++ ":" ++ s.config.settings.ownRegistryPort
  else s.config.zotUrl

/-- The schedule of the first job of a given name. -/
def jobSchedule? (s : ConfigStore) (job : String) : Option String :=
  (s.config.job? job).map Job.schedule

/-! ## Changing the configuration -/

/-- Replace the configuration. -/
def update (s : ConfigStore) (f : Config → Config) : ConfigStore :=
  { s with config := f s.config, version := s.version + 1 }

/-- Replace the registry that artifacts come from; the file keeps the old one. -/
def setRemoteRegistryUrl (s : ConfigStore) (url : String) : ConfigStore :=
  s.update fun c =>
    let auth := { c.enrollment.auth with registry := url }
    { c with enrollment := { c.enrollment with auth } }

/-- Why a version could not be written. -/
structure WriteFault where
  path : String
  fault : FileFault
  deriving DecidableEq, Repr

/-- The wording of a fault. -/
def WriteFault.message (w : WriteFault) : String :=
  w.path ++ ": " ++ w.fault.message

/-- What a write may change: the files and the version that the file holds. -/
structure Written where
  files : FileTree
  version : Nat

/-- Write one version of a configuration unless the file holds that one or a newer
one; the answer says whether it was written. How the system takes a new content is
given by `write`. -/
def writeVersionBy (write : FileTree → ByteArray → Except FileFault FileTree) (path : String)
    (c : Config) (version : Nat) (w : Written) : Except WriteFault Bool × Written :=
  if version ≤ w.version then (.ok false, w)
  else
    match write w.files c.prettyText.toUTF8 with
    | .error fault => (.error ⟨path, fault⟩, w)
    | .ok files => (.ok true, ⟨files, version⟩)

/-- Write one version of a configuration to a path. -/
def writeVersion (path : String) (c : Config) (version : Nat) (w : Written) :
    Except WriteFault Bool × Written :=
  writeVersionBy (fun files => files.write path) path c version w

/-- Replace the enrollment as a whole and write the configuration back. A failed
write leaves the store as it is and is reported. -/
def enroll (s : ConfigStore) (files : FileTree) (e : Enrollment) :
    ConfigStore × FileTree × Option WriteFault :=
  let next := s.update fun c => { c with enrollment := e }
  match next.path with
  | none => (next, files, none)
  | some path =>
    match writeVersion path next.config next.version ⟨files, next.written⟩ with
    | (.error fault, w) => ({ next with written := w.version }, w.files, some fault)
    | (.ok _, w) => ({ next with written := w.version }, w.files, none)

end ConfigStore

end EdgeSync
