import EdgeSync.Model.ConfigFile
import EdgeSync.Sync.Site

/-!
# Refresh

The refresh reads the locators again from where the configuration comes from and
announces them if they differ from those announced last.

## Main definitions

- `UpdateSource`, `UpdateSource.fetch`: where locators are read from
- `Refresh.accept`, `Refresh.execute`: the execution of the task
-/

namespace EdgeSync

open EdgeSync.Text

/-! ## Sources -/

/-- Where locators are read from: a configuration file, or answers prepared for one
fetch after the other, the last of which is repeated. -/
inductive UpdateSource where
  | file (path : String)
  | prepared (answers : List (Except SyncFault LocatorUpdate))

/-- The locators in a configuration file. -/
def fetchConfigFile (files : FileTree) (path : String) : Except SyncFault LocatorUpdate :=
  match files.readText path with
  | .error fault => .error (.unreadable path fault)
  | .ok s =>
    match Config.parse (Document.ofString s) with
    | .error fault => .error (.undecodable fault)
    | .ok c => .ok ⟨c.enrollment.states⟩

/-- Read the locators, and go on to the next prepared answer. -/
def UpdateSource.fetch (files : FileTree) :
    UpdateSource → Except SyncFault LocatorUpdate × UpdateSource
  | .file path => (fetchConfigFile files path, .file path)
  | .prepared [] => (.ok ⟨[]⟩, .prepared [])
  | .prepared [last] => (last, .prepared [last])
  | .prepared (answer :: rest) => (answer, .prepared rest)

/-! ## The task -/

/-- The source of a refresh, and the locators that it announced last. -/
structure Refresh where
  source : UpdateSource
  last : Option LocatorUpdate

namespace Refresh

/-- The name of the task. -/
def name : String := "update-config-process"

/-- A refresh that has announced nothing. -/
def new (source : UpdateSource) : Refresh := ⟨source, none⟩

/-- Go on with the locators that were read. -/
def accept (r : Refresh) (s : Site) (answer : Except SyncFault LocatorUpdate) :
    Outcome × Refresh × Site :=
  match answer with
  | .error fault => (.failed fault.taskFault, r, s)
  | .ok update =>
    if r.last = some update then (.done .continue, r, s)
    else
      match s.publishAll [Event.of name (.updated update)] with
      | (.error fault, s) => (.failed fault.taskFault, r, s)
      | (.ok _, s) => (.done .continue, { r with last := some update }, s)

/-- Execute the task; if it is canceled before, nothing is read. -/
def execute (r : Refresh) (s : Site) (isCanceled : Bool) : Outcome × Refresh × Site :=
  if isCanceled then (.failed .canceled, r, s)
  else
    let (answer, source) := r.source.fetch s.files
    { r with source }.accept s answer

end Refresh

end EdgeSync
