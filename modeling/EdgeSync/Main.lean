import EdgeSync.Agent.Agent
import EdgeSync.Agent.ConfigPath
import EdgeSync.Observe.Line
import Std.Time.DateTime.Timestamp

/-!
# The Command Line

The agent runs from the command line until the process ends. The path of the
configuration is the first argument or comes from the environment. The agent makes
a dry run: it logs what it would replicate and delete. It has no connection, so it
reaches snapshots in files only.

## Main definitions

- `main`: start the agent and let it run
-/

namespace EdgeSync.CommandLine

/-! ## The disk -/

/-- The file or directory at a path of the disk, if there is one. -/
def nodeAt? (path : String) : IO (Option FileNode) := do
  try
    let place ← IO.FS.realPath path
    if ← place.isDir then return some .directory
    else return some (.file (← IO.FS.readBinFile place))
  catch _ => return none

/-- What is on the disk at some paths. -/
def readTree (paths : List String) : IO FileTree :=
  paths.foldlM (fun tree path => do
    match ← nodeAt? path with
    | some node => return tree.install path node
    | none => return tree) .empty

/-- Write a file of a tree to the disk. -/
def writeBack (files : FileTree) (path : String) : IO Unit := do
  match files.read path with
  | .ok content => try IO.FS.writeBinFile path content catch _ => return
  | .error _ => return

/-! ## The clock and the log -/

/-- The instant that it is now. -/
def now : IO Time.Instant := do
  return ⟨(← Std.Time.Timestamp.now).toNanosecondsSinceUnixEpoch.val⟩

/-- Write records to the log. -/
def log (settings : LoggerSettings) (records : List LogRecord) : IO Unit := do
  for r in records do
    if settings.shows r then IO.println (r.line settings.format)
  (← IO.getStdout).flush

/-! ## The agent -/

/-- How long the agent rests between two looks at the clock, in milliseconds. -/
def rest : UInt32 := 100

/-- Let an agent make up for the time since it last looked at the clock. -/
def catchUp (settings : LoggerSettings) (path : String) (millis : Nat) (a : Agent) :
    IO Agent := do
  let files ← readTree (path :: a.scene.reconciler.locators)
  let scene := { a.scene with site := { a.scene.site with files } }
  let (news, b) :=
    ({ a with scene, clock := { a.clock with wall := ← now } }.pass millis).takeNews
  if a.scene.site.store.written < b.scene.site.store.written then
    writeBack b.scene.site.files path
  let destination := b.scene.site.store.localRegistryUrl
  log settings (news.records ++ news.calls.flatMap (ReplicaCall.dryRun destination))
  return b

/-- Let an agent run for ever. -/
partial def run (settings : LoggerSettings) (path : String) (seen : Nat) (a : Agent) :
    IO Unit := do
  IO.sleep rest
  let time ← IO.monoMsNow
  run settings path time (← catchUp settings path (time - seen) a)

/-- Say why the agent cannot run. -/
def giveUp (message : String) : IO UInt32 := do
  IO.eprintln ("Error: " ++ message)
  return 1

/-- Start an agent over a loaded store and let it run. -/
def serve (settings : LoggerSettings) (path : String) (files : FileTree)
    (store : ConfigStore) : IO UInt32 := do
  let site : Site := ⟨files, .bare false, store, .new Broker.defaultCapacity⟩
  match Agent.start site (.file path) (← now) with
  | .error (fault, _) => giveUp fault.message
  | .ok a =>
    run settings path (← IO.monoMsNow) a
    return 0

end EdgeSync.CommandLine

open EdgeSync EdgeSync.CommandLine in
/-- Load the configuration, set up the log, and let the agent run. -/
def main (arguments : List String) : IO UInt32 := do
  let path := configPath arguments.head? (← IO.getEnv configVariable)
  let files ← readTree [path]
  match ConfigStore.load files path with
  | .error fault =>
    giveUp ("failed to load configuration from " ++ path ++ ": " ++
      ConfigStore.loadFaultMessage fault)
  | .ok (store, warnings) =>
    match LoggerSettings.resolve store.config.logLevel (← IO.getEnv "SATELLITE_LOG_FORMAT") with
    | .error fault => giveUp fault.message
    | .ok settings =>
      match settings.directives with
      | .error fault => giveUp fault.message
      | .ok _ =>
        log settings (warnings.map fun w =>
          ⟨.warning, "configuration adjusted", [("warning", .text w.message)]⟩)
        serve settings path files store
