import EdgeSync.Model.Enrollment

/-!
# Configuration

The configuration holds the current enrollment, the operator's settings and the
address of the bundled registry. The settings name jobs with their schedules;
three jobs are well known and have default schedules.

## Main definitions

- `Job`, `Settings`, `Config`: the records
- `defaultSchedule?`: the default schedules of the well-known jobs
- `Config.parse`, `Config.toJson`: the JSON form
-/

namespace EdgeSync

open EdgeSync.Json EdgeSync.Text

/-! ## Jobs -/

/-- A job and the expression of its schedule. -/
structure Job where
  name : String
  schedule : String
  deriving DecidableEq, Repr, Inhabited

namespace Job

/-- The job that follows snapshots. -/
def replicateState : String := "replicate_state"

/-- The job that reads locators again. -/
def updateConfig : String := "update_config"

/-- The job that registers at ground control. -/
def registerSatellite : String := "register_satellite"

/-- The default schedule of a well-known job. -/
def defaultSchedule? (name : String) : Option String :=
  if name = replicateState then some "@every 00h00m30s"
  else if name = updateConfig then some "@every 00h00m10s"
  else if name = registerSatellite then some "@every 00h00m05s"
  else none

/-- The fields in their order. -/
def shape : Shape Job where
  name := "Job"
  fields :=
    [.needed "name" .text fun v j => { j with name := v },
     .needed "cron_expression" .text fun v j => { j with schedule := v }]

/-- Read a job. -/
def reader : Reader Job :=
  shape.reader ⟨"", ""⟩

/-- The JSON form. -/
def toJson (j : Job) : Value :=
  .object [("name", .text j.name), ("cron_expression", .text j.schedule)]

end Job

/-! ## Settings -/

/-- Settings supplied by the operator. -/
structure Settings where
  bringOwnRegistry : Bool
  groundControlUrl : String
  logLevel : String
  ownRegistryAddr : String
  ownRegistryPort : String
  useUnsecure : Bool
  zotConfigPath : String
  token : String
  jobs : List Job
  deriving DecidableEq, Repr, Inhabited

namespace Settings

/-- The settings with nothing filled in. -/
def empty : Settings := ⟨false, "", "", "", "", false, "", "", []⟩

/-- The fields in their order. -/
def shape : Shape Settings where
  name := "LocalConfig"
  fields :=
    [.optional "bring_own_registry" .flag fun v s => { s with bringOwnRegistry := v },
     .optional "ground_control_url" .text fun v s => { s with groundControlUrl := v },
     .optional "log_level" .text fun v s => { s with logLevel := v },
     .optional "own_registry_addr" .text fun v s => { s with ownRegistryAddr := v },
     .optional "own_registry_port" .text fun v s => { s with ownRegistryPort := v },
     .optional "use_unsecure" .flag fun v s => { s with useUnsecure := v },
     .optional "zot_config_path" .text fun v s => { s with zotConfigPath := v },
     .optional "token" .text fun v s => { s with token := v },
     .optional "jobs" (.list Job.reader) fun v s => { s with jobs := v }]

/-- Read settings; absent fields are empty. -/
def reader : Reader Settings :=
  shape.reader empty

/-- The JSON form, with every field. -/
def toJson (s : Settings) : Value :=
  .object
    [("bring_own_registry", .flag s.bringOwnRegistry),
     ("ground_control_url", .text s.groundControlUrl),
     ("log_level", .text s.logLevel),
     ("own_registry_addr", .text s.ownRegistryAddr),
     ("own_registry_port", .text s.ownRegistryPort),
     ("use_unsecure", .flag s.useUnsecure),
     ("zot_config_path", .text s.zotConfigPath),
     ("token", .text s.token),
     ("jobs", .list (s.jobs.map Job.toJson))]

end Settings

/-! ## Configurations -/

/-- The whole configuration. -/
structure Config where
  enrollment : Enrollment
  settings : Settings
  zotUrl : String
  deriving DecidableEq, Repr, Inhabited

namespace Config

/-- The configuration with nothing filled in. -/
def empty : Config := ⟨.empty, .empty, ""⟩

/-- The first job of a given name. -/
def job? (c : Config) (name : String) : Option Job :=
  c.settings.jobs.find? fun j => j.name == name

/-- The level of detail of the log. -/
def logLevel (c : Config) : String :=
  if c.settings.logLevel.isEmpty then "info" else c.settings.logLevel

/-- The fields in their order. -/
def shape : Shape Config where
  name := "Config"
  fields :=
    [.optional "state_config" Enrollment.reader fun v c => { c with enrollment := v },
     .optional "environment_variables" Settings.reader fun v c => { c with settings := v },
     .optional "zot_url" .text fun v c => { c with zotUrl := v }]

/-- Read a configuration; absent fields are empty. -/
def reader : Reader Config :=
  shape.reader empty

/-- Read a document that holds a configuration. -/
def parse (d : Document) : Except Fault Config :=
  reader.readAll d

/-- The JSON form, with every field. -/
def toJson (c : Config) : Value :=
  .object
    [("state_config", c.enrollment.toJson),
     ("environment_variables", c.settings.toJson),
     ("zot_url", .text c.zotUrl)]

end Config

end EdgeSync
