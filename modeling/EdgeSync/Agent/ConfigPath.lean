import EdgeSync.Text.Blank

/-!
# The Path of the Configuration

## Main definitions

- `configPath`: the path that the agent loads its configuration from
-/

namespace EdgeSync

/-- The path of the configuration if none is given. -/
def defaultConfigPath : String := "config.json"

/-- The variable of the environment that names the configuration. -/
def configVariable : String := "SATELLITE_CONFIG"

/-- The path of the configuration: the argument if there is one, else the variable
of the environment, unless that is blank. -/
def configPath (argument named : Option String) : String :=
  match (argument.or named).filter fun path => !(Text.trim path).isEmpty with
  | some path => path
  | none => defaultConfigPath

end EdgeSync
