import EdgeSync.Files.Tree
import EdgeSync.Model.Config

/-!
# Configuration Files

A configuration is loaded from a regular file that holds a text in the JSON form,
and written back in the form over several lines.

## Main definitions

- `ConfigFault`: why a configuration cannot be loaded
- `Config.parseText`, `Config.prettyText`: a configuration as a text
- `Config.load`: read a configuration file
-/

namespace EdgeSync

open EdgeSync.Text

/-- Why a configuration cannot be loaded. -/
inductive ConfigFault where
  | unreadable (path : String) (fault : FileFault)
  | notAFile (path : String)
  | malformed (fault : Json.Fault)
  deriving DecidableEq, Repr

/-- The wording of a fault. -/
def ConfigFault.message : ConfigFault → String
  | unreadable path fault => "failed to read " ++ path ++ ": " ++ fault.message
  | notAFile path => "not a regular file: " ++ path
  | malformed fault => fault.report

namespace Config

/-- Read a text that holds a configuration. -/
def parseText (s : String) : Except ConfigFault Config :=
  match parse (Document.ofString s) with
  | .error fault => .error (.malformed fault)
  | .ok c => .ok c

/-- The text of a configuration over several lines. -/
def prettyText (c : Config) : String :=
  c.toJson.pretty

/-- Read a configuration file. -/
def load (files : FileTree) (path : String) : Except ConfigFault Config :=
  match files.isFile path with
  | .error fault => .error (.unreadable path fault)
  | .ok false => .error (.notAFile path)
  | .ok true =>
    match files.readText path with
    | .error fault => .error (.unreadable path fault)
    | .ok s => parseText s

end Config

end EdgeSync
