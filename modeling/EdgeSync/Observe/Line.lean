import EdgeSync.Json.Value
import EdgeSync.Observe.Logger
import EdgeSync.Observe.Record

/-!
# Log Lines

A record is written to the log as one line: its level, its message and its fields,
or an object with the same parts. The journal of the system takes the former.

## Main definitions

- `LogRecord.line`: a record as a line in a given format
- `LoggerSettings.shows`: whether a record is written at all
-/

namespace EdgeSync

/-! ## Values -/

/-- A value between the words of a line. -/
def LogValue.word : LogValue → String
  | text value => value
  | count value => toString value

/-- A value in an object. -/
def LogValue.toJson : LogValue → Json.Value
  | text value => .text value
  | count value => .natural value

/-! ## Lines -/

namespace LogRecord

/-- A record as a line of words. -/
def plainLine (r : LogRecord) : String :=
  " ".intercalate
    (r.level.name :: r.message :: r.fields.map fun field => field.1 ++ "=" ++ field.2.word)

/-- A record as an object. -/
def toJson (r : LogRecord) : Json.Value :=
  .object
    [("level", .text r.level.name), ("message", .text r.message),
      ("fields", .object (r.fields.map fun field => (field.1, field.2.toJson)))]

/-- A record as a line in a given format. -/
def line (format : LogFormat) (r : LogRecord) : String :=
  match format with
  | .text => r.plainLine
  | .json => r.toJson.compact
  | .journald => r.plainLine

end LogRecord

/-! ## Levels -/

/-- The detail that a record of some level belongs to. -/
def LogLevel.detail : LogLevel → LogDetail
  | debug => .debug
  | info => .info
  | warning => .warn

/-- Whether a record is written: its level belongs to the detail of the settings. A list
of directives lets every record pass. -/
def LoggerSettings.shows (s : LoggerSettings) (r : LogRecord) : Bool :=
  match LogDetail.parse? s.level with
  | some detail => r.level.detail.number ≤ detail.number
  | none => true

end EdgeSync
