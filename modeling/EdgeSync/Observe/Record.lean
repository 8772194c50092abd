/-!
# Log Records

A log record has a level, a message and named fields.

## Main definitions

- `LogLevel`, `LogValue`, `LogRecord`: records and their parts
-/

namespace EdgeSync

/-- How much a record matters. -/
inductive LogLevel where
  | debug
  | info
  | warning
  deriving DecidableEq, Repr

/-- The name of a level. -/
def LogLevel.name : LogLevel → String
  | debug => "DEBUG"
  | info => "INFO"
  | warning => "WARN"

/-- The value of a field. -/
inductive LogValue where
  | text (value : String)
  | count (value : Nat)
  deriving DecidableEq, Repr

/-- What is written to the log at one time. -/
structure LogRecord where
  level : LogLevel
  message : String
  fields : List (String × LogValue)
  deriving DecidableEq, Repr

end EdgeSync
