import EdgeSync.Text.Blank
import EdgeSync.Text.Quoted

/-!
# The Logger

The logger writes in one of three formats and leaves out what is less important
than a level. The level is a single word or number, or a list of directives that
give levels to the parts of the program.

## Main definitions

- `LogFormat`, `LogDetail`: formats and levels, and the texts for them
- `LoggerSettings`, `LoggerSettings.resolve`: a format and a level
- `LoggerSettings.directives`: the directives for a level
- `LoggerSettings.installAgain`: why there is no second logger
-/

namespace EdgeSync

open EdgeSync.Text

/-- A text with small ASCII letters. -/
def lowerText (s : String) : String :=
  String.ofList (s.toList.map Char.toLower)

/-! ## Formats -/

/-- The format of the log. -/
inductive LogFormat where
  | text
  | json
  | journald
  deriving DecidableEq, Repr

/-- The name of a format. -/
def LogFormat.name : LogFormat → String
  | text => "text"
  | json => "json"
  | journald => "journald"

/-- The format that a text names, in any case and between blanks. -/
def LogFormat.parse? (s : String) : Option LogFormat :=
  match lowerText (trim s) with
  | "text" => some text
  | "json" => some json
  | "journald" | "journal" => some journald
  | _ => none

/-! ## Levels -/

/-- How much detail the log has. -/
inductive LogDetail where
  | off
  | error
  | warn
  | info
  | debug
  | trace
  deriving DecidableEq, Repr

namespace LogDetail

/-- The levels from the quietest to the loudest. -/
def all : List LogDetail := [off, error, warn, info, debug, trace]

/-- The name of a level. -/
def name : LogDetail → String
  | off => "off"
  | error => "error"
  | warn => "warn"
  | info => "info"
  | debug => "debug"
  | trace => "trace"

/-- The number of a level. -/
def number (d : LogDetail) : Nat :=
  all.idxOf d

/-- The quieter of two levels. -/
def quieter (a b : LogDetail) : LogDetail :=
  if a.number ≤ b.number then a else b

/-- The value of some decimal digits after an optional plus sign. -/
def decimal? (cs : List Char) : Option Nat :=
  let digits := if cs.head? = some '+' then cs.tail else cs
  if digits.isEmpty || !digits.all Char.isDigit then none
  else some (digits.foldl (fun sum c => 10 * sum + (c.toNat - 48)) 0)

/-- The level that a text names, by its name in any case or by its number. -/
def parse? (s : String) : Option LogDetail :=
  match decimal? s.toList with
  | some n => all[n]?
  | none => all.find? fun d => d.name == lowerText s

end LogDetail

/-! ## Faults -/

/-- Why a level or a directive is refused. -/
inductive DetailFault where
  | unknownLevel
  | badDirective
  deriving DecidableEq, Repr

/-- The wording of a fault. -/
def DetailFault.message : DetailFault → String
  | unknownLevel =>
    "error parsing level filter: expected one of \"off\", \"error\", \"warn\", \"info\", " ++
      "\"debug\", \"trace\", or a number 0-5"
  | badDirective => "invalid filter directive"

/-- Why there is no logger. -/
inductive LoggerFault where
  | unknownFormat (value : String)
  | badLevel (level : String) (fault : DetailFault)
  | alreadyInstalled
  deriving DecidableEq, Repr

/-- The wording of a fault. -/
def LoggerFault.message : LoggerFault → String
  | unknownFormat value =>
    "unknown log format " ++ quoted value ++ " (expected text, json or journald)"
  | badLevel level fault => "invalid log level " ++ quoted level ++ ": " ++ fault.message
  | alreadyInstalled => "a global logger is already installed"

/-- The format that a text names. -/
def LogFormat.parse (s : String) : Except LoggerFault LogFormat :=
  match parse? s with
  | some format => .ok format
  | none => .error (.unknownFormat s)

/-! ## Settings -/

/-- The format and the level of a logger. -/
structure LoggerSettings where
  format : LogFormat
  level : String
  deriving DecidableEq, Repr

namespace LoggerSettings

/-- The settings where nothing is said. -/
def default : LoggerSettings := ⟨.text, "info"⟩

/-- The settings for a level and perhaps a format; blank ones mean the defaults. -/
def resolve (level : String) (format : Option String) : Except LoggerFault LoggerSettings :=
  let level := trim level
  let level := if level.isEmpty then "info" else level
  match (format.map trim).filter fun f => !f.isEmpty with
  | none => .ok ⟨.text, level⟩
  | some f => (LogFormat.parse f).map fun format => ⟨format, level⟩

/-- The parts of the program that follow the level; others are at most at `warn`. -/
def followers : List String :=
  ["satellite", "sat_agentd", "sat_core", "sat_state", "sat_observe"]

/-- Whether the level is a list of directives. -/
def hasDirectives (s : LoggerSettings) : Bool :=
  s.level.toList.any fun c => c == '=' || c == ','

/-- The directives for the level: those given, or those that a single level means. -/
def directives (s : LoggerSettings) : Except LoggerFault String :=
  if s.hasDirectives then .ok s.level
  else
    match LogDetail.parse? s.level with
    | none => .error (.badLevel s.level .unknownLevel)
    | some detail =>
      .ok (",".intercalate
        ((detail.quieter .warn).name :: followers.map fun part => part ++ "=" ++ detail.name))

/-! ## Directives -/

/-- Check the level of a directive; none means all detail. -/
def checkLevel (cs : List Char) : Except DetailFault Unit :=
  if cs.isEmpty || (LogDetail.parse? (String.ofList cs)).isSome then .ok ()
  else .error .unknownLevel

/-- Whether a character may begin the name of a part. -/
def beginsPart (c : Char) : Bool :=
  c.isAlphanum || ['-', ':', '_'].contains c || 0x7f < c.toNat

/-- Check what follows the part and the span of a directive. A level is not looked for
between blanks. -/
def checkAssignment (isTrimmed : Bool) : List Char → Except DetailFault Unit
  | [] => .ok ()
  | '=' :: level => if isTrimmed then checkLevel level else .error .unknownLevel
  | _ => .error .badDirective

/-- Check a span: a name and perhaps a field between braces, up to the closing
bracket. -/
def checkSpan (isTrimmed : Bool) (cs : List Char) : Except DetailFault Unit :=
  match cs.dropWhile fun c => !(c == ']' || c == '\x7b') with
  | ']' :: rest => checkAssignment isTrimmed rest
  | _ :: field =>
    -- A pair of braces holds one field, and the bracket follows at once.
    match field.takeWhile (· != '\x7d'), field.dropWhile (· != '\x7d') with
    | _ :: _, _ :: ']' :: rest => checkAssignment isTrimmed rest
    | _, _ => .error .badDirective
  | [] => .error .badDirective

/-- Check one directive: a level or a part, then perhaps a span between brackets,
then perhaps the level of the part. -/
def checkDirective (cs : List Char) : Except DetailFault Unit :=
  let body := trimChars cs
  let isTrimmed := body == cs
  match body with
  | [] => .error .badDirective
  | '[' :: rest => checkSpan isTrimmed rest
  | first :: _ =>
    if !beginsPart first then .error .badDirective
    else
      match body.dropWhile fun c => !(c == '=' || c == '[') with
      | [] => .ok ()
      | '[' :: rest => checkSpan isTrimmed rest
      | assignment => checkAssignment isTrimmed assignment

/-- Check directives between commas; the first fault counts. -/
def checkDirectives (cs : List Char) : Except DetailFault Unit :=
  ((splitOn (· == ',') cs).filter fun d => !d.isEmpty).forM checkDirective

/-- What comes of installing the logger where there is one already: the level is
checked first. -/
def installAgain (s : LoggerSettings) : LoggerFault :=
  match s.directives with
  | .error fault => fault
  | .ok text =>
    match checkDirectives text.toList with
    | .error fault => .badLevel s.level fault
    | .ok _ => .alreadyInstalled

end LoggerSettings

end EdgeSync
