import PointRelaxation.Text.Composite
import PointRelaxation.Text.Quoted

/-!
# Log records and what is kept of them

A record is kept if its level reaches the threshold of the log, which is set by the name of a level.
-/

namespace PointRelaxation

inductive Level where
  | debug
  | info
  | warning
  | error
  | critical
deriving DecidableEq, Repr

namespace Level

def name : Level → String
  | debug => "DEBUG"
  | info => "INFO"
  | warning => "WARNING"
  | error => "ERROR"
  | critical => "CRITICAL"

def rank : Level → Nat
  | debug => 1
  | info => 2
  | warning => 3
  | error => 4
  | critical => 5

/-- A level at which a record is kept. -/
def allows (threshold : Level) (l : Level) : Bool := threshold.rank ≤ l.rank

/-- Capital letters. Besides those of ASCII, two letters and two ligatures have such capitals. -/
def capitals (c : Char) : List Char :=
  if c == 'ı' then ['I']
  else if c == 'ſ' then ['S']
  else if c == 'ﬅ' || c == 'ﬆ' then ['S', 'T']
  else [c.toUpper]

/-- A name in capital letters. -/
def capitalName (s : String) : String := String.ofList (s.toList.flatMap capitals)

/-- The level of a name, in letters of either case. -/
def ofName? (s : String) : Option Level :=
  match capitalName s with
  | "DEBUG" => some debug
  | "NOTSET" => some debug
  | "INFO" => some info
  | "WARNING" => some warning
  | "WARN" => some warning
  | "ERROR" => some error
  | "CRITICAL" => some critical
  | "FATAL" => some critical
  | _ => none

end Level

/-! ## Thresholds -/

/-- The names that are taken, but not by a level. -/
inductive Misnomer where
  /-- The format of a record's line. -/
  | format
  /-- The styles in which formats can be written. -/
  | styles
deriving DecidableEq, Repr

namespace Misnomer

open Text (quoted)

/-- A format: the level, the logger and the message of a record, each written by a style. -/
def lineFormat (field : String → String) : String :=
  ":".intercalate (["levelname", "name", "message"].map field)

def percentFormat : String := lineFormat fun name => "%(" ++ name ++ ")s"

def braceFormat : String := lineFormat fun name => "\x7b" ++ name ++ "\x7d"

def dollarFormat : String := lineFormat fun name => "$\x7b" ++ name ++ "\x7d"

/-- A style by its sign, its name and its format. -/
def style (sign name format : String) : String :=
  Text.entry (quoted sign) (Text.tupled ["<class 'logging." ++ name ++ "'>", quoted format])

def message : Misnomer → String
  | format => "Unknown level: " ++ quoted percentFormat
  | styles =>
    "Level not an integer or a valid string: " ++ Text.braced [
      style "%" "PercentStyle" percentFormat,
      style "\x7b" "StrFormatStyle" braceFormat,
      style "$" "StringTemplateStyle" dollarFormat]

end Misnomer

/-- The threshold that a name sets. A name that is not taken sets the usual one. -/
def Level.threshold (name : String) : Except Misnomer Level :=
  match capitalName name with
  | "BASIC_FORMAT" => .error .format
  | "_STYLES" => .error .styles
  | _ => .ok ((ofName? name).getD .info)

/-! ## Records -/

/-- Who writes a record. -/
inductive Logger where
  | command
  | solver
deriving DecidableEq, Repr

def Logger.name : Logger → String
  | command => "georelax.__main__"
  | solver => "georelax.solver.solver_core"

structure Record where
  level : Level
  logger : Logger
  message : String
deriving DecidableEq, Repr

namespace Record

/-- A record without the name of its logger. -/
def short (r : Record) : String := r.level.name ++ ":" ++ r.message

/-- A record as a line of a log. -/
def line (r : Record) : String := r.level.name ++ ":" ++ r.logger.name ++ ":" ++ r.message

/-- The records that a threshold keeps. -/
def kept (threshold : Level) (records : List Record) : List Record :=
  records.filter fun r => threshold.allows r.level

end Record
end PointRelaxation
