import BooleanQuery.Compile.Run

/-!
# Log lines

Log records are written to the error output if they are severe enough. Each line names the
severity and the part of the program that the record comes from, and is safe to show on a
terminal: no character in it is a control in the range of ASCII.
-/

namespace BooleanQuery.Command

/-- What is logged. No record is a warning. -/
inductive LogFilter where
  | warn
  | debug
  | trace
deriving DecidableEq, Repr

namespace LogFilter

/-- The filter for a verbosity. -/
def ofVerbosity : Nat → LogFilter
  | 0 => .warn
  | 1 => .debug
  | _ + 2 => .trace

/-- The name of a filter. -/
def name : LogFilter → String
  | .warn => "warn"
  | .debug => "debug"
  | .trace => "trace"

/-- Whether a filter lets records of a level through. -/
def admits : LogFilter → LogLevel → Bool
  | .warn, _ => false
  | .debug, level => level = .debug
  | .trace, _ => true

end LogFilter

/-- The part of the program that a record comes from. -/
inductive LogSource where
  | command
  | compiler
deriving DecidableEq, Repr

/-- The name of a part of the program. -/
def LogSource.name : LogSource → String
  | .command => "boolq::commands::run_common"
  | .compiler => "boolq_compiler::compile::compiler"

/-- The name of a level. -/
def levelName : LogLevel → String
  | .trace => "TRACE"
  | .debug => "DEBUG"

/-- A record with its source. -/
abbrev SourcedRecord := LogSource × LogRecord

/-- A text without delete characters. The texts of records hold no other control of ASCII,
since the JSON text of a node escapes them. -/
def withoutDelete (text : String) : String :=
  String.ofList (text.toList.filter (· != '\x7f'))

/-- The line of a record. -/
def logLine (record : SourcedRecord) : String :=
  "[" ++ levelName record.2.1 ++ " " ++ record.1.name ++ "] " ++ withoutDelete record.2.2 ++
    "\n"

/-- The lines of the records that a filter lets through. -/
def logText (filter : LogFilter) (records : List SourcedRecord) : String :=
  String.join ((records.filter fun record => filter.admits record.2.1).map logLine)

end BooleanQuery.Command
