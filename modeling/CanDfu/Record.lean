/-
  CanDfu.Record

  Log records: a level, a message and named fields whose values are already text.
-/

namespace CanDfu

/-- Severity of a record, least severe first. -/
inductive Level
  | trace
  | debug
  | info
  | warn
  | error
  deriving DecidableEq, Repr

namespace Level

/-- The level as a log line starts with it. -/
def label : Level → String
  | trace => "TRACE"
  | debug => "DEBUG"
  | info => "INFO"
  | warn => "WARN"
  | error => "ERROR"

/-- The level as a word. -/
def title : Level → String
  | trace => "Trace"
  | debug => "Debug"
  | info => "Info"
  | warn => "Warn"
  | error => "Error"

end Level

/-- One log record. -/
structure Record where
  level : Level
  message : String
  fields : List (String × String) := []
  deriving DecidableEq, Repr

namespace Record

/-- The record on one line: the message, then each field as `name=value`. -/
def line (r : Record) : String :=
  r.fields.foldl (fun text (name, value) => text ++ " " ++ name ++ "=" ++ value) r.message

end Record

end CanDfu
