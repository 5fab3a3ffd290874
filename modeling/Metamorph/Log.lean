/-! What a run reports beside its answer. -/
namespace Metamorph

inductive LogLevel where
  | debug
  | info
  | warning
  | error

namespace LogLevel

def text : LogLevel → String
  | debug => "DEBUG"
  | info => "INFO"
  | warning => "WARNING"
  | error => "ERROR"

/-- The least severe level that is written: warnings, information from `1` on, everything from `2`.
-/
def ofVerbosity (verbosity : Int) : LogLevel :=
  if verbosity = 1 then info else if 2 ≤ verbosity then debug else warning

end LogLevel

/-- The layout of a line of the log: time, level, origin and message. -/
def logLineFormat : String := "%(asctime)s [%(levelname)-5.5s] %(name)s: %(message)s"

structure LogRecord where
  level : LogLevel
  message : String

def LogRecord.text (record : LogRecord) : String := record.level.text ++ " " ++ record.message

end Metamorph
