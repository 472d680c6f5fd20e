/-
  Lines of the log that tell people what happens.
-/
namespace Reimage

/-- How much a log line matters. -/
inductive LogLevel
  | info
  | warn
  | error
  deriving DecidableEq, Repr, Inhabited

/-- The level at the start of a written line. -/
def LogLevel.name : LogLevel → String
  | .info => "INFO"
  | .warn => "WARN"
  | .error => "ERROR"

/-- One line of the log. -/
structure LogLine where
  level : LogLevel
  text : String
  deriving DecidableEq, Repr, Inhabited

namespace LogLine

def info (text : String) : LogLine := ⟨.info, text⟩
def warn (text : String) : LogLine := ⟨.warn, text⟩
def error (text : String) : LogLine := ⟨.error, text⟩

/-- The line as it is written. -/
def written (l : LogLine) : String := l.level.name ++ " " ++ l.text

end LogLine

end Reimage
