/-!
# Log records

The modules report what they do as values of event types of their own. An event becomes a record
when it is put into words: a level and a line of text.
-/

namespace CompiledScript

/-- How important a record is. -/
inductive Level where
  | debug
  | warning
  deriving DecidableEq

def Level.name : Level → String
  | .debug => "DEBUG"
  | .warning => "WARNING"

/-- An event in words. -/
structure Record where
  level : Level
  text : String

/-- The record as a log shows it. -/
def Record.line (record : Record) : String :=
  record.level.name ++ " " ++ record.text

end CompiledScript
