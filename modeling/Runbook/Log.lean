import Runbook.Json.Basic

/-!
# Log records

The structured log of a run: a level, the name of an event and its fields. Records below warning
level are kept only for what the log action writes.
-/

namespace Runbook

/-- The level of a log record. -/
inductive LogLevel where
  | debug
  | info
  | warning
  | error
  deriving DecidableEq, Repr

def LogLevel.word : LogLevel → String
  | .debug => "debug"
  | .info => "info"
  | .warning => "warning"
  | .error => "error"

/-- A log record. -/
structure LogRecord where
  level : LogLevel
  event : String
  fields : Fields

/-- A record of warning level. -/
def LogRecord.warning (event : String) (fields : Fields) : LogRecord := ⟨.warning, event, fields⟩

/-- A record of error level. -/
def LogRecord.error (event : String) (fields : Fields) : LogRecord := ⟨.error, event, fields⟩

/-- A natural number as a document. -/
def Json.nat (n : Nat) : Json := .int n

end Runbook
