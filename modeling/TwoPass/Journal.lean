/-!
The journal of a run: messages about its progress, each with a level and the part that wrote it.
-/

namespace TwoPass

inductive Level
  | debug
  | info
  | warning
  | error
  deriving DecidableEq, Repr

namespace Level

def name : Level → String
  | .debug => "DEBUG"
  | .info => "INFO"
  | .warning => "WARNING"
  | .error => "ERROR"

/-- Levels that are shown when progress is not asked for. -/
def isSevere : Level → Bool
  | .debug | .info => false
  | .warning | .error => true

end Level

/-- The part of the assembler a message comes from. -/
inductive Origin
  | passes
  | object
  | session
  deriving DecidableEq, Repr

structure JournalEntry where
  level : Level
  origin : Origin
  message : String
  deriving DecidableEq, Repr

end TwoPass
