import TwoPass.Action
import TwoPass.ErrorLog
import TwoPass.Journal
import TwoPass.Object.Pack
import TwoPass.Settings
import TwoPass.Symbol.Table

/-!
An assembly in progress: the statements placed so far, the symbol table, the program counter and the
error log, and the phase that the passes have reached. An action may fail and still leave its mark.
-/

namespace TwoPass

/-- How far an assembly has come. -/
inductive Phase
  | fresh
  | pass1Running
  | pass1Done
  | pass2Running
  | pass2Done
  | objectGenerated
  deriving DecidableEq, Repr

def Phase.name : Phase → String
  | .fresh => "FRESH"
  | .pass1Running => "PASS1_RUNNING"
  | .pass1Done => "PASS1_DONE"
  | .pass2Running => "PASS2_RUNNING"
  | .pass2Done => "PASS2_DONE"
  | .objectGenerated => "OBJECT_GENERATED"

structure Assembly where
  settings : Settings
  limit : RecordLimit
  file : String
  phase : Phase := .fresh
  statements : List Statement := []
  symbols : SymbolTable := []
  /-- Program counter: the address of the next statement. -/
  pc : Int := 0
  /-- Load address. -/
  start : Int := 0
  name : String := ""
  errors : ErrorLog Diagnostic
  object : Option ObjectProgram := none
  journal : List JournalEntry := []
  deriving DecidableEq, Repr

namespace Assembly

/-- A source without a file goes by this name. -/
def unnamed : String :=
  "<input>"

/-- A new assembly; the text record limit of the settings has to be usable. -/
def create (settings : Settings) (file : String) : Except Fault Assembly :=
  (RecordLimit.ofInt settings.recordLimit).map fun limit =>
    { settings, limit, file, errors := { limit := settings.maxErrors } }

/-- Bytes from the load address to the program counter. -/
def length (a : Assembly) : Int :=
  a.pc - a.start

/-- The errors and warnings so far. -/
def errorReport (a : Assembly) : String :=
  a.errors.report Diagnostic.message

abbrev Action :=
  TwoPass.Action Assembly

/-- Writes a message to the journal. -/
def note (level : Level) (message : String) : Action Unit :=
  modify fun a => { a with journal := a.journal ++ [⟨level, .passes, message⟩] }

/-- Adds an error to the log, and fails when the log is full. -/
def report (d : Diagnostic) : Action Unit := do
  modify fun a => { a with errors := a.errors.add d }
  let a ← get
  if a.errors.isFull then throw (.diagnostic a.errors.overflow) else pure ()

/-- A message about a source line. -/
def lineMessage (line : Int) (message : String) : String :=
  "line " ++ Text.decimal line ++ ": " ++ message

/-- Notes an error about a line and adds it to the log. -/
def reportLine (line : Int) (d : Diagnostic) : Action Unit := do
  note .error (lineMessage line d.text)
  report d

/-- Notes a warning about a line and adds it to the log. -/
def warnLine (line : Int) (message : String) : Action Unit := do
  note .warning (lineMessage line message)
  modify fun a => { a with errors := a.errors.warn (lineMessage line message) }

def enter (phase : Phase) : Action Unit :=
  modify fun a => { a with phase }

/-- The failure of a step asked for out of order. -/
def outOfOrder (step : String) (phase : Phase) : Failure :=
  .diagnostic { cause := .outOfOrder (step ++ " cannot run in state " ++ phase.name) none none }

/-- Ends a pass with a note that sums it up; true if no error has been reported. -/
def close (phase : Phase) (summary : Assembly → String) : Action Bool := do
  enter phase
  let a ← get
  note .debug (summary a)
  return !a.errors.hasErrors

/-- Runs an action up to the error limit. Reaching the limit is noted and ends the action, not the
pass. -/
def untilFull (action : Action Unit) : Action Unit := fun a =>
  match action a with
  | .ok () a => .ok () a
  | .error failure a =>
    match failure with
    | .diagnostic { cause := .tooManyErrors text, .. } => note .error text a
    | _ => .error failure a

end Assembly

end TwoPass
