import TwoPass.CommandLine.Arguments
import TwoPass.Session

/-!
A run of the program: what it writes to the two output channels and to files, and its exit code.
-/

namespace TwoPass.CommandLine

/-- An entry of the journal on the error channel. Only severe ones are shown unless all are asked for. -/
def journalText (verbose : Bool) (entry : JournalEntry) : String :=
  if verbose then entry.level.name ++ ": " ++ entry.message ++ "\n"
  else if entry.level.isSevere then entry.message ++ "\n"
  else ""

/-- A run in progress, with what it has printed so far. -/
structure Run where
  session : Session
  stdout : String := ""
  stderr : String := ""

namespace Run

abbrev Action :=
  TwoPass.Action Run

/-- The journal of the session goes to the error channel. -/
def drain (r : Run) (s : Session) : Run :=
  { r with
    session := { s with journal := [] }
    stderr := r.stderr ++ String.join (s.journal.map (journalText s.verbose)) }

def onSession (action : Session.Action α) : Action α :=
  Action.onPart (·.session) drain action

/-! ## Messages -/

/-- What stands on a channel. -/
def printed (r : Run) : Channel → String
  | .output => r.stdout
  | .errors => r.stderr

def append (r : Run) (channel : Channel) (text : String) : Run :=
  match channel with
  | .output => { r with stdout := r.stdout ++ text }
  | .errors => { r with stderr := r.stderr ++ text }

/-- Prints a text, if the console takes it. -/
def print (console : Console) (channel : Channel) (text : String) : Action Unit := do
  let r ← get
  match console.refuses channel (r.printed channel) text with
  | some fault => throw (.fault fault)
  | none => modify (·.append channel text)

/-- Prints a line about progress, if progress is asked for. -/
def progress (console : Console) (message : String) : Action Unit := do
  let r ← get
  if r.session.verbose then print console .output (console.shows message) else pure ()

def complain (console : Console) (message : String) : Action Unit :=
  print console .errors (console.shows message)

/-! ## Files -/

def whenGiven (path? : Option String) (action : String → Action Unit) : Action Unit :=
  match path? with
  | none => pure ()
  | some path => action path

/-- Writes a file and tells of it. -/
def produce (console : Console) (write : String → Session.Action Unit) (words path : String) : Action Unit := do
  onSession (write path)
  progress console (words ++ path)

/-- Ends a run whose source has errors: only the listing is written. -/
def reject (console : Console) (job : Job) : Action ExitCode := do
  let r ← get
  complain console r.session.assembly.errorReport
  whenGiven job.listing fun path => onSession (Session.writeListing path)
  return .build

/-- Tells what was assembled. -/
def summarize (console : Console) : Action Unit := do
  let r ← get
  let a := r.session.assembly
  progress console ("Assembly complete: '" ++ a.name ++ "' " ++ Text.decimal a.length ++ " bytes at "
    ++ Text.hex 6 a.start)
  progress console ("Defined " ++ Text.decimal a.symbols.length ++ " symbols")

/-- Ends a run that assembled: writes all files that are asked for. -/
def deliver (console : Console) (job : Job) : Action ExitCode := do
  produce console Session.writeObject "Wrote " job.objectPath
  whenGiven job.listing (produce console Session.writeListing "Wrote listing to ")
  whenGiven job.symbols (produce console Session.writeSymbols "Wrote symbols to ")
  summarize console
  return .success

/-- Ends a run whose source was read. -/
def finish (console : Console) (job : Job) : Action ExitCode := do
  let r ← get
  if r.session.assembly.errors.hasErrors then reject console job else deliver console job

/-- Assembles a file and writes the outcome. -/
def perform (console : Console) (job : Job) : Action ExitCode := do
  progress console ("Assembling " ++ job.input ++ "...")
  let _ ← onSession (Session.assembleFile job.input)
  finish console job

/-- Reports a failure and gives the exit code for it. -/
def lament (console : Console) (job : Job) (failure : Failure) : Action ExitCode := do
  print console .errors (failureText (some "Assembly") job.verbose failure console)
  return exitCode failure

end Run

/-! ## Outcomes -/

/-- What a run leaves behind. -/
structure Outcome where
  exit : ExitCode
  stdout : String := ""
  stderr : String := ""
  files : FileStore

def Run.outcome (r : Run) (exit : ExitCode) : Outcome :=
  { exit, stdout := r.stdout, stderr := r.stderr, files := r.session.files }

/-- How a run ends whose work has ended with `result`. A failure is reported, if the console takes the report. -/
def outcomeOf (console : Console) (job : Job) (result : EStateM.Result Failure Run ExitCode) : Outcome :=
  match result with
  | .ok exit r => r.outcome exit
  | .error failure r =>
    match Run.lament console job failure r with
    | .ok exit r => r.outcome exit
    | .error _ r => r.outcome .uncaught

/-- Switches on the command line add to the settings of the environment. -/
def jobSettings (environment : String → Option String) (job : Job) : Settings :=
  let settings := Settings.ofEnvironment environment
  { settings with
    strictOperands := settings.strictOperands || job.strict
    relativeAddressing := settings.relativeAddressing || job.relative }

/-- Does a job. Nothing is reported of a session that cannot be started. -/
def runJob (console : Console) (environment : String → Option String) (files : FileStore) (job : Job) : Outcome :=
  match Session.create (jobSettings environment job) job.verbose files with
  | .error _ => { exit := .uncaught, files }
  | .ok session => outcomeOf console job (Run.perform console job { session })

/-- Runs the program on its arguments, which `reader` reads. -/
def runWith (reader : Reader) (console : Console) (environment : String → Option String) (files : FileStore)
    (arguments : List String) : Except Fault Outcome :=
  match reader files arguments with
  | .error fault => .error fault
  | .ok (.closed exit stdout stderr) => .ok { exit, stdout, stderr, files }
  | .ok (.call job) => .ok (runJob console environment files job)

/-- Runs the program on its arguments, with nothing but pipes and files around it. -/
def run (environment : String → Option String) (files : FileStore) (arguments : List String) :
    Except Fault Outcome :=
  runWith readArguments .standard environment files arguments

end TwoPass.CommandLine
