import TwoPass.Diagnostic
import TwoPass.Files.Store
import TwoPass.Text.Terminal

/-!
What a run of the program is given and how it ends: jobs, exit codes, messages about failures, and the two things
outside of it that it relies on, a reader of arguments and a console.
-/

namespace TwoPass.CommandLine

/-! ## Jobs -/

/-- A run with everything it was given. Paths are in their plain form. -/
structure Job where
  input : String
  output : Option String := none
  listing : Option String := none
  symbols : Option String := none
  strict : Bool := false
  relative : Bool := false
  verbose : Bool := false
  deriving DecidableEq, Repr

/-- The ending of object files. -/
def objectEnding : String :=
  ".obj"

/-- Where the object program goes: beside the source, if nothing else is asked for. -/
def Job.objectPath (job : Job) : String :=
  job.output.getD (Path.withEnding job.input objectEnding)

/-! ## Failures -/

inductive ExitCode
  | success
  /-- The source did not assemble. -/
  | build
  /-- Arguments or files could not be used. -/
  | arguments
  /-- Anything that is the fault of neither the source nor the user. -/
  | internal
  /-- A failure that could not even be reported. -/
  | uncaught
  deriving DecidableEq, Repr

def ExitCode.number : ExitCode → Nat
  | .success => 0
  | .build | .uncaught => 1
  | .arguments => 2
  | .internal => 3

/-- The exit code for a failure. A step out of order is nobody's source's fault. -/
def exitCode : Failure → ExitCode
  | .diagnostic { cause := .outOfOrder _ _ _, .. } => .internal
  | .diagnostic _ => .build
  | .fault (.file _) => .arguments
  | .fault (.badArgument _) => .arguments
  | .fault _ => .internal

/-- At least two digits, with the sign counted among them. -/
def codeDigits : Int → List Char
  | .ofNat n => Text.padLeft '0' 2 (Nat.toDigits 10 n)
  | .negSucc n => '-' :: Text.padLeft '0' 1 (Nat.toDigits 10 (n + 1))

/-- The number of a catalogued error, as in `[E05]`; empty for all others. -/
def tag : Failure → String
  | .diagnostic d =>
    match d.code with
    | some code => "[E" ++ String.ofList (codeDigits code) ++ "]"
    | none => ""
  | .fault _ => ""

/-- The message for a failure. `activity` says what a diagnostic is an error of. -/
def explain (activity : Option String) (failure : Failure) : String :=
  match failure with
  | .diagnostic d =>
    let kind := match activity with
      | some activity => if activity.isEmpty then "Error" else activity ++ " error"
      | none => "Error"
    let head := if (tag failure).isEmpty then kind else kind ++ " " ++ tag failure
    head ++ ": " ++ d.message
  | .fault fault =>
    match exitCode failure with
    | .arguments => "Error: " ++ fault.message
    | _ => "Internal error: " ++ fault.message

/-- Stands for the details of an internal failure, which are shown on request. -/
def traceMark : String :=
  "<traceback>"

/-! ## Consoles -/

/-- The two ways out. -/
inductive Channel
  | output
  | errors
  deriving DecidableEq, Repr

/-- Where messages are printed. -/
structure Console where
  /-- A message as it is printed. -/
  shows : String → String
  /-- Why the channel, on which the first text stands already, does not take the second. -/
  refuses : Channel → String → String → Option Fault

/-- A message on a line of its own, without control sequences. -/
def echo (message : String) : String :=
  Text.dropSequences message ++ "\n"

/-- Every message gets through. -/
def Console.IsOpen (console : Console) : Prop :=
  ∀ channel printed text, console.refuses channel printed text = none

/-- A console that is no terminal and takes everything. -/
def Console.standard : Console :=
  { shows := echo, refuses := fun _ _ _ => none }

/-- What is printed about a failure. -/
def failureText (activity : Option String) (verbose : Bool) (failure : Failure)
    (console : Console := .standard) : String :=
  let trace := if verbose && exitCode failure = .internal then traceMark ++ "\n" else ""
  console.shows (explain activity failure) ++ trace

/-! ## Readers -/

/-- What becomes of the arguments. -/
inductive Reply
  | call (job : Job)
  /-- They ask for nothing to be done, or not for what can be done, and have been answered. -/
  | closed (exit : ExitCode) (stdout stderr : String)
  deriving DecidableEq, Repr

/-- Reads the arguments of a command line. A path that cannot even be asked for is a fault. -/
abbrev Reader :=
  FileStore → List String → Except Fault Reply

/-- A job that can be handed on: all paths were given as texts without null characters, and that of the source led to
something that is no directory. -/
structure Job.Usable (files : FileStore) (job : Job) : Prop where
  source : ∃ text node, Path.Spells text job.input ∧ files.look? text = some node ∧ node ≠ .directory
  targets : ∀ path, job.output = some path ∨ job.listing = some path ∨ job.symbols = some path →
    ∃ text, Path.Spells text path

/-- What is asked of a reader. -/
def Reader.Sound (reader : Reader) : Prop :=
  ∀ files arguments job, reader files arguments = .ok (.call job) → job.Usable files

end TwoPass.CommandLine
