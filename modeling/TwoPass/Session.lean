import TwoPass.Assembly.Listing
import TwoPass.Assembly.Pass1
import TwoPass.Assembly.Pass2
import TwoPass.Files.Store

/-!
A session: assembles texts and files one after the other under the same settings, and writes what the
latest assembly produced.
-/

namespace TwoPass

structure Session where
  settings : Settings
  /-- Whether progress is noted at a level that is shown. -/
  verbose : Bool
  /-- The latest assembly. -/
  assembly : Assembly
  files : FileStore
  journal : List JournalEntry := []

namespace Session

/-- A session with nothing assembled yet. -/
def create (settings : Settings) (verbose : Bool) (files : FileStore) : Except Fault Session :=
  (Assembly.create settings Assembly.unnamed).map fun assembly =>
    { settings, verbose, assembly, files }

abbrev Action :=
  TwoPass.Action Session

def record (level : Level) (origin : Origin) (message : String) : Action Unit :=
  modify fun s => { s with journal := s.journal ++ [⟨level, origin, message⟩] }

/-- Notes progress. -/
def note (message : String) : Action Unit := do
  let s ← get
  record (if s.verbose then .info else .debug) .session message

/-- Works on the latest assembly, and takes over what it writes to its journal. -/
def onAssembly (action : Assembly.Action α) : Action α :=
  Action.onPart (·.assembly)
    (fun s a =>
      { s with assembly := { a with journal := [] }, journal := s.journal ++ a.journal })
    action

/-- A result of the file store, or the fault in its place. -/
def orFileFault (result : Except FileFault α) : Action α :=
  match result with
  | .ok value => pure value
  | .error fault => throw (.fault (.file fault))

/-- A path cannot hold the null character. -/
def checkPath (path : String) : Action Unit :=
  if Path.hasNull path then throw (.fault .nullInPath) else pure ()

/-! ## Assembling -/

/-- Starts a new assembly in the place of the latest. -/
def restart (file : String) : Action Unit := do
  let s ← get
  let assembly ← Action.orFault (Assembly.create s.settings file)
  modify fun s => { s with assembly }

/-- Assembles a text under the name of a file. Without errors it gives the object program. -/
def assembleText (source file : String) : Action (Option String) := do
  restart file
  note ("Assembling " ++ file ++ "...")
  let _ ← onAssembly (Assembly.pass1 (sourceLines source))
  let s ← get
  note ("Parsed " ++ Text.decimal s.assembly.statements.length ++ " statements")
  let resolved ← onAssembly Assembly.pass2
  if resolved then
    match ← onAssembly Assembly.generateObject with
    | none => return none
    | some p =>
      note ("Generated " ++ Text.decimal p.length ++ " bytes in " ++ Text.decimal p.texts.length
        ++ " text records")
      return some p.render
  else
    return none

/-- Assembles a file. A file that cannot be read leaves the latest assembly in place. -/
def assembleFile (path : String) : Action (Option String) := do
  checkPath path
  let s ← get
  let file := Path.plain path
  let source ← orFileFault (s.files.read file)
  assembleText source file

/-! ## Writing -/

/-- Writes a file. What a write that fails has left in the files stays there. -/
def write (path content : String) : Action Unit := do
  checkPath path
  let s ← get
  let (files, fault?) := s.files.write path content
  modify fun s => { s with files }
  match fault? with
  | none => pure ()
  | some fault => throw (.fault (.file fault))

/-- The failure to write an object program that was never made. -/
def noObject : Failure :=
  .diagnostic
    { cause := .general "no object program to write (assembly failed or not run)" none none }

/-- Writes the object program. -/
def writeObject (path : String) : Action Unit := do
  let s ← get
  match s.assembly.object with
  | none => throw noObject
  | some p =>
    write (Path.plain path) p.render
    record .info .object
      ("Wrote " ++ Text.decimal p.records.length ++ " records to " ++ path)
    note ("Wrote " ++ path)

/-- Writes the listing, which there is of every assembly. -/
def writeListing (path : String) : Action Unit := do
  let s ← get
  let content ← Action.orFault s.assembly.listingFile
  write path content
  note ("Wrote listing to " ++ path)

/-- Writes the symbol table. -/
def writeSymbols (path : String) : Action Unit := do
  let s ← get
  write path s.assembly.symbolFile
  note ("Wrote symbols to " ++ path)

/-! ## Single runs -/

/-- The failure of a single run that reported errors. -/
def runFailure (a : Assembly) (file : String) : Failure :=
  .diagnostic
    { cause := .general
        ("assembly of " ++ file ++ " failed with " ++ Text.decimal a.errors.errorCount
          ++ " error(s):\n\n" ++ a.errorReport)
        none none }

/-- The object program of one action in a new session; reported errors are a failure. -/
def runOnce (settings : Settings) (files : FileStore) (file : String)
    (action : Action (Option String)) : Except Failure String :=
  match create settings false files with
  | .error fault => .error (.fault fault)
  | .ok session =>
    match action session with
    | .ok (some text) _ => .ok text
    | .ok none s => .error (runFailure s.assembly file)
    | .error failure _ => .error failure

end Session

/-- Assembles a text. -/
def assembleText (source file : String) (settings : Settings) : Except Failure String :=
  Session.runOnce settings {} file (Session.assembleText source file)

/-- Assembles a file. -/
def assembleFile (files : FileStore) (path : String) (settings : Settings) :
    Except Failure String :=
  Session.runOnce settings files path (Session.assembleFile path)

end TwoPass
