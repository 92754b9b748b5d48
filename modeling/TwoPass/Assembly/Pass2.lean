import TwoPass.Assembly.Basic
import TwoPass.Assembly.Displacement

/-!
The second pass, which puts addresses for symbols, chooses displacements and warns of addresses that are
cut short, and the object program that is made of the outcome.
-/

namespace TwoPass.Assembly

/-- Resolves the symbols of all statements against a table. -/
def resolveWith (table : SymbolTable) : Action (List Diagnostic) := do
  let a ← get
  let (statements, errors) := resolveSymbols table a.statements
  modify fun a => { a with statements }
  return errors

/-- Reports errors in order, each about the line it names. -/
def reportAll : List Diagnostic → Action Unit
  | [] => pure ()
  | d :: rest => do
    reportLine (d.line.getD 0) d
    reportAll rest

/-- Puts revised statements in their places, from the given place on, and reports problems as they
come. -/
def commit (place : Nat) : List Revision → Action Unit
  | [] => pure ()
  | r :: rest => do
    modify fun a => { a with statements := a.statements.set place r.statement }
    match r.problem with
    | none => commit (place + 1) rest
    | some (.diagnostic d) =>
      reportLine r.statement.line d
      commit (place + 1) rest
    | some (.fault fault) => throw (.fault fault)

/-- Chooses the displacements of all instructions that refer to symbols. -/
def selectDisplacements : Action Unit := do
  let a ← get
  commit 0 (revisions a.symbols a.file none a.statements)

/-- The warning for an address of which the twelve bits of a three-byte instruction keep only a part. -/
def truncation? (s : Statement) : Option String :=
  match s.body, s.operands with
  | .instruction i, .integer target :: _ =>
    if i.format = 3 && i.displacement.isNone && !Reach.isDirectRange target then
      some (Catalogue.text Catalogue.outOfReach ++ ": " ++ s.mnemonic ++ " target "
        ++ Text.hex 6 target ++ " truncated to " ++ Text.hex 3 (target % 4096) ++ ", use +"
        ++ s.mnemonic)
    else
      none
  | _, _ => none

/-- Warns of every address that is cut short. -/
def warnTruncations : List Statement → Action Unit
  | [] => pure ()
  | s :: rest => do
    match truncation? s with
    | some message => warnLine s.line message
    | none => pure ()
    warnTruncations rest

/-- The work of the second pass that stops at the error limit. -/
def resolveAll : Action Unit := do
  let a ← get
  let errors ← resolveWith a.symbols
  reportAll errors
  if a.settings.relativeAddressing then selectDisplacements else pure ()

/-- Runs the second pass; true if it ran and no error has been reported. Errors of the first pass keep
it from running. -/
def pass2 : Action Bool := do
  let a ← get
  if a.phase ≠ .pass1Done then
    throw (outOfOrder "pass 2" a.phase)
  else if a.errors.hasErrors then
    note .warning
      ("Pass 2 skipped: " ++ Text.decimal a.errors.errorCount ++ " error(s) in pass 1")
    return false
  else
    enter .pass2Running
    untilFull resolveAll
    let a ← get
    if a.errors.hasErrors then pure () else warnTruncations a.statements
    close .pass2Done fun a => "Pass 2: " ++ Text.decimal a.errors.errorCount ++ " error(s)"

/-- Whether the object program may be made. -/
def isResolved (a : Assembly) : Bool :=
  a.phase = .pass2Done || a.phase = .objectGenerated

/-- Makes the object program. Any error that has been reported keeps it from being made. -/
def generateObject : Action (Option ObjectProgram) := do
  let a ← get
  if a.errors.hasErrors then
    note .warning
      ("Object generation skipped: " ++ Text.decimal a.errors.errorCount ++ " error(s)")
    return none
  else if !a.isResolved then
    throw (outOfOrder "object generation" a.phase)
  else
    let p ← Action.orFault (ObjectProgram.build a.limit a.statements a.name a.start a.length)
    modify fun a =>
      { a with
        journal := a.journal ++ p.texts.map (fun r => ⟨.debug, .object, r.note⟩)
        object := some p
        phase := .objectGenerated }
    note .info ("Generated " ++ Text.decimal p.texts.length ++ " text record(s) for '" ++ p.name
      ++ "' (" ++ Text.decimal p.length ++ " bytes at " ++ Text.hex 6 p.start ++ ")")
    return some p

end TwoPass.Assembly
