import TwoPass.Assembly.Basic
import TwoPass.Statement.Parse

/-!
The first pass: parses the lines, places each statement at the program counter and defines its label. A
line that cannot be parsed is reported and takes up no room.
-/

namespace TwoPass

/-- What became of a line that was not blank. -/
structure LineResult where
  line : Int
  outcome : Except Diagnostic Statement

namespace Assembly

/-- Defines a name. The first definition stays; a second one is an error. -/
def define (name : String) (address : Int) (line : Int) : Action Unit := do
  let a ← get
  match a.symbols.find? name with
  | some first =>
    reportLine line
      { cause := .duplicateSymbol name (some first.line)
        location := some ⟨a.file, line, labelColumn⟩ }
  | none => modify fun a => { a with symbols := a.symbols ++ [⟨name, address, line⟩] }

/-- Defines the label of a statement, if it has one. -/
def defineLabel (s : Statement) : Action Unit :=
  if s.label.isEmpty then pure () else define s.label s.offset s.line

/-- Operands that do not suit an instruction are an error under strict settings, else a warning. -/
def checkOperands (s : Statement) (i : Instruction) : Action Unit := do
  let a ← get
  match i.mismatch with
  | none => pure ()
  | some shape =>
    if a.settings.strictOperands then do
      note .error (lineMessage s.line shape)
      report
        { cause := .operandMismatch shape
          location := some ⟨a.file, s.line, operandColumn⟩ }
    else
      warnLine s.line shape

/-- Notes reserved room, and warns of data that is not known. -/
def checkDirective (s : Statement) (d : Directive) : Action Unit :=
  if d.isReserve then do
    let size ← Action.orFault s.size
    note .debug (lineMessage s.line (d.name ++ " reserves " ++ Text.decimal size ++ " bytes"))
  else
    match s.operands with
    | .symbol name :: _ =>
      if d.isData then
        warnLine s.line (d.name ++ " " ++ name ++ " emitted as zero bytes")
      else
        pure ()
    | _ => pure ()

/-- Moves the program counter past a statement. -/
def advance (s : Statement) : Action Unit := do
  let size ← Action.orFault s.size
  modify fun a => { a with pc := a.pc + size }

/-- Adds a statement. `START` sets name, load address and program counter; other statements move the
program counter on. -/
def place (s : Statement) : Action Unit := do
  modify fun a => { a with statements := a.statements ++ [s] }
  match s.body with
  | .remark => pure ()
  | .directive .start value =>
    modify fun a => { a with name := s.label, start := value, pc := value }
    define s.label value s.line
  | .directive d _ =>
    defineLabel s
    checkDirective s d
    advance s
  | .instruction i =>
    defineLabel s
    checkOperands s i
    advance s

/-- Parses and places one line. -/
def placeLine (number : Nat) (text : String) : Action LineResult := do
  let a ← get
  match Statement.parse a.file text number a.pc with
  | .ok s =>
    place s
    return { line := number, outcome := .ok s }
  | .error (.diagnostic d) =>
    reportLine number d
    return { line := number, outcome := .error d }
  | .error (.fault fault) => throw (.fault fault)

/-- Parses and places lines, of which the first has the given number. Blank lines are counted and
skipped. -/
def placeLines (number : Nat) : List String → Action (List LineResult)
  | [] => pure []
  | text :: rest =>
    if Text.isBlankText text.toList then
      placeLines (number + 1) rest
    else do
      let result ← placeLine number text
      let results ← placeLines (number + 1) rest
      return result :: results

/-- Parses and places the lines of a source. -/
def parseLines (lines : List String) : Action (List LineResult) :=
  placeLines 1 lines

/-- Runs the first pass; true if no error has been reported. -/
def pass1 (lines : List String) : Action Bool := do
  let a ← get
  if a.phase ≠ .fresh then
    throw (outOfOrder "pass 1" a.phase)
  else
    enter .pass1Running
    untilFull (do discard (parseLines lines))
    close .pass1Done fun a =>
      "Pass 1: " ++ Text.decimal a.statements.length ++ " statements, "
        ++ Text.decimal a.symbols.length ++ " symbols, PC=" ++ Text.hex 6 a.pc

end Assembly

end TwoPass
