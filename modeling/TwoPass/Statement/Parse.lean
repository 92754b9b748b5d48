import TwoPass.Operand.Literal
import TwoPass.Source.Line
import TwoPass.Statement.Basic

/-!
Source lines as statements. A line that is neither a remark nor holds a known operator is an error, and
so is a directive without the operand it needs. Operands that do not suit an instruction are only noted.
-/

namespace TwoPass

namespace Instruction

/-- Expected and found kinds of operand, where they differ in number or kind. -/
def mismatch? (opcode : Opcode) (operands : List Operand) : Option String :=
  if opcode.args.length = operands.length
      && (opcode.args.zip operands).all fun (arg, operand) => arg.accepts operand then
    none
  else
    some (opcode.mnemonic ++ " expected " ++ shapeText (opcode.args.map (·.name)) ++ " but got "
      ++ shapeText (operands.map (·.kind.name)))

/-- The format of an instruction without the mark for the extended one. -/
def plainFormat (opcode : Opcode) : Int :=
  match opcode.formats with
  | [format] => format
  | _ => 3

/-- Whether a token stands for the index register. -/
def isIndexToken (token : String) : Bool :=
  Text.upper token = "X"

/-- Parses tokens in order, gathering the flags that their markers set. -/
def parseTokens (flags : Flags) : List String → Except Fault (List Operand × Flags)
  | [] => .ok ([], flags)
  | token :: rest =>
    match Operand.parse token with
    | .error fault => .error fault
    | .ok (operand, marker) =>
      match parseTokens (marker.mark flags) rest with
      | .error fault => .error fault
      | .ok (operands, flags) => .ok (operand :: operands, flags)

/-- The operands of an instruction. In a memory reference the index register is a flag, wherever it
stands. -/
def parseOperands (opcode : Opcode) (flags : Flags) (text : String) :
    Except Fault (List Operand × Flags) :=
  let tokens := Operand.split text
  if opcode.isMemoryReference && tokens.any isIndexToken then
    parseTokens { flags with indexed := true } (tokens.filter (!isIndexToken ·))
  else
    parseTokens flags tokens

end Instruction

namespace Statement

/-- A diagnostic about a field of a line. -/
def fieldError (file : String) (line column : Int) (text : String) (cause : Cause) : Failure :=
  .diagnostic { cause, location := some ⟨file, line, column⟩, sourceLine := some text }

def parseInstruction (file : String) (line offset : Int) (fields : Fields) (text : String)
    (opcode : Opcode) : Except Failure Statement :=
  let extended := fields.operator.toList.head? = some '+'
  if extended && !opcode.isExtendable then
    .error (fieldError file line operatorColumn text
      (.notExtendable opcode.mnemonic opcode.formats))
  else
    let flags : Flags := { extended, baseMachine := opcode.isBase }
    match Instruction.parseOperands opcode flags fields.operand with
    | .error fault => .error (.fault fault)
    | .ok (operands, flags) =>
      .ok
        { location := ⟨file, line, labelColumn⟩
          offset
          label := fields.label
          operator := fields.operator
          operands
          operandText := fields.operand
          comment := fields.comment
          body := .instruction
            { opcode
              format := if extended then 4 else Instruction.plainFormat opcode
              flags
              references := operands.filterMap (·.symbolName?)
              mismatch := Instruction.mismatch? opcode operands } }

/-- What a directive takes from its line: its operands, its value, and its address if that is not where
the line stands. -/
structure Setup where
  operands : List Operand := []
  value : Nat := 0
  offset : Option Int := none

/-- An operand of a directive that is an address: a number, register or symbol. -/
def addressOperand (text : String) : Except Failure Setup :=
  match Operand.classify text with
  | .ok operand => .ok { operands := [operand] }
  | .error fault => .error (.fault fault)

/-- The operand each directive asks for. -/
def setup (file : String) (line : Int) (fields : Fields) (text : String) (d : Directive) :
    Except Failure Setup :=
  let operand := fields.operand
  let refuse (code : Int) (detail : String) : Except Failure Setup :=
    .error (fieldError file line operandColumn text (.badDirective code detail))
  match d with
  | .start =>
    if fields.label.isEmpty then
      .error (fieldError file line labelColumn text (.badDirective Catalogue.startLabel ""))
    else if operand.isEmpty then
      refuse Catalogue.startOperand ""
    else
      match Number.parseAddress operand.toList with
      | none => refuse Catalogue.startAddress ("'" ++ operand ++ "'")
      | some value => .ok { operands := [.integer value], value, offset := some (value : Int) }
  | .reserveWords | .reserveBytes =>
    if operand.isEmpty || !operand.toList.all Text.isDigit then
      refuse Catalogue.directiveOperand
        (d.name ++ " needs a decimal count, got '" ++ operand ++ "'")
    else
      match Number.parseCount operand with
      | .error fault => .error (.fault fault)
      | .ok value => .ok { operands := [.integer value], value }
  | .byte | .word =>
    if operand.isEmpty then
      refuse Catalogue.directiveOperand (d.name ++ " needs a value")
    else
      match Literal.parse operand (d.dataWidth?.getD 0) with
      | .error fault => refuse Catalogue.directiveOperand fault.message
      | .ok literal => .ok { operands := [literal] }
  | .base =>
    if operand.isEmpty then
      refuse Catalogue.directiveOperand "BASE needs an address"
    else
      addressOperand operand
  | .finish => if operand.isEmpty then .ok {} else addressOperand operand
  | .noBase => .ok {}

def parseDirective (file : String) (line offset : Int) (fields : Fields) (text : String)
    (d : Directive) : Except Failure Statement :=
  (setup file line fields text d).map fun s =>
    { location := ⟨file, line, labelColumn⟩
      offset := s.offset.getD offset
      label := fields.label
      operator := fields.operator
      operands := s.operands
      operandText := fields.operand
      comment := fields.comment
      body := .directive d s.value }

/-- The statement on a line, placed at `offset`. -/
def parse (file : String) (text : String) (line offset : Int) : Except Failure Statement :=
  match SourceLine.read file line text with
  | .error d => .error (.diagnostic d)
  | .ok (.remark comment _) =>
    .ok { location := ⟨file, line, labelColumn⟩, offset, comment, body := .remark }
  | .ok (.code fields whole) =>
    match Opcode.ofName? (String.ofList (fields.operator.toList.dropWhile (· = '+'))) with
    | some opcode => parseInstruction file line offset fields whole opcode
    | none =>
      match Directive.ofName? fields.operator with
      | some d => parseDirective file line offset fields whole d
      | none => .error (fieldError file line operatorColumn whole (.unknownOperator fields.operator))

end Statement

end TwoPass
