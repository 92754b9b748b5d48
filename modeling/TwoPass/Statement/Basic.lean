import TwoPass.Diagnostic
import TwoPass.Machine.Directive
import TwoPass.Operand.Basic

/-!
Statements: placed source lines with their operands. A statement has a size, which never depends on the
values of symbols, and object code in hexadecimal digits.
-/

namespace TwoPass

/-- What is particular to an instruction. -/
structure Instruction where
  opcode : Opcode
  format : Int
  flags : Flags
  /-- Names of the symbols among the operands as written. -/
  references : List String := []
  /-- Expected and found operands, where they differ. -/
  mismatch : Option String := none
  /-- Displacement relative to the program counter or the base register. -/
  displacement : Option Int := none
  deriving DecidableEq, Repr

inductive Body
  | instruction (instruction : Instruction)
  /-- The value is the address of `START` and the count of a reservation. -/
  | directive (directive : Directive) (value : Nat)
  | remark
  deriving DecidableEq, Repr

def Body.kind : Body → String
  | .instruction _ => "Instruction"
  | .directive _ _ => "Directive"
  | .remark => "Comment"

/-- What statements of all sorts have: a place in the source, an address, and the fields as written. -/
structure Frame where
  location : Location
  offset : Int := 0
  label : String := ""
  operator : String := ""
  operands : List Operand := []
  operandText : String := ""
  comment : String := ""
  deriving DecidableEq, Repr

structure Statement extends Frame where
  body : Body
  deriving DecidableEq, Repr

namespace Frame

def line (frame : Frame) : Int :=
  frame.location.line

/-- A frame alone takes no known room. -/
def size (_ : Frame) : Except Fault Nat :=
  .error .noBody

def code (_ : Frame) : Except Fault (List Char) :=
  .error .noBody

end Frame

/-! ## Size and object code of an instruction -/

namespace Instruction

def isValid (i : Instruction) : Bool :=
  i.mismatch.isNone

def diagnostic (i : Instruction) : String :=
  i.mismatch.getD ""

def size (i : Instruction) : Except Fault Nat :=
  match formatSizes.lookup i.format with
  | some size => .ok size
  | none => .error (.unknownFormat i.format)

/-- The bits `n` and `i`, by which the machine knows immediate and indirect operands. A plain address
has neither, as on the base machine; a relative one has both. -/
def addressingBits (i : Instruction) : Nat :=
  if i.flags.immediate then 1
  else if i.flags.indirect then 2
  else if i.flags.pcRelative || i.flags.baseRelative then 3
  else 0

/-- The bits `x`, `b`, `p` and `e` in front of the address. -/
def addressFlags (i : Instruction) : Nat :=
  8 * i.flags.indexed.toNat + 4 * i.flags.baseRelative.toNat + 2 * i.flags.pcRelative.toNat
    + i.flags.extended.toNat

/-- Address or value of the first operand: zero without one, `none` for a name that is no register. -/
def target? (operands : List Operand) : Option Int :=
  match operands with
  | .integer value :: _ => some value
  | .register name :: _ => (registerNumber? name).map Int.ofNat
  | _ => some 0

/-- Four bits for an operand of a register instruction. -/
def nibble (use : RegisterUse) : Operand → Except Fault Nat
  | .register name =>
    match registerNumber? name with
    | some number => .ok number
    | none => .error (.unknownRegister use)
  | .integer value => .ok (value % 16).toNat
  | _ => .ok 0

/-- The first two operands, of which each may be missing. -/
def nibbles : List Operand → Except Fault (Nat × Nat)
  | [] => .ok (0, 0)
  | [first] => do return (← nibble .upperHalf first, 0)
  | first :: second :: _ => do
    return (← nibble .upperHalf first, ← nibble .lowerHalf second)

/-- Hexadecimal digits of the address field in a format of three or four bytes. -/
def addressDigits (format : Int) : Option Nat :=
  match format with
  | 3 => some 3
  | 4 => some 5
  | _ => none

/-- The opcode byte with the addressing bits in its two low places. -/
def opcodeByte (i : Instruction) : Nat :=
  i.opcode.code / 4 * 4 + i.addressingBits

/-- What goes into the address field before it is cut to its width. -/
def address? (i : Instruction) (operands : List Operand) : Option Int :=
  match i.displacement with
  | some displacement => some displacement
  | none => target? operands

/-- Object code of an instruction with the given operands, field by field. -/
def code (i : Instruction) (operands : List Operand) : Except Fault (List Char) :=
  match i.format with
  | 1 => .ok (Text.hexNat 2 i.opcode.code)
  | 2 =>
    match nibbles operands with
    | .ok (first, second) =>
      .ok (Text.hexNat 2 i.opcode.code ++ Text.hexNat 1 first ++ Text.hexNat 1 second)
    | .error fault => .error fault
  | format =>
    match addressDigits format with
    | none => .error (.unknownFormat format)
    | some digits =>
      match i.address? operands with
      | none => .error (.unknownRegister .address)
      | some address =>
        .ok (Text.hexNat 2 i.opcodeByte ++ Text.hexNat 1 i.addressFlags
          ++ Text.hexNat digits (address % Nat.pow 16 digits).toNat)

end Instruction

/-! ## Size and object code of a directive -/

namespace Directive

/-- Bytes of data: one for each character, else the width of the directive. -/
def dataSize (width : Nat) (operands : List Operand) : Except Fault Nat :=
  match operands with
  | [] => .error .missingOperand
  | .characters bytes :: _ => .ok bytes.length
  | _ => .ok width

/-- `START` counts its address as its size; only the passes know that it takes no room. -/
def size (d : Directive) (value : Nat) (operands : List Operand) : Except Fault Nat :=
  match d with
  | .start => .ok value
  | .reserveWords => .ok (value * 3)
  | .reserveBytes => .ok value
  | .byte => dataSize 1 operands
  | .word => dataSize 3 operands
  | .finish | .base | .noBase => .ok 0

/-- A value in two's complement, cut to `width` bytes. -/
def valueCode (width : Nat) (value : Int) : List Char :=
  Text.hexNat (2 * width) (value % Nat.pow 256 width).toNat

/-- Digits of data; a symbol leaves room of zeros. -/
def dataCode (width : Nat) (operands : List Operand) : Except Fault (List Char) :=
  match operands with
  | [] => .error .missingOperand
  | .characters bytes :: _ => .ok (bytes.flatMap fun b => Text.hexNat 2 b.toNat)
  | .symbol _ :: _ => .ok (List.replicate (2 * width) '0')
  | .integer value :: _ => .ok (valueCode width value)
  | .hexadecimal value :: _ => .ok (valueCode width value)
  | .register _ :: _ => .error .notData

def code (d : Directive) (operands : List Operand) : Except Fault (List Char) :=
  match d with
  | .byte => dataCode 1 operands
  | .word => dataCode 3 operands
  | _ => .ok []

end Directive

/-! ## Statements -/

namespace Statement

def line (s : Statement) : Int :=
  s.location.line

def isRemark (s : Statement) : Bool :=
  match s.body with
  | .remark => true
  | _ => false

def instruction? (s : Statement) : Option Instruction :=
  match s.body with
  | .instruction i => some i
  | _ => none

/-- The operator without the mark of the extended format. -/
def mnemonic (s : Statement) : String :=
  String.ofList (s.operator.toList.dropWhile (· = '+'))

def size (s : Statement) : Except Fault Nat :=
  match s.body with
  | .instruction i => i.size
  | .directive d value => d.size value s.operands
  | .remark => .ok 0

/-- Object code as upper-case hexadecimal digits. -/
def code (s : Statement) : Except Fault (List Char) :=
  match s.body with
  | .instruction i => i.code s.operands
  | .directive d _ => d.code s.operands
  | .remark => .ok []

/-! ## Changes -/

/-- Fills the place of an operand; places below zero count from the end. -/
def setOperand (s : Statement) (place : Int) (operand : Operand) : Except Fault Statement :=
  let index := if place < 0 then place + s.operands.length else place
  if 0 ≤ index && index < s.operands.length then
    .ok { s with operands := s.operands.set index.toNat operand }
  else
    .error .noSuchOperand

/-- Puts a flag on an instruction or takes it away; other statements have no flags. -/
def putFlag (s : Statement) (flag : Flag) (present : Bool) : Except Fault Statement :=
  match s.body with
  | .instruction i => .ok { s with body := .instruction { i with flags := i.flags.put flag present } }
  | _ => .error (.noFlags s.body.kind)

/-- An address is assigned when a statement is placed, and never again. -/
def assignOffset (_ : Statement) (_ : Int) : Except Fault Statement :=
  .error .offsetFixed

end Statement

end TwoPass
