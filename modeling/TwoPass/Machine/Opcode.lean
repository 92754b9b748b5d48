import TwoPass.Text.Case
import TwoPass.Text.Numeral

/-!
The instruction set: for each mnemonic its base opcode byte, the formats it can be encoded in, and the
kinds of operand it is declared with.
-/

namespace TwoPass

/-- What an operand position is declared to take. -/
inductive ArgKind
  | register
  | numeric
  | general
  deriving DecidableEq, Repr

def ArgKind.name : ArgKind → String
  | .register => "register"
  | .numeric => "numeric"
  | .general => "general"

/-- One entry of the instruction set. A format is known by its length in bytes. -/
structure Opcode where
  mnemonic : String
  args : List ArgKind
  formats : List Int
  code : Nat
  deriving DecidableEq, Repr

/-- Bytes an instruction of each format takes. -/
def formatSizes : List (Int × Nat) :=
  [(1, 1), (2, 2), (3, 3), (4, 4)]

/-- Instructions that refer to memory, in three or four bytes. -/
def memoryOpcodes : List Opcode :=
  [
    ⟨"ADD", [.general], [3, 4], 0x18⟩,
    ⟨"ADDF", [.general], [3, 4], 0x58⟩,
    ⟨"AND", [.general], [3, 4], 0x40⟩,
    ⟨"COMP", [.general], [3, 4], 0x28⟩,
    ⟨"COMPF", [.general], [3, 4], 0x88⟩,
    ⟨"DIV", [.general], [3, 4], 0x24⟩,
    ⟨"DIVF", [.general], [3, 4], 0x64⟩,
    ⟨"J", [.general], [3, 4], 0x3C⟩,
    ⟨"JEQ", [.general], [3, 4], 0x30⟩,
    ⟨"JGT", [.general], [3, 4], 0x34⟩,
    ⟨"JLT", [.general], [3, 4], 0x38⟩,
    ⟨"JSUB", [.general], [3, 4], 0x48⟩,
    ⟨"LDA", [.general], [3, 4], 0x00⟩,
    ⟨"LDB", [.general], [3, 4], 0x68⟩,
    ⟨"LDCH", [.general], [3, 4], 0x50⟩,
    ⟨"LDF", [.general], [3, 4], 0x70⟩,
    ⟨"LDL", [.general], [3, 4], 0x08⟩,
    ⟨"LDS", [.general], [3, 4], 0x6C⟩,
    ⟨"LDT", [.general], [3, 4], 0x74⟩,
    ⟨"LDX", [.general], [3, 4], 0x04⟩,
    ⟨"LPS", [.general], [3, 4], 0xD0⟩,
    ⟨"MUL", [.general], [3, 4], 0x20⟩,
    ⟨"MULF", [.general], [3, 4], 0x60⟩,
    ⟨"OR", [.general], [3, 4], 0x44⟩,
    ⟨"RD", [.general], [3, 4], 0xD8⟩,
    ⟨"RSUB", [], [3, 4], 0x4C⟩,
    ⟨"SSK", [.general], [3, 4], 0xEC⟩,
    ⟨"STA", [.general], [3, 4], 0x0C⟩,
    ⟨"STB", [.general], [3, 4], 0x78⟩,
    ⟨"STCH", [.general], [3, 4], 0x54⟩,
    ⟨"STF", [.general], [3, 4], 0x80⟩,
    ⟨"STI", [.general], [3, 4], 0xD4⟩,
    ⟨"STL", [.general], [3, 4], 0x14⟩,
    ⟨"STS", [.general], [3, 4], 0x7C⟩,
    ⟨"STSW", [.general], [3, 4], 0xE8⟩,
    ⟨"STT", [.general], [3, 4], 0x84⟩,
    ⟨"STX", [.general], [3, 4], 0x10⟩,
    ⟨"SUB", [.general], [3, 4], 0x1C⟩,
    ⟨"SUBF", [.general], [3, 4], 0x5C⟩,
    ⟨"TD", [.general], [3, 4], 0xE0⟩,
    ⟨"TIX", [.general], [3, 4], 0x2C⟩,
    ⟨"WD", [.general], [3, 4], 0xDC⟩
  ]

/-- Instructions on registers, in two bytes. -/
def registerOpcodes : List Opcode :=
  [
    ⟨"ADDR", [.register, .register], [2], 0x90⟩,
    ⟨"CLEAR", [.register], [2], 0xB4⟩,
    ⟨"COMPR", [.register, .register], [2], 0xA0⟩,
    ⟨"DIVR", [.register, .register], [2], 0x9C⟩,
    ⟨"MULR", [.register, .register], [2], 0x98⟩,
    ⟨"RMO", [.register, .register], [2], 0xAC⟩,
    ⟨"SHIFTL", [.register, .numeric], [2], 0xA4⟩,
    ⟨"SHIFTR", [.register, .numeric], [2], 0xA8⟩,
    ⟨"SUBR", [.register, .register], [2], 0x94⟩,
    ⟨"SVC", [.numeric], [2], 0xB0⟩,
    ⟨"TIXR", [.register], [2], 0xB8⟩
  ]

/-- Instructions without an operand, in one byte. -/
def bareOpcodes : List Opcode :=
  [
    ⟨"FIX", [], [1], 0xC4⟩,
    ⟨"FLOAT", [], [1], 0xC0⟩,
    ⟨"HIO", [], [1], 0xF4⟩,
    ⟨"NORM", [], [1], 0xC8⟩,
    ⟨"SIO", [], [1], 0xF0⟩,
    ⟨"TIO", [], [1], 0xF8⟩
  ]

/-- The instruction set in the order of its table. -/
def opcodes : List Opcode :=
  memoryOpcodes ++ registerOpcodes ++ bareOpcodes

/-- Mnemonics that the smaller base machine has as well. -/
def baseMnemonics : List String :=
  [
    "LDA", "LDX", "LDL", "STA", "STX", "STL", "ADD", "SUB", "MUL", "DIV", "COMP", "TIX", "JEQ",
    "JGT", "JLT", "J", "AND", "OR", "JSUB", "RSUB", "LDCH", "STCH"
  ]

namespace Opcode

/-- Whether the instruction is carried over from the base machine. -/
def isBase (op : Opcode) : Bool :=
  baseMnemonics.contains op.mnemonic

/-- Whether the four-byte format may be asked for. -/
def isExtendable (op : Opcode) : Bool :=
  op.formats.contains 4

/-- Whether the operand is an address in memory, or there is none: no position wants a register or a
number. -/
def isMemoryReference (op : Opcode) : Bool :=
  op.args.all (· == .general)

/-- The entry for a mnemonic in any letter case. -/
def ofName? (name : String) : Option Opcode :=
  opcodes.find? (·.mnemonic == Text.upper name)

/-- Formats as in `3/4`. -/
def formatsText (formats : List Int) : String :=
  Text.joinWith "/" (formats.map Text.decimal)

/-- One-line description of the entry. -/
def summary (op : Opcode) : String :=
  op.mnemonic ++ ", code=$" ++ Text.hex 2 op.code ++ ", formats=" ++ formatsText op.formats

end Opcode

end TwoPass
