import TwoPass.Machine.Opcode
import TwoPass.Machine.Register
import TwoPass.Operand.Number

/-!
Operands: integers, registers, symbols and the two literals of data directives, and how they are read
from the operand field of an instruction.
-/

namespace TwoPass

inductive OperandKind
  | integer
  | register
  | symbol
  | characters
  | hexadecimal
  deriving DecidableEq, Repr

def OperandKind.name : OperandKind → String
  | .integer => "integer"
  | .register => "register"
  | .symbol => "symbol"
  | .characters => "char-bytes"
  | .hexadecimal => "hex-bytes"

inductive Operand
  | integer (value : Int)
  | register (name : String)
  | symbol (name : String)
  | characters (bytes : List UInt8)
  | hexadecimal (value : Int)
  deriving DecidableEq, Repr

namespace Operand

def kind : Operand → OperandKind
  | .integer _ => .integer
  | .register _ => .register
  | .symbol _ => .symbol
  | .characters _ => .characters
  | .hexadecimal _ => .hexadecimal

def isSymbol : Operand → Bool
  | .symbol _ => true
  | _ => false

/-- The name of a symbol. -/
def symbolName? : Operand → Option String
  | .symbol name => some name
  | _ => none

/-- Names are kept in upper case. -/
def ofRegister (name : String) : Operand :=
  .register (Text.upper name)

def ofSymbol (name : String) : Operand :=
  .symbol (Text.upper name)

/-- The operand as source text. -/
def text : Operand → Except Fault String
  | .integer value => Number.write value
  | .register name => .ok name
  | .symbol name => .ok name
  | .characters bytes =>
    .ok ("C'" ++ String.ofList (bytes.map fun b => Char.ofNat b.toNat) ++ "'")
  | .hexadecimal value => .ok ("X'" ++ Text.hex 1 value ++ "'")

/-- A bare token is a number, else a register, else a symbol. -/
def classify (token : String) : Except Fault Operand :=
  match Number.parse token.toList with
  | .error fault => .error fault
  | .ok (some value) => .ok (.integer value)
  | .ok none => .ok (if isRegister token then ofRegister token else ofSymbol token)

/-- Tokens between commas without the blanks around them; a blank field has none. -/
def split (text : String) : List String :=
  if Text.isBlankText text.toList then
    []
  else
    (Text.splitOn ',' text.toList).map fun token => String.ofList (Text.trim token)

end Operand

/-- Whether an operand may fill a position of the declared kind. -/
def ArgKind.accepts : ArgKind → Operand → Bool
  | .general, _ => true
  | .register, operand => operand.kind = .register
  | .numeric, operand => operand.kind = .integer

/-- Kinds as in `(register, integer)`. -/
def shapeText (names : List String) : String :=
  "(" ++ Text.joinWith ", " names ++ ")"

/-! ## Addressing -/

/-- A mark on an instruction: how its operand is addressed, which format it has. -/
inductive Flag
  | extended
  | indexed
  | immediate
  | indirect
  | pcRelative
  | baseRelative
  | baseMachine
  deriving DecidableEq, Repr

namespace Flag

/-- All flags in the order of their names. -/
def all : List Flag :=
  [.baseRelative, .extended, .immediate, .indexed, .indirect, .pcRelative, .baseMachine]

def name : Flag → String
  | .extended => "extended-format"
  | .indexed => "indexed"
  | .immediate => "immediate"
  | .indirect => "indirect"
  | .pcRelative => "pc-relative"
  | .baseRelative => "base-relative"
  | .baseMachine => "sicxe-capable"

end Flag

/-- The set of flags of an instruction. -/
structure Flags where
  extended : Bool := false
  indexed : Bool := false
  immediate : Bool := false
  indirect : Bool := false
  pcRelative : Bool := false
  baseRelative : Bool := false
  baseMachine : Bool := false
  deriving DecidableEq, Repr

namespace Flags

def has (fs : Flags) : Flag → Bool
  | .extended => fs.extended
  | .indexed => fs.indexed
  | .immediate => fs.immediate
  | .indirect => fs.indirect
  | .pcRelative => fs.pcRelative
  | .baseRelative => fs.baseRelative
  | .baseMachine => fs.baseMachine

/-- Puts one flag in or out of the set. -/
def put (fs : Flags) (flag : Flag) (present : Bool) : Flags :=
  match flag with
  | .extended => { fs with extended := present }
  | .indexed => { fs with indexed := present }
  | .immediate => { fs with immediate := present }
  | .indirect => { fs with indirect := present }
  | .pcRelative => { fs with pcRelative := present }
  | .baseRelative => { fs with baseRelative := present }
  | .baseMachine => { fs with baseMachine := present }

/-- The flags of the set in the order of their names. -/
def toList (fs : Flags) : List Flag :=
  Flag.all.filter fs.has

end Flags

namespace Operand

/-- How a token is marked: `#` for an immediate operand, `@` for an indirect one. -/
inductive Marker
  | plain
  | immediate
  | indirect
  deriving DecidableEq, Repr

/-- The flags a marker sets. -/
def Marker.mark (fs : Flags) : Marker → Flags
  | .plain => fs
  | .immediate => { fs with immediate := true }
  | .indirect => { fs with indirect := true }

/-- A token without its marker. -/
def splitMarker (token : String) : Marker × String :=
  match token.toList with
  | '#' :: rest => (.immediate, String.ofList (Text.trim rest))
  | '@' :: rest => (.indirect, String.ofList (Text.trim rest))
  | _ => (.plain, token)

/-- One operand of an instruction and its marker. -/
def parse (token : String) : Except Fault (Operand × Marker) :=
  let (marker, body) := splitMarker token
  (classify body).map fun operand => (operand, marker)

end Operand

end TwoPass
