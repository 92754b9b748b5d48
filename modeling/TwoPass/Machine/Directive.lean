import TwoPass.Text.Case

/-!
Directives: instructions to the assembler itself. They set the load address, end the program, reserve
storage, emit data, or tell what the base register holds.
-/

namespace TwoPass

inductive Directive
  | start
  | finish
  | reserveWords
  | reserveBytes
  | byte
  | word
  | base
  | noBase
  deriving DecidableEq, Repr

namespace Directive

def all : List Directive :=
  [.start, .finish, .reserveWords, .reserveBytes, .byte, .word, .base, .noBase]

def name : Directive → String
  | .start => "START"
  | .finish => "END"
  | .reserveWords => "RESW"
  | .reserveBytes => "RESB"
  | .byte => "BYTE"
  | .word => "WORD"
  | .base => "BASE"
  | .noBase => "NOBASE"

/-- The directive with a name in any letter case. -/
def ofName? (text : String) : Option Directive :=
  all.find? (·.name == Text.upper text)

/-- Storage is set aside and nothing is emitted. -/
def isReserve : Directive → Bool
  | .reserveWords | .reserveBytes => true
  | _ => false

/-- Bytes that a number or a hexadecimal literal takes under a data directive. -/
def dataWidth? : Directive → Option Nat
  | .byte => some 1
  | .word => some 3
  | _ => none

/-- Literal data is emitted. -/
def isData (d : Directive) : Bool :=
  d.dataWidth?.isSome

end Directive

end TwoPass
