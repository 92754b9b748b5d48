import TwoPass.Symbol.Table

/-!
Displacements: the way a three-byte instruction reaches its target. It counts from the following
instruction if the target is near enough, else from the base register if that is known, else the target
is a low address itself.
-/

namespace TwoPass

/-- How a target is reached. -/
inductive Reach
  | pcRelative (displacement : Int)
  | baseRelative (displacement : Int)
  | direct
  | outOfReach
  deriving DecidableEq, Repr

namespace Reach

/-- Signed displacements of twelve bits. -/
def isPcRange (n : Int) : Bool :=
  (-2048 ≤ n) && (n < 2048)

/-- Unsigned displacements of twelve bits, and addresses that need no more. -/
def isDirectRange (n : Int) : Bool :=
  (0 ≤ n) && (n < 4096)

/-- The choice for a target, where `next` is the address of the following instruction. -/
def choose (next : Int) (base : Option Int) (target : Int) : Reach :=
  if isPcRange (target - next) then
    .pcRelative (target - next)
  else
    match base with
    | some base =>
      if isDirectRange (target - base) then .baseRelative (target - base)
      else if isDirectRange target then .direct
      else .outOfReach
    | none => if isDirectRange target then .direct else .outOfReach

end Reach

/-- The instruction with neither displacement nor relative flags. -/
def Instruction.unplaced (i : Instruction) : Instruction :=
  { i with
    flags := { i.flags with pcRelative := false, baseRelative := false }
    displacement := none }

/-- The instruction as a reach asks for it. -/
def Instruction.withReach (i : Instruction) (reach : Reach) : Instruction :=
  match reach with
  | .pcRelative d =>
    { i.unplaced with
      flags := { i.unplaced.flags with pcRelative := true }
      displacement := some d }
  | .baseRelative d =>
    { i.unplaced with
      flags := { i.unplaced.flags with baseRelative := true }
      displacement := some d }
  | .direct | .outOfReach => i.unplaced

/-- A statement after its displacement has been looked for, and what went wrong. -/
structure Revision where
  statement : Statement
  problem : Option Failure := none
  deriving DecidableEq, Repr

namespace Statement

/-- Chooses the displacement of an instruction; other statements have none. -/
def relocate (base : Option Int) (s : Statement) : Revision :=
  match s.body with
  | .instruction i =>
    match i.size, Instruction.target? s.operands with
    | .error fault, _ =>
      { statement := { s with body := .instruction i.unplaced }, problem := some (.fault fault) }
    | .ok _, none =>
      { statement := { s with body := .instruction i.unplaced }
        problem := some (.fault (.unknownRegister .distance)) }
    | .ok size, some target =>
      let reach := Reach.choose (s.offset + size) base target
      { statement := { s with body := .instruction (i.withReach reach) }
        problem :=
          if reach = .outOfReach then
            some (.diagnostic
              { cause := .outOfReach s.mnemonic target, location := some s.location })
          else
            none }
  | _ => { statement := s, problem := some (.fault (.noFlags s.body.kind)) }

/-- Whether the displacement of a statement is open: a three-byte instruction that referred to a symbol
and whose first operand is an address by now. -/
def isRelocatable (s : Statement) : Bool :=
  match s.body, s.operands with
  | .instruction i, .integer _ :: _ => i.format = 3 && !i.references.isEmpty
  | _, _ => false

/-- The name that a `BASE` directive refers to. -/
def baseName : List Operand → String
  | .register name :: _ | .symbol name :: _ => name
  | _ => ""

/-- What the base register holds after a `BASE` directive with these operands. -/
def baseValue? (table : SymbolTable) (operands : List Operand) : Option Int :=
  match operands with
  | .integer value :: _ => some value
  | .register name :: _ | .symbol name :: _ => table.address? name
  | _ => none

/-- The error of a `BASE` directive whose name is not defined. -/
def baseError (table : SymbolTable) (file : String) (s : Statement) : Diagnostic :=
  unresolved table file s.line (baseName s.operands)

/-- One statement of the scan: its revision, and the base in effect after it. -/
def revise (table : SymbolTable) (file : String) (base : Option Int) (s : Statement) :
    Revision × Option Int :=
  match s.body with
  | .directive .base _ =>
    match baseValue? table s.operands with
    | some value => ({ statement := s }, some value)
    | none =>
      ({ statement := s, problem := some (.diagnostic (baseError table file s)) }, none)
  | .directive .noBase _ => ({ statement := s }, none)
  | _ => (if s.isRelocatable then s.relocate base else { statement := s }, base)

end Statement

/-- The scan over all statements with the base in effect at its start. -/
def revisions (table : SymbolTable) (file : String) :
    Option Int → List Statement → List Revision
  | _, [] => []
  | base, s :: rest =>
    let (revision, base) := s.revise table file base
    revision :: revisions table file base rest

end TwoPass
