import TwoPass.Source.Line
import TwoPass.Statement.Basic
import TwoPass.Symbol.Distance

/-!
The symbol table: names in the order of their definition, each with its address and the line that
defines it, and the resolution of symbolic operands against a table.
-/

namespace TwoPass

structure Symbol where
  name : String
  address : Int
  line : Int := 0
  deriving DecidableEq, Repr

abbrev SymbolTable := List Symbol

namespace SymbolTable

def find? (table : SymbolTable) (name : String) : Option Symbol :=
  List.find? (·.name == name) table

def address? (table : SymbolTable) (name : String) : Option Int :=
  (table.find? name).map (·.address)

def names (table : SymbolTable) : List String :=
  table.map (·.name)

/-- Sets the address of a name, which keeps its place if it has one. -/
def put (table : SymbolTable) (name : String) (address : Int) : SymbolTable :=
  if (table.find? name).isSome then
    table.map fun s => if s.name = name then { s with address } else s
  else
    table ++ [⟨name, address, 0⟩]

/-- The table of names and addresses in which a later address replaces an earlier one. -/
def ofPairs (pairs : List (String × Int)) : SymbolTable :=
  pairs.foldl (fun table (name, address) => put table name address) []

/-- The table in the order of the names. -/
def sorted (table : SymbolTable) : SymbolTable :=
  table.mergeSort fun a b => a.name ≤ b.name

end SymbolTable

/-! ## Resolution -/

/-- The error for a name that no statement defines. -/
def unresolved (table : SymbolTable) (file : String) (line : Int) (name : String) : Diagnostic :=
  { cause := .unresolvedSymbol name (Distance.similar name table.names) none
    location := some ⟨file, line, operandColumn⟩ }

/-- A symbol becomes its address; a name that is not in the table stays. -/
def Operand.resolve (table : SymbolTable) (operand : Operand) : Operand :=
  match operand with
  | .symbol name =>
    match table.address? name with
    | some address => .integer address
    | none => operand
  | _ => operand

namespace Statement

/-- Resolves the operands of an instruction; other statements are left alone. -/
def resolve (table : SymbolTable) (s : Statement) : Statement :=
  match s.body with
  | .instruction _ => { s with operands := s.operands.map (·.resolve table) }
  | _ => s

/-- One error for each operand of an instruction that stays symbolic. -/
def unresolvedErrors (table : SymbolTable) (s : Statement) : List Diagnostic :=
  match s.body with
  | .instruction _ =>
    (s.operands.filterMap (·.symbolName?)).filterMap fun name =>
      if (table.address? name).isSome then none
      else some (unresolved table s.location.file s.line name)
  | _ => []

end Statement

/-- Statements with their symbols resolved, and the errors for those that cannot be. -/
def resolveSymbols (table : SymbolTable) (statements : List Statement) :
    List Statement × List Diagnostic :=
  (statements.map (·.resolve table), statements.flatMap (·.unresolvedErrors table))

end TwoPass
