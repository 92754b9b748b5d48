import Mathlib.Data.List.Forall2
import TwoPass.Symbol.Table

/-!
Resolution as a closure. A symbol whose name the table has becomes its address and nothing else changes, so a second
resolution by the same table finds nothing to do, and two tables one after the other do what one table does that
has the entries of both, those of the first before those of the second.
-/

namespace TwoPass

variable {S T U : SymbolTable}

/-! ## Tables -/

theorem SymbolTable.address?_append (S T : SymbolTable) (name : String) :
    address? (S ++ T) name = (S.address? name).or (T.address? name) := by
  simp only [address?, find?, List.find?_append]
  cases List.find? (·.name == name) S <;> rfl

/-! ## Operands -/

namespace Operand

/-- A symbol that is defined gives way to its address, and every other operand stays. -/
inductive Substituted (table : SymbolTable) : Operand → Operand → Prop
  | defined {name : String} {address : Int} (h : table.address? name = some address) :
      Substituted table (.symbol name) (.integer address)
  | kept {o : Operand} (h : ∀ name, o = .symbol name → table.address? name = none) : Substituted table o o

theorem resolve_symbol (table : SymbolTable) (name : String) :
    (symbol name).resolve table = ((table.address? name).map integer).getD (symbol name) := by
  rw [resolve]
  cases table.address? name <;> rfl

theorem resolve_substituted (table : SymbolTable) (o : Operand) : Substituted table o (o.resolve table) := by
  cases o with
  | symbol name =>
      rw [resolve_symbol]
      cases h : table.address? name with
      | some address => exact .defined h
      | none => exact .kept fun _ ho => by cases ho; exact h
  | _ => exact .kept fun _ ho => by cases ho

theorem resolve_resolve (h : ∀ name, U.address? name = (S.address? name).or (T.address? name)) (o : Operand) :
    (o.resolve S).resolve T = o.resolve U := by
  cases o with
  | symbol name =>
      rw [resolve_symbol, resolve_symbol, h]
      cases S.address? name with
      | some address => rfl
      | none => exact resolve_symbol T name
  | _ => rfl

end Operand

/-! ## Statements -/

namespace Statement

/-- The operands of an instruction are substituted, and nothing else is touched. -/
structure Substituted (table : SymbolTable) (s s' : Statement) : Prop where
  kept : s' = { s with operands := s'.operands }
  instruction : ∀ i, s.body = .instruction i → List.Forall₂ (Operand.Substituted table) s.operands s'.operands
  other : s.instruction? = none → s'.operands = s.operands

/-- The symbols among the operands of an instruction, each with its statement. -/
def openReferences (s : Statement) : List (Statement × String) :=
  match s.body with
  | .instruction _ => (s.operands.filterMap (·.symbolName?)).map (s, ·)
  | _ => []

/-- The error for a symbol that is left over, at the line of its statement. -/
def unresolvedReference (table : SymbolTable) (reference : Statement × String) : Diagnostic :=
  unresolved table reference.1.location.file reference.1.line reference.2

theorem resolve_substituted (table : SymbolTable) (s : Statement) : Substituted table s (s.resolve table) := by
  cases hb : s.body with
  | instruction i =>
      simp only [resolve, hb]
      refine ⟨by simp [hb], fun _ _ => ?_, fun h => by simp [instruction?, hb] at h⟩
      exact List.forall₂_map_right_iff.mpr (List.forall₂_same.mpr fun o _ => o.resolve_substituted table)
  | _ =>
      simp only [resolve, hb]
      exact ⟨rfl, fun i hi => by simp [hb] at hi, fun _ => rfl⟩

theorem resolve_resolve (h : ∀ name, U.address? name = (S.address? name).or (T.address? name)) (s : Statement) :
    (s.resolve S).resolve T = s.resolve U := by
  cases hb : s.body with
  | instruction i => simp [resolve, hb, Operand.resolve_resolve h]
  | _ => simp [resolve, hb]

/-- The errors can be read off the statement that is left. -/
theorem unresolvedErrors_eq (table : SymbolTable) (s : Statement) :
    s.unresolvedErrors table = (s.resolve table).openReferences.map (unresolvedReference table) := by
  cases hb : s.body with
  | instruction i =>
      simp only [unresolvedErrors, openReferences, resolve, hb, List.map_map]
      rw [List.filterMap_filterMap, List.filterMap_map, List.map_filterMap]
      refine List.filterMap_congr fun o _ => ?_
      cases o with
      | symbol name =>
          cases h : table.address? name <;>
            simp [Operand.resolve_symbol, Operand.symbolName?, h, unresolvedReference, line]
      | _ => rfl
  | _ => simp [unresolvedErrors, openReferences, resolve, hb]

end Statement

/-! ## Lists of statements -/

theorem resolveSymbols_idem (S : SymbolTable) (l : List Statement) :
    resolveSymbols S (resolveSymbols S l).1 = resolveSymbols S l := by
  have hidem (s : Statement) : (s.resolve S).resolve S = s.resolve S :=
    s.resolve_resolve fun _ => (Option.or_self).symm
  have herrors (s : Statement) : (s.resolve S).unresolvedErrors S = s.unresolvedErrors S := by
    rw [Statement.unresolvedErrors_eq, Statement.unresolvedErrors_eq, hidem]
  simp [resolveSymbols, List.flatMap_map, hidem, herrors, Function.comp_def]

/-- Resolution puts addresses for exactly the symbols of instructions that the table defines and reports those that
are left, one by one. Doing it again changes nothing, and two tables in turn act as the one that prefers the first. -/
theorem resolveSymbols_closure (S T : SymbolTable) (l : List Statement) :
    List.Forall₂ (Statement.Substituted S) l (resolveSymbols S l).1 ∧
    (resolveSymbols S l).2 =
      ((resolveSymbols S l).1.flatMap (·.openReferences)).map (Statement.unresolvedReference S) ∧
    resolveSymbols S (resolveSymbols S l).1 = resolveSymbols S l ∧
    ∀ U : SymbolTable, (∀ name, U.address? name = (S.address? name).or (T.address? name)) →
      (resolveSymbols T (resolveSymbols S l).1).1 = (resolveSymbols U l).1 := by
  refine ⟨?_, ?_, resolveSymbols_idem S l, fun U h => ?_⟩
  · exact List.forall₂_map_right_iff.mpr (List.forall₂_same.mpr fun s _ => s.resolve_substituted S)
  · simp only [resolveSymbols, List.flatMap_map, List.map_flatMap, Statement.unresolvedErrors_eq]
  · simp only [resolveSymbols, List.map_map]
    exact List.map_congr_left fun s _ => s.resolve_resolve h

/-- A name that both tables have, one that only the second has, one that none has, and a name in data. -/
theorem resolveSymbols_closure_mixed :
    let S : SymbolTable := [⟨"A", 5, 1⟩]
    let T : SymbolTable := [⟨"A", 9, 2⟩, ⟨"B", 7, 3⟩]
    let body := Body.instruction { opcode := ⟨"RMO", [.register, .register], [2], 0xAC⟩, format := 2, flags := {} }
    let code (operands : List Operand) : Statement := { location := ⟨"P", 4, 1⟩, operands, body }
    let data : Statement := { location := ⟨"P", 5, 1⟩, operands := [.symbol "A"], body := .directive .byte 0 }
    let l := [code [.symbol "A", .symbol "B", .register "X", .symbol "C"], data]
    (∀ name, SymbolTable.address? (S ++ T) name = (S.address? name).or (T.address? name)) ∧
      (resolveSymbols T (resolveSymbols S l).1).1 = (resolveSymbols (S ++ T) l).1 ∧
      (resolveSymbols (S ++ T) l).1 = [code [.integer 5, .integer 7, .register "X", .symbol "C"], data] ∧
      (resolveSymbols S l).2 = [unresolved S "P" 4 "B", unresolved S "P" 4 "C"] := by
  intro S T body code data l
  have happend := SymbolTable.address?_append S T
  obtain ⟨-, herrors, -, hboth⟩ := resolveSymbols_closure S T l
  exact ⟨happend, hboth _ happend, rfl, herrors.trans rfl⟩

end TwoPass
