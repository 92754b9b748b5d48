import TwoPass.Proofs.Assembly.Selection

/-!
Numbers in the place of a target. Displacements are for instructions that refer to a symbol, but the symbol may be
any of the operands and the displacement is that of the first. So a number in front is left as it stands, unless
a symbol comes behind it and the number happens to be in reach as an address.
-/

namespace TwoPass

open TwoPass.Action (Ends ends_bind)
open Reach (IsNear IsBased)

/-! ## Instructions -/

/-- The instruction has no displacement, and nothing says that it had one. -/
def Instruction.IsPlain (i : Instruction) : Prop :=
  i.displacement = none ∧ i.flags.pcRelative = false ∧ i.flags.baseRelative = false

instance (i : Instruction) : Decidable i.IsPlain :=
  inferInstanceAs (Decidable (_ ∧ _ ∧ _))

theorem Instruction.IsPlain.unplaced {i : Instruction} (h : i.IsPlain) : i.unplaced = i := by
  obtain ⟨hd, hp, hb⟩ := h
  rcases i with ⟨opcode, format, ⟨⟩, references, mismatch, displacement⟩
  simp_all [Instruction.unplaced]

theorem Instruction.Selected.isPlain_iff {i i' : Instruction} {next target : Int} {base : Option Int}
    (h : i.Selected next base target i') : i'.IsPlain ↔ ¬ (IsNear next target ∨ IsBased base target) := by
  have hflags : i'.flags.pcRelative = false ∧ i'.flags.baseRelative = false ↔
      ¬ (IsNear next target ∨ IsBased base target) := by
    rw [← Bool.not_eq_true, ← Bool.not_eq_true, h.pcRelative, h.baseRelative]
    tauto
  refine ⟨fun hi => hflags.mp hi.2, fun hn => ⟨?_, hflags.mpr hn⟩⟩
  rw [Option.eq_none_iff_forall_not_mem]
  intro d hd
  rcases (h.displacement d).mp hd with ⟨hnear, -⟩ | ⟨-, b, hb, rfl, hmin, hmax⟩
  · exact hn (.inl hnear)
  · exact hn (.inr ⟨b, hb, hmin, hmax⟩)

/-! ## Statements -/

namespace Statement

/-- The number in front of these operands is taken for the address of a target. -/
def IsMistaken (base : Option Int) (s : Statement) (i : Instruction) (value : Int) (rest : List Operand) : Prop :=
  i.format = 3 ∧ (∃ name, .symbol name ∈ rest) ∧ (IsNear (s.offset + 3) value ∨ IsBased base value)

variable {s : Statement} {i : Instruction} {value : Int} {rest : List Operand} {file : String}

theorem resolve_constant (table : SymbolTable) (hb : s.body = .instruction i)
    (ho : s.operands = .integer value :: rest) :
    s.resolve table = { s with operands := .integer value :: rest.map (·.resolve table) } := by
  simp [resolve, hb, ho, Operand.resolve]

theorem references_ne_nil_iff (ho : s.operands = .integer value :: rest)
    (hi : i.references = s.operands.filterMap (·.symbolName?)) :
    i.references ≠ [] ↔ ∃ name, .symbol name ∈ rest := by
  rw [hi, ho, Ne, List.filterMap_eq_nil_iff]
  constructor
  · intro h
    by_contra hnone
    refine h fun o hm => ?_
    cases o with
    | symbol name => exact absurd ⟨name, by simpa using hm⟩ hnone
    | _ => rfl
  · rintro ⟨name, hname⟩ h
    cases h _ (List.mem_cons_of_mem _ hname)

/-- What becomes of an instruction that has a number in front. -/
theorem revise_constant {line offset : Int} (table : SymbolTable) (base : Option Int) (hs : s.Parsed file line offset)
    (hb : s.body = .instruction i) (ho : s.operands = .integer value :: rest) :
    ∃ i', ((s.resolve table).revise table file base).1.statement =
        { s.resolve table with body := .instruction i' } ∧
      i'.unplaced = i ∧ (i'.IsPlain ↔ ¬ s.IsMistaken base i value rest) := by
  obtain ⟨href, hplain⟩ := hs.instruction i hb
  have hi : i.IsPlain := hplain
  have hsymbol := references_ne_nil_iff ho href
  have hresolved : (s.resolve table).operands = .integer value :: rest.map (·.resolve table) := by
    rw [resolve_constant table hb ho]
  by_cases hr : i.format = 3 ∧ i.references ≠ []
  · have hreference := reference?_of_operands hb hr.1 hr.2 hresolved
    have hselected := i.withReach_selected (s.offset + 3) base value
    refine ⟨_, (revise_reference hreference hb).1, hselected.kept.trans hi.unplaced, ?_⟩
    rw [hselected.isPlain_iff, IsMistaken, ← hsymbol]
    tauto
  · have hreference : s.reference? table = none := by
      simp only [reference?, hb, hresolved]
      rw [if_neg (by simpa using hr)]
    refine ⟨i, ?_, hi.unplaced, iff_of_true hi ?_⟩
    · rw [revise_other hreference, resolve_constant table hb ho, ← hb]
    · rintro ⟨hf, hname, -⟩
      exact hr ⟨hf, hsymbol.mpr hname⟩

end Statement

/-! ## The pass -/

namespace Assembly

variable {a : Assembly} {n k : Nat} {s : Statement}

/-- The statements where the scan has come to the first `n`: these are revised and the others only resolved. -/
def scanned (a : Assembly) (n : Nat) : List Statement :=
  (a.plan.take n).map (·.statement) ++ (a.statements.map (·.resolve a.symbols)).drop n

theorem scanned_length (a : Assembly) : a.scanned a.statements.length = a.plan.map (·.statement) := by
  rw [scanned, ← length_plan, List.take_length, length_plan, List.drop_eq_nil_of_le (by simp), List.append_nil]

theorem getElem?_scanned (n : Nat) (hs : a.statements[k]? = some s) :
    (a.scanned n)[k]? = some (if k < n then ((s.resolve a.symbols).revise a.symbols a.file (a.baseAt k)).1.statement
      else s.resolve a.symbols) := by
  have hk : k < a.statements.length := (List.getElem?_eq_some_iff.mp hs).1
  have hlength : ((a.plan.take n).map (·.statement)).length = min n a.statements.length := by simp [length_plan]
  rw [scanned]
  by_cases hn : k < n
  · rw [List.getElem?_append_left (by omega), if_pos hn, List.map_take, List.getElem?_take_of_lt hn, plan_eq]
    simp [hs]
  · rw [List.getElem?_append_right (by omega), if_neg hn, List.getElem?_drop, List.getElem?_map]
    have hplace : n + (k - ((a.plan.take n).map (·.statement)).length) = k := by omega
    rw [hplace, hs, Option.map_some]

theorem reportAll_stopped : (ds : List Diagnostic) → (a : Assembly) → Ends (reportAll ds) a (fun _ _ => True) Stopped
  | [], _ => trivial
  | d :: rest, a => by
      unfold reportAll
      refine Ends.bind (Ends.imp_error (report_ends (P := fun _ => True) fun _ => trivial) fun _ _ h => h.2) ?_
      exact fun _ b _ => reportAll_stopped rest b

theorem resolveAll_scans (hrel : a.settings.relativeAddressing = true) (hw : ∀ s ∈ a.statements, s.WellFormed) :
    Ends resolveAll a (fun _ b => b.statements = a.scanned a.statements.length)
      (fun failure b => (∃ n, b.statements = a.scanned n) ∧ Stopped failure b) := by
  rw [Ends, resolveAll_run, ← Ends, ends_bind, if_pos hrel]
  refine ((reportAll_ends _ _).and (reportAll_stopped _ _)).mono ?_ ?_
  · rintro _ b ⟨⟨-, hb, -⟩, -⟩
    have hlength : (a.statements.map (·.resolve a.symbols)).length = a.plan.length := by simp [length_plan]
    refine ((commit_ends a.plan (show b.statements = [] ++ _ from hb) hlength).and
      (commit_amends a.plan (show b.statements = [] ++ _ from hb) hlength (plan_errors hw).2)).mono ?_ ?_
    · rintro _ c ⟨⟨-, hc, -⟩, -⟩
      rw [hc, scanned_length, List.nil_append]
    · rintro failure c ⟨⟨-, -, n, hc⟩, hstopped⟩
      exact ⟨⟨n, hc⟩, hstopped⟩
  · rintro failure b ⟨⟨-, hb, -⟩, hstopped⟩
    exact ⟨⟨0, hb⟩, hstopped⟩

/-- A pass that runs comes to the end of the statements, unless the error limit stops it. -/
theorem pass2_scans (ha : a.phase = .pass1Done) (hclean : a.errors.hasErrors = false)
    (hrel : a.settings.relativeAddressing = true) (hw : ∀ s ∈ a.statements, s.WellFormed) :
    ∃ n, (pass2.after a).statements = a.scanned n ∧
      ((pass2.after a).limitReached = false → n = a.statements.length) := by
  have hall := resolveAll_scans (a := { a with phase := .pass2Running }) hrel hw
  rcases (pass2_runs ha hclean).cases with
    ⟨ok, b, hrun, -, warnings, journal, rfl⟩ | ⟨failure, b, -, hb, fault, rfl⟩
  · rw [Action.after, hrun]
    rcases hall.cases with ⟨_, c, hc, hstatements⟩ | ⟨failure, c, hc, ⟨n, hstatements⟩, hstopped⟩
    · exact ⟨_, by rw [Action.after, hc]; exact hstatements, fun _ => rfl⟩
    · refine ⟨n, by rw [Action.after, hc]; exact hstatements, fun hlimit => ?_⟩
      rw [Action.after, hc] at hlimit
      have hreached := hstopped.reached
      rw [show c.limitReached = false from hlimit] at hreached
      cases hreached
  · cases (hall.of_error hb).2.overflow

/-- A pass that is refused or skipped leaves the statements alone. -/
theorem pass2_idle (h : a.phase ≠ .pass1Done ∨ a.errors.hasErrors = true) :
    (pass2.after a).statements = a.statements := by
  by_cases ha : a.phase = .pass1Done
  · obtain ⟨journal, hskipped⟩ := pass2_skipped ha (h.resolve_left (not_not.mpr ha))
    rw [Action.after, hskipped]
  · rw [Action.after, pass2_refused ha]

/-- An instruction with a number in front, behind the second pass: the scan has come to the first `n` statements,
and there it takes the number for an address where it can. -/
theorem pass2_constant_iff {settings : Settings} {file : String} {a₀ : Assembly} (lines : List String)
    (hrel : settings.relativeAddressing = true) (h₀ : create settings file = .ok a₀) :
    let a := (pass1 lines).after a₀
    let b := pass2.after a
    ∃ n, (a.phase ≠ .pass1Done ∨ a.errors.hasErrors = true → n = 0) ∧
      (a.phase = .pass1Done → a.errors.hasErrors = false → b.limitReached = false → n = a.statements.length) ∧
      ∀ (k : Nat) (s : Statement) (i : Instruction) (value : Int) (rest : List Operand),
        a.statements[k]? = some s → s.body = .instruction i → s.operands = .integer value :: rest →
        ∃ i' rest', b.statements[k]? =
            some { s with operands := .integer value :: rest', body := .instruction i' } ∧ i'.unplaced = i ∧
          (i'.IsPlain ↔ ¬ (k < n ∧ s.IsMistaken (a.baseAt k) i value rest)) ∧
          (i'.IsPlain → i'.address? (.integer value :: rest') = some value) := by
  intro a b
  have hplaced : Placed a₀ a := (pass1_settled lines h₀).placed
  have hplain {i : Instruction} {rest : List Operand} {value : Int} (h : i.IsPlain) :
      i.address? (.integer value :: rest) = some value := by
    simp [Instruction.address?, Instruction.target?, h.1]
  by_cases hran : a.phase ≠ .pass1Done ∨ a.errors.hasErrors = true
  · refine ⟨0, fun _ => rfl, fun ha hclean => ?_, ?_⟩
    · simp [ha, hclean] at hran
    · intro k s i value rest hs hb ho
      obtain ⟨line, offset, hparsed⟩ := hplaced.laid.parsed s (List.mem_of_getElem? hs)
      have hi : i.IsPlain := (hparsed.instruction i hb).2
      refine ⟨i, rest, ?_, hi.unplaced, iff_of_true hi (by simp), hplain⟩
      rw [pass2_idle hran, hs, ← ho, ← hb]
  · rw [not_or, not_not, Bool.not_eq_true] at hran
    have hsettings : a.settings.relativeAddressing = true := by
      rw [hplaced.settings, (placed_create h₀).2.2.1, hrel]
    obtain ⟨n, hstatements, hn⟩ := pass2_scans hran.1 hran.2 hsettings hplaced.laid.wellFormed
    refine ⟨n, fun h => ?_, fun _ _ => hn, ?_⟩
    · simp [hran.1, hran.2] at h
    · intro k s i value rest hs hb ho
      obtain ⟨line, offset, hparsed⟩ := hplaced.laid.parsed s (List.mem_of_getElem? hs)
      rw [hstatements, getElem?_scanned n hs]
      split
      · rename_i hk
        obtain ⟨i', hstatement, hunplaced, hiff⟩ := Statement.revise_constant a.symbols (a.baseAt k) hparsed hb ho
        refine ⟨i', rest.map (·.resolve a.symbols), ?_, hunplaced, by simp [hk, hiff], hplain⟩
        rw [hstatement, Statement.resolve_constant a.symbols hb ho]
      · rename_i hk
        have hi : i.IsPlain := (hparsed.instruction i hb).2
        refine ⟨i, rest.map (·.resolve a.symbols), ?_, hi.unplaced, iff_of_true hi (by simp [hk]), hplain⟩
        rw [Statement.resolve_constant a.symbols hb ho, ← hb]

/-- Two numbers with a symbol behind them: the first is in reach and taken for an address, the second is not. -/
theorem pass2_constant_iff_two :
    let lines := ["MAIN    START  0", "        LDA    #5,MAIN", "        LDA    3000,MAIN"]
    ∃ (a₀ : Assembly) (s s' : Statement) (i₁ i₂ : Instruction) (rest₁ rest₂ : List Operand),
      create { relativeAddressing := true } "two.asm" = .ok a₀ ∧
      let a := (pass1 lines).after a₀
      a.statements.drop 1 = [s, s'] ∧ s.operands = [.integer 5, .symbol "MAIN"] ∧
      s'.operands = [.integer 3000, .symbol "MAIN"] ∧
      (pass2.after a).statements[1]? =
        some { s with operands := .integer 5 :: rest₁, body := .instruction i₁ } ∧ ¬ i₁.IsPlain ∧
      (pass2.after a).statements[2]? =
        some { s' with operands := .integer 3000 :: rest₂, body := .instruction i₂ } ∧ i₂.IsPlain ∧
      i₂.address? (.integer 3000 :: rest₂) = some 3000 := by
  intro lines
  obtain ⟨a₀, h₀⟩ : ∃ a₀, create { relativeAddressing := true } "two.asm" = .ok a₀ := ⟨_, rfl⟩
  let i : Instruction :=
    { opcode := ⟨"LDA", [.general], [3, 4], 0⟩, format := 3, flags := { immediate := true, baseMachine := true }
      references := ["MAIN"], mismatch := some "LDA expected (general) but got (integer, symbol)" }
  let i' : Instruction := { i with flags := { baseMachine := true } }
  let s : Statement :=
    { location := ⟨"two.asm", 2, labelColumn⟩, offset := 0, operator := "LDA"
      operands := [.integer 5, .symbol "MAIN"], operandText := "#5,MAIN", body := .instruction i }
  let s' : Statement :=
    { location := ⟨"two.asm", 3, labelColumn⟩, offset := 3, operator := "LDA"
      operands := [.integer 3000, .symbol "MAIN"], operandText := "3000,MAIN", body := .instruction i' }
  have hrun :
      let a : Assembly := (pass1 lines).after a₀
      a.phase = .pass1Done ∧ a.errors.hasErrors = false ∧ (pass2.after a).limitReached = false ∧
        a.statements.length = 3 ∧ a.statements.drop 1 = [s, s'] ∧ a.statements[1]? = some s ∧
        a.statements[2]? = some s' ∧ a.baseAt 2 = none := by
    cases h₀
    decide +kernel
  obtain ⟨hphase, hclean, hlimit, hlength, hdrop, hs, hs', hbase⟩ := hrun
  obtain ⟨n, -, hn, hall⟩ := pass2_constant_iff lines rfl h₀
  have hn : n = 3 := (hn hphase hclean hlimit).trans hlength
  obtain ⟨i₁, rest₁, h₁, -, hiff₁, -⟩ := hall 1 s i 5 [.symbol "MAIN"] hs rfl rfl
  obtain ⟨i₂, rest₂, h₂, -, hiff₂, haddress⟩ := hall 2 s' i' 3000 [.symbol "MAIN"] hs' rfl rfl
  have hplain : i₂.IsPlain := by
    refine hiff₂.mpr ?_
    rintro ⟨-, -, -, hnear | ⟨b, hb, -⟩⟩
    · exact absurd hnear (by decide)
    · rw [hbase] at hb
      cases hb
  refine ⟨a₀, s, s', i₁, i₂, rest₁, rest₂, h₀, hdrop, rfl, rfl, h₁, fun hi => ?_, h₂, hplain, haddress hplain⟩
  exact hiff₁.mp hi ⟨by omega, rfl, ⟨"MAIN", by simp⟩, .inl (by decide)⟩

/-- The constant of `LDA #5,MAIN` is rewritten: the field says how far the address 5 is from the next instruction. -/
theorem exists_displaced_constant :
    ∃ a₀, create { relativeAddressing := true } "<string>" = .ok a₀ ∧
      let a := (pass1 ["MAIN    START  0", "        LDA    #5,MAIN"]).after a₀
      a.statements.map (·.operands) = [[.integer 0], [.integer 5, .symbol "MAIN"]] ∧ pass2.value? a = some true ∧
      ∃ s ∈ (pass2.after a).statements, ∃ i ∈ s.instruction?,
        ¬ i.IsPlain ∧ i.address? s.operands = some 2 ∧ s.code = .ok "012002".toList := by
  obtain ⟨a₀, h₀⟩ : ∃ a₀, create { relativeAddressing := true } "<string>" = .ok a₀ := ⟨_, rfl⟩
  refine ⟨a₀, h₀, ?_⟩
  cases h₀
  decide +kernel

end Assembly

end TwoPass
