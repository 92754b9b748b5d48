import TwoPass.Proofs.Assembly.ErrorLimit

/-!
The choice of displacements is complete. A three-byte instruction that refers to a symbol gets the first of the
three ways to its target that is open, under the base that is in effect at its place. If none is open, there is
one error for it, and the second pass logs nothing else but one error for each `BASE` without a value.
-/

namespace TwoPass

open TwoPass.Action (Ends ends_bind ends_modify)

/-! ## Ways to a target -/

namespace Reach

/-- The target is near enough to the following instruction. -/
def IsNear (next target : Int) : Prop :=
  -2048 ≤ target - next ∧ target - next ≤ 2047

/-- The target is near enough to what the base register holds. -/
def IsBased (base : Option Int) (target : Int) : Prop :=
  ∃ b, base = some b ∧ 0 ≤ target - b ∧ target - b ≤ 4095

/-- The target is a low address. -/
def IsLow (target : Int) : Prop :=
  0 ≤ target ∧ target ≤ 4095

instance (next target : Int) : Decidable (IsNear next target) :=
  inferInstanceAs (Decidable (_ ∧ _))

instance (base : Option Int) (target : Int) : Decidable (IsBased base target) :=
  match base with
  | none => .isFalse (by simp [IsBased])
  | some b => decidable_of_iff (0 ≤ target - b ∧ target - b ≤ 4095) (by simp [IsBased])

instance (target : Int) : Decidable (IsLow target) :=
  inferInstanceAs (Decidable (_ ∧ _))

theorem isPcRange_sub {next target : Int} : isPcRange (target - next) = true ↔ IsNear next target := by
  rw [isPcRange_iff, IsNear]
  omega

theorem isDirectRange_iff_le {n : Int} : isDirectRange n = true ↔ 0 ≤ n ∧ n ≤ 4095 := by
  rw [isDirectRange_iff]
  omega

/-- The four outcomes, in the order in which the ways are tried. -/
theorem choose_cases (next : Int) (base : Option Int) (target : Int) :
    (IsNear next target ∧ choose next base target = .pcRelative (target - next)) ∨
    (¬ IsNear next target ∧ ∃ b, base = some b ∧ 0 ≤ target - b ∧ target - b ≤ 4095 ∧
      choose next base target = .baseRelative (target - b)) ∨
    (¬ IsNear next target ∧ ¬ IsBased base target ∧ IsLow target ∧ choose next base target = .direct) ∨
    (¬ IsNear next target ∧ ¬ IsBased base target ∧ ¬ IsLow target ∧
      choose next base target = .outOfReach) := by
  by_cases hnear : IsNear next target
  · exact .inl ⟨hnear, by simp [choose, isPcRange_sub.mpr hnear]⟩
  · have hfar : isPcRange (target - next) = false := by simpa [← isPcRange_sub] using hnear
    refine .inr ?_
    by_cases hbased : IsBased base target
    · obtain ⟨b, rfl, hmin, hmax⟩ := hbased
      exact .inl ⟨hnear, b, rfl, hmin, hmax, by simp [choose, hfar, isDirectRange_iff_le.mpr ⟨hmin, hmax⟩]⟩
    · -- The base is no help, so only the address itself is left.
      have hrest : choose next base target = if isDirectRange target then .direct else .outOfReach := by
        cases base with
        | none => simp [choose, hfar]
        | some b =>
            have hb : isDirectRange (target - b) = false :=
              Bool.eq_false_iff.mpr fun h => hbased ⟨b, rfl, isDirectRange_iff_le.mp h⟩
            simp [choose, hfar, hb]
      by_cases hlow : IsLow target
      · exact .inr (.inl ⟨hnear, hbased, hlow, by rw [hrest, if_pos (isDirectRange_iff_le.mpr hlow)]⟩)
      · have hhigh : ¬ isDirectRange target = true := fun h => hlow (isDirectRange_iff_le.mp h)
        exact .inr (.inr ⟨hnear, hbased, hlow, by rw [hrest, if_neg hhigh]⟩)

theorem choose_eq_outOfReach_iff {next target : Int} {base : Option Int} :
    choose next base target = .outOfReach ↔ ¬ (IsNear next target ∨ IsBased base target ∨ IsLow target) := by
  rcases choose_cases next base target with
    ⟨hnear, h⟩ | ⟨hnear, b, hb, hmin, hmax, h⟩ | ⟨hnear, hbased, hlow, h⟩ | ⟨hnear, hbased, hlow, h⟩
  · simp [h, hnear]
  · have hbased : IsBased base target := ⟨b, hb, hmin, hmax⟩
    simp [h, hbased]
  · simp [h, hlow]
  · simp [h, hnear, hbased, hlow]

end Reach

open Reach (IsNear IsBased IsLow)

/-! ## Statements -/

theorem Instruction.unplaced_withReach (i : Instruction) (reach : Reach) :
    (i.withReach reach).unplaced = i.unplaced := by
  cases reach <;> rfl

/-- `i'` is `i` with the first of the three ways to its target that is open, where `next` is the address of the
following instruction. -/
structure Instruction.Selected (i : Instruction) (next : Int) (base : Option Int) (target : Int)
    (i' : Instruction) : Prop where
  kept : i'.unplaced = i.unplaced
  pcRelative : i'.flags.pcRelative = true ↔ IsNear next target
  baseRelative : i'.flags.baseRelative = true ↔ ¬ IsNear next target ∧ IsBased base target
  displacement : ∀ d, i'.displacement = some d ↔
    IsNear next target ∧ d = target - next ∨
      ¬ IsNear next target ∧ ∃ b, base = some b ∧ d = target - b ∧ 0 ≤ d ∧ d ≤ 4095

theorem Instruction.unplaced_selected (i : Instruction) {next target : Int} {base : Option Int}
    (hnear : ¬ IsNear next target) (hbased : ¬ IsBased base target) : i.Selected next base target i.unplaced := by
  refine ⟨rfl, by simp [unplaced, hnear], by simp [unplaced, hbased], fun d => ⟨by simp [unplaced], ?_⟩⟩
  rintro (⟨h, -⟩ | ⟨-, b, hb, rfl, hmin, hmax⟩)
  · exact absurd h hnear
  · exact absurd ⟨b, hb, hmin, hmax⟩ hbased

theorem Instruction.withReach_selected (i : Instruction) (next : Int) (base : Option Int) (target : Int) :
    i.Selected next base target (i.withReach (.choose next base target)) := by
  rcases Reach.choose_cases next base target with
    ⟨hnear, h⟩ | ⟨hnear, b, rfl, hmin, hmax, h⟩ | ⟨hnear, hbased, -, h⟩ | ⟨hnear, hbased, -, h⟩
  · rw [h]
    exact ⟨i.unplaced_withReach _, by simp [withReach, hnear], by simp [withReach, unplaced, hnear],
      fun d => by simp [withReach, hnear, eq_comm]⟩
  · have hbased : IsBased (some b) target := ⟨b, rfl, hmin, hmax⟩
    rw [h]
    refine ⟨i.unplaced_withReach _, by simp [withReach, unplaced, hnear], by simp [withReach, hnear, hbased],
      fun d => ?_⟩
    simp only [withReach, Option.some.injEq, hnear, not_false_eq_true, true_and, false_and, false_or,
      exists_eq_left']
    omega
  · rw [h]
    exact i.unplaced_selected hnear hbased
  · rw [h]
    exact i.unplaced_selected hnear hbased

namespace Statement

/-- The target of a three-byte instruction that refers to a symbol, if its first operand is a number where the
symbols are resolved. -/
def reference? (table : SymbolTable) (s : Statement) : Option Int :=
  match s.body, (s.resolve table).operands with
  | .instruction i, .integer target :: _ => if i.format = 3 && !i.references.isEmpty then some target else none
  | _, _ => none

/-- The error for a reference to which no way is open. -/
def reachError? (table : SymbolTable) (base : Option Int) (s : Statement) : Option Diagnostic :=
  (s.reference? table).bind fun target =>
    if IsNear (s.offset + 3) target ∨ IsBased base target ∨ IsLow target then none
    else some { cause := .outOfReach s.mnemonic target, location := some s.location }

/-- The name of a `BASE` that is neither a number nor defined. -/
def undefinedBase? (table : SymbolTable) (s : Statement) : Option String :=
  match s.body, s.operands with
  | .directive .base _, .register name :: _ | .directive .base _, .symbol name :: _ =>
    if name ∈ table.names then none else some name
  | _, _ => none

/-- The one thing that the choice of displacements can find wrong with a statement. -/
def selectionError? (table : SymbolTable) (file : String) (base : Option Int) (s : Statement) :
    Option Diagnostic :=
  (s.reachError? table base).or ((s.undefinedBase? table).map (unresolved table file s.line))

variable {s : Statement} {table : SymbolTable} {file : String} {base : Option Int} {target : Int}

theorem reference?_eq_some (h : s.reference? table = some target) :
    ∃ i rest, s.body = .instruction i ∧ i.format = 3 ∧ (s.resolve table).operands = .integer target :: rest ∧
      (s.resolve table).isRelocatable = true := by
  unfold reference? at h
  split at h
  · rename_i i _ rest hb ho
    split at h
    · rename_i href
      cases h
      refine ⟨i, rest, hb, by simp_all, ho, ?_⟩
      simp only [isRelocatable, s.resolve_body, hb, ho]
      exact href
    · cases h
  · cases h

theorem reference?_of_operands {i : Instruction} {rest : List Operand} (hb : s.body = .instruction i)
    (hf : i.format = 3) (href : i.references ≠ []) (ho : (s.resolve table).operands = .integer target :: rest) :
    s.reference? table = some target := by
  simp [reference?, hb, ho, hf, href]

theorem isRelocatable_of_reference? (h : s.reference? table = none) :
    (s.resolve table).isRelocatable = false := by
  unfold reference? at h
  unfold isRelocatable
  rw [s.resolve_body]
  cases hb : s.body with
  | instruction i =>
      cases ho : (s.resolve table).operands with
      | nil => rfl
      | cons o rest =>
          cases o with
          | integer target =>
              rw [hb, ho] at h
              simpa using h
          | _ => rfl
  | _ => rfl

/-- What becomes of a reference. -/
theorem revise_reference {i : Instruction} (h : s.reference? table = some target) (hb : s.body = .instruction i) :
    ((s.resolve table).revise table file base).1.statement =
        { s.resolve table with body := .instruction (i.withReach (.choose (s.offset + 3) base target)) } ∧
      ((s.resolve table).revise table file base).1.problem = (s.reachError? table base).map .diagnostic := by
  obtain ⟨i', rest, hb', hf, ho, hr⟩ := reference?_eq_some h
  cases hb.symm.trans hb'
  have hbody : (s.resolve table).body = .instruction i := (s.resolve_body table).trans hb
  have hsize : i.size = .ok 3 := Instruction.size_of_format (by rw [hf]; rfl)
  have hoffset : (s.resolve table).offset + ((3 : Nat) : Int) = s.offset + 3 := by
    rw [(Revised.resolve s table).offset]
    rfl
  rw [revise_instruction hbody hr]
  simp only [relocate, hbody, hsize, ho, Instruction.target?, hoffset, reachError?, h, Option.bind_some]
  refine ⟨trivial, ?_⟩
  have hmnemonic : (s.resolve table).mnemonic = s.mnemonic := by
    rw [mnemonic, (Revised.resolve s table).frame, mnemonic]
  have hlocation : (s.resolve table).location = s.location := by rw [(Revised.resolve s table).frame]
  by_cases hopen : IsNear (s.offset + 3) target ∨ IsBased base target ∨ IsLow target
  · rw [if_neg (by rw [Reach.choose_eq_outOfReach_iff, not_not]; exact hopen), if_pos hopen]
    rfl
  · rw [if_pos (Reach.choose_eq_outOfReach_iff.mpr hopen), if_neg hopen, hmnemonic, hlocation]
    rfl

theorem revise_other (h : s.reference? table = none) :
    ((s.resolve table).revise table file base).1.statement = s.resolve table := by
  unfold revise
  split
  · split <;> rfl
  · rfl
  · rw [isRelocatable_of_reference? h]
    rfl

theorem undefinedBase?_eq_none (h : s.instruction?.isSome = true) : s.undefinedBase? table = none := by
  unfold undefinedBase?
  split
  · rename_i hb _
    simp [instruction?, hb] at h
  · rename_i hb _
    simp [instruction?, hb] at h
  · rfl

theorem address?_eq_none_iff {name : String} : table.address? name = none ↔ name ∉ table.names := by
  rw [SymbolTable.address?, Option.map_eq_none_iff, SymbolTable.find?_eq_none]

/-- A `BASE` has a value, or its name is not defined. -/
theorem newBase?_cases (table : SymbolTable) {value : Nat} (hw : s.WellFormed)
    (hb : s.body = .directive .base value) :
    (∃ n, baseValue? table s.operands = some n ∧ s.undefinedBase? table = none) ∨
      ∃ name, baseValue? table s.operands = none ∧ s.undefinedBase? table = some name ∧
        baseName s.operands = name := by
  simp only [WellFormed, hb] at hw
  obtain ⟨o, ho, haddress⟩ := hw
  have hname (name : String) : (∃ n, table.address? name = some n ∧ name ∈ table.names) ∨
      table.address? name = none ∧ name ∉ table.names := by
    cases ha : table.address? name with
    | none => exact .inr ⟨rfl, address?_eq_none_iff.mp ha⟩
    | some n =>
        refine .inl ⟨n, rfl, ?_⟩
        by_contra hn
        rw [address?_eq_none_iff.mpr hn] at ha
        cases ha
  cases o with
  | integer n => exact .inl ⟨n, by rw [ho]; rfl, by simp [undefinedBase?, hb, ho]⟩
  | register name | symbol name =>
      simp only [undefinedBase?, hb, ho, baseValue?, baseName]
      rcases hname name with ⟨n, hn, hmem⟩ | ⟨hn, hmem⟩
      · exact .inl ⟨n, hn, by rw [if_pos hmem]⟩
      · exact .inr ⟨name, hn, by rw [if_neg hmem], rfl⟩
  | characters bytes => exact haddress.elim
  | hexadecimal value => exact haddress.elim

/-- Behind a `BASE` whose name is not defined, no base is in effect. -/
theorem newBase?_of_undefinedBase? {name : String} (hw : s.WellFormed) (h : s.undefinedBase? table = some name) :
    s.isBaseChange = true ∧ s.newBase? table = none := by
  cases hb : s.body with
  | directive d value =>
      cases d with
      | base =>
          rcases newBase?_cases table hw hb with ⟨-, -, hnone⟩ | ⟨-, hnone, -⟩
          · rw [hnone] at h
            cases h
          · simp [isBaseChange, newBase?, hb, hnone]
      | _ => simp [undefinedBase?, hb] at h
  | _ => simp [undefinedBase?, hb] at h

theorem unresolvedErrors_eq_nil (h : s.instruction?.isSome = true → ∀ name, .symbol name ∈ s.operands →
    name ∈ table.names) : s.unresolvedErrors table = [] := by
  cases hb : s.body with
  | instruction i =>
      simp only [unresolvedErrors, hb, List.filterMap_eq_nil_iff, List.mem_filterMap]
      rintro name ⟨o, ho, hname⟩
      cases o with
      | symbol other =>
          cases hname
          have hmem := h (by simp [instruction?, hb]) name ho
          cases ha : table.address? name with
          | some address => rfl
          | none => exact absurd hmem (address?_eq_none_iff.mp ha)
      | _ => cases hname
  | _ => simp only [unresolvedErrors, hb]

/-- What is wrong with a statement, if anything, is the error that is expected of it. -/
theorem revise_problem (hw : s.WellFormed) :
    ((s.resolve table).revise table file base).1.problem =
      (s.selectionError? table file base).map .diagnostic := by
  cases hr : s.reference? table with
  | some target =>
      obtain ⟨i, -, hb, -⟩ := reference?_eq_some hr
      have hnone : s.undefinedBase? table = none := undefinedBase?_eq_none (by simp [instruction?, hb])
      rw [(revise_reference hr hb).2, selectionError?, hnone, Option.map_none, Option.or_none]
  | none =>
      have hrelocatable := isRelocatable_of_reference? hr
      rw [selectionError?, reachError?, hr, Option.bind_none, Option.none_or]
      cases hb : s.body with
      | instruction i =>
          rw [undefinedBase?_eq_none (by simp [instruction?, hb])]
          simp [revise, s.resolve_body, hb, hrelocatable]
      | remark => simp [revise, s.resolve_body, hb, hrelocatable, undefinedBase?]
      | directive d value =>
          have hself : s.resolve table = s := by simp only [resolve, hb]
          rw [hself] at hrelocatable ⊢
          cases d with
          | base =>
              rcases newBase?_cases table hw hb with ⟨n, hn, hu⟩ | ⟨name, hn, hu, hname⟩
              · simp [revise, hb, hn, hu]
              · simp [revise, hb, hn, hu, baseError, hname]
          | _ => simp [revise, hb, hrelocatable, undefinedBase?]

end Statement

/-! ## The pass -/

/-- The error that a revision has found. -/
def Revision.error? (r : Revision) : Option Diagnostic :=
  match r.problem with
  | some (.diagnostic d) => some d
  | _ => none

namespace Assembly

variable {a b : Assembly}

/-- The base that is in effect at a statement. -/
def baseAt (a : Assembly) (k : Nat) : Option Int :=
  baseIn a.symbols (a.statements.take k)

/-- The assembly with other statements, and with further errors in its log. -/
def amended (a : Assembly) (statements : List Statement) (new : List Diagnostic) (journal : List JournalEntry) :
    Assembly :=
  { a with statements, errors := { a.errors with errors := a.errors.errors ++ new }, journal }

/-- All revisions are written and their errors logged in order, unless the log is full. -/
theorem commit_amends (rs : List Revision) {done old : List Statement} {a : Assembly}
    (ha : a.statements = done ++ old) (hlen : old.length = rs.length)
    (hrs : ∀ r ∈ rs, ∀ fault, r.problem ≠ some (.fault fault)) :
    Ends (commit done.length rs) a
      (fun _ b => ∃ journal, b = a.amended (done ++ rs.map (·.statement)) (rs.filterMap (·.error?)) journal)
      Stopped := by
  -- `done` has been revised and `old` has not, so the next revision goes behind `done`.
  induction rs generalizing done old a with
  | nil =>
      obtain rfl := List.eq_nil_of_length_eq_zero hlen
      exact ⟨a.journal, by simp [amended, ← ha]⟩
  | cons r rest ih =>
      obtain ⟨s, old, rfl⟩ := List.exists_cons_of_length_eq_add_one hlen
      have hset : a.statements.set done.length r.statement = (done ++ [r.statement]) ++ old := by simp [ha]
      have hlength : done.length + 1 = (done ++ [r.statement]).length := by simp
      have hfaults : ∀ r' ∈ rest, ∀ fault, r'.problem ≠ some (.fault fault) := fun r' hr' =>
        hrs r' (List.mem_cons_of_mem r hr')
      have hlen' : old.length = rest.length := by simpa using hlen
      rw [commit, ends_bind, ends_modify, hset, hlength]
      cases hp : r.problem with
      | none =>
          refine (ih rfl hlen' hfaults).imp ?_
          rintro _ b ⟨journal, rfl⟩
          exact ⟨journal, by simp [amended, Revision.error?, hp]⟩
      | some problem =>
          cases problem with
          | fault fault => exact absurd hp (hrs r List.mem_cons_self fault)
          | diagnostic d =>
              dsimp only
              refine Ends.bind (Q := fun _ b => ∃ journal, b = a.amended (done ++ [r.statement] ++ old) [d] journal)
                (Ends.imp_error (report_ends fun journal => ⟨journal, rfl⟩) fun _ _ h => h.2) ?_
              rintro _ _ ⟨journal, rfl⟩
              refine (ih rfl hlen' hfaults).imp ?_
              rintro _ c ⟨journal', rfl⟩
              exact ⟨journal', by simp [amended, Revision.error?, hp]⟩

theorem plan_eq (a : Assembly) : a.plan = a.statements.zipIdx.map fun p =>
    ((p.1.resolve a.symbols).revise a.symbols a.file (a.baseAt p.2)).1 := by
  refine List.ext_getElem? fun k => ?_
  rw [List.getElem?_map, List.getElem?_zipIdx]
  cases hs : a.statements[k]? with
  | none =>
      rw [List.getElem?_eq_none_iff, ← length_plan, ← List.getElem?_eq_none_iff] at hs
      rw [hs]
      rfl
  | some s =>
      obtain ⟨left, right, rfl, hplan⟩ := plan_split hs
      rw [hplan]
      simp [baseAt]

/-- What the choice of displacements is expected to log, in the order of the statements. -/
def selectionErrors (a : Assembly) : List Diagnostic :=
  a.statements.zipIdx.filterMap fun p => p.1.selectionError? a.symbols a.file (a.baseAt p.2)

theorem plan_errors (hw : ∀ s ∈ a.statements, s.WellFormed) :
    a.plan.filterMap (·.error?) = a.selectionErrors ∧
      ∀ r ∈ a.plan, ∀ fault, r.problem ≠ some (.fault fault) := by
  have hproblem : ∀ p ∈ a.statements.zipIdx,
      ((p.1.resolve a.symbols).revise a.symbols a.file (a.baseAt p.2)).1.problem =
        (p.1.selectionError? a.symbols a.file (a.baseAt p.2)).map .diagnostic := fun p hp =>
    Statement.revise_problem (hw p.1 (List.fst_mem_of_mem_zipIdx hp))
  rw [plan_eq, selectionErrors]
  constructor
  · rw [List.filterMap_map]
    refine List.filterMap_congr fun p hp => ?_
    simp only [Function.comp, Revision.error?, hproblem p hp]
    cases p.1.selectionError? a.symbols a.file (a.baseAt p.2) <;> rfl
  · intro r hr fault hfault
    obtain ⟨p, hp, rfl⟩ := List.mem_map.mp hr
    rw [hproblem p hp] at hfault
    cases h : p.1.selectionError? a.symbols a.file (a.baseAt p.2) <;> simp [h] at hfault

theorem resolveAll_amends (hrel : a.settings.relativeAddressing = true)
    (hu : ∀ s ∈ a.statements, s.unresolvedErrors a.symbols = []) (hw : ∀ s ∈ a.statements, s.WellFormed) :
    Ends resolveAll a
      (fun _ b => ∃ journal, b = a.amended (a.plan.map (·.statement)) a.selectionErrors journal) Stopped := by
  have hnone : a.statements.flatMap (·.unresolvedErrors a.symbols) = [] := List.flatMap_eq_nil_iff.mpr hu
  obtain ⟨herrors, hfaults⟩ := plan_errors hw
  rw [Ends, resolveAll_run, ← Ends, hnone, if_pos hrel]
  have hcommit := commit_amends a.plan (a := { a with statements := a.statements.map (·.resolve a.symbols) })
    (List.nil_append _).symm (by simp [length_plan]) hfaults
  rw [herrors] at hcommit
  exact hcommit

/-- A pass whose log is not full has written all revisions and logged all that is wrong. -/
theorem pass2_amends (ha : a.phase = .pass1Done) (hclean : a.errors.hasErrors = false)
    (hrel : a.settings.relativeAddressing = true)
    (hu : ∀ s ∈ a.statements, s.unresolvedErrors a.symbols = []) (hw : ∀ s ∈ a.statements, s.WellFormed)
    (hlimit : (pass2.after a).limitReached = false) :
    ∃ ok b, pass2 a = .ok ok b ∧ ok = b.errors.errors.isEmpty ∧ b.errors.errors = a.selectionErrors ∧
      b.statements = a.plan.map (·.statement) := by
  have hall := resolveAll_amends (a := { a with phase := .pass2Running }) hrel hu hw
  rcases (pass2_runs ha hclean).cases with
    ⟨ok, b, hrun, hok, warnings, journal, rfl⟩ | ⟨failure, b, -, hb, fault, rfl⟩
  · rw [Action.after, hrun] at hlimit
    refine ⟨ok, _, hrun, by rw [hok, ErrorLog.hasErrors, Bool.not_not], ?_⟩
    rcases hall.cases with ⟨_, c, hc, journal', rfl⟩ | ⟨failure, c, hc, hstopped⟩
    · rw [Action.after, hc]
      rw [ErrorLog.hasErrors, Bool.not_eq_false', List.isEmpty_iff] at hclean
      refine ⟨?_, rfl⟩
      change a.errors.errors ++ a.selectionErrors = _
      rw [hclean, List.nil_append]
    · -- Only a full log stops the revisions.
      rw [Action.after, hc] at hlimit
      have hreached := hstopped.reached
      rw [show c.limitReached = false from hlimit] at hreached
      cases hreached
  · cases (hall.of_error hb).overflow

/-- The second pass, where the first one has found no error, all names in instructions are defined and the error
limit is not reached. -/
theorem pass2_selects {settings : Settings} {file : String} {lines : List String} {a₀ : Assembly}
    (hrel : settings.relativeAddressing = true) (h₀ : create settings file = .ok a₀)
    (h₁ : pass1 lines a₀ = .ok true a)
    (hdefined : ∀ s ∈ a.statements, s.instruction?.isSome = true → ∀ name, .symbol name ∈ s.operands →
      name ∈ a.symbols.names)
    (hlimit : (pass2.after a).limitReached = false) :
    let b := pass2.after a
    pass2 a = .ok b.errors.errors.isEmpty b ∧ b.errors.errors = a.selectionErrors ∧
    (∀ (k : Nat) (s : Statement) (i : Instruction) (target : Int) (rest : List Operand),
      a.statements[k]? = some s → s.body = .instruction i → i.format = 3 → i.references ≠ [] →
      (s.resolve a.symbols).operands = .integer target :: rest →
      ∃ i', b.statements[k]? = some { s.resolve a.symbols with body := .instruction i' } ∧
        i.Selected (s.offset + 3) (a.baseAt k) target i') ∧
    (∀ (k : Nat) (s : Statement), a.statements[k]? = some s → s.reference? a.symbols = none →
      b.statements[k]? = some (s.resolve a.symbols)) ∧
    ∀ (k : Nat) (s : Statement), a.statements[k]? = some s → s.undefinedBase? a.symbols ≠ none →
      a.baseAt (k + 1) = none := by
  intro b
  obtain ⟨hp₀, hi₀, hsettings, -⟩ := placed_create h₀
  have hplaced : Placed a₀ a := ((pass1_ends lines hp₀ hi₀).of_ok h₁).1.placed
  obtain ⟨placed, new, hgrown⟩ := (pass1_fresh lines (create_fresh h₀).1).of_ok h₁
  have hclean : a.errors.hasErrors = false := by
    obtain ⟨hok, -⟩ := (pass1_runs lines (create_fresh h₀).1).of_ok h₁
    simpa using hok.symm
  have hwell := hplaced.laid.wellFormed
  obtain ⟨ok, c, hrun, hok, herrors, hstatements⟩ := pass2_amends hgrown.phase hclean
    (by rw [hplaced.settings, hsettings, hrel])
    (fun s hs => Statement.unresolvedErrors_eq_nil (hdefined s hs)) hwell hlimit
  have hb : b = c := by
    change pass2.after a = c
    rw [Action.after, hrun]
  have hplan (k : Nat) (s : Statement) (hs : a.statements[k]? = some s) : b.statements[k]? =
      some ((s.resolve a.symbols).revise a.symbols a.file (a.baseAt k)).1.statement := by
    rw [hb, hstatements, plan_eq]
    simp [hs]
  refine ⟨by rw [hb, hrun, hok], by rw [hb, herrors], ?_, ?_, ?_⟩
  · intro k s i target rest hs hi hf href ho
    have hr := Statement.reference?_of_operands hi hf href ho
    exact ⟨_, by rw [hplan k s hs, (Statement.revise_reference hr hi).1], i.withReach_selected _ _ _⟩
  · intro k s hs hr
    rw [hplan k s hs, Statement.revise_other hr]
  · intro k s hs hundefined
    obtain ⟨name, hname⟩ := Option.ne_none_iff_exists'.mp hundefined
    obtain ⟨hchange, hnone⟩ := Statement.newBase?_of_undefinedBase? (hwell s (List.mem_of_getElem? hs)) hname
    rw [baseAt, List.take_add_one, hs, Option.toList_some, baseIn_snoc, hchange, if_pos rfl, hnone]

/-- Each of the three ways, a `BASE` without a value, and a reference that has no way left behind it. -/
theorem pass2_selects_ways :
    let lines := ["LOW     START  0", "P       START  3000", "        LDA    NEAR", "        BASE   FAR",
      "        LDA    FAR", "        LDA    LOW,X", "        BASE   NIL", "        LDA    FAR",
      "NEAR    RESB   4096", "FAR     WORD   5"]
    ∃ (a₀ a : Assembly) (s : Statement) (i i' : Instruction),
      create { relativeAddressing := true } "ways.asm" = .ok a₀ ∧ pass1 lines a₀ = .ok true a ∧
      (∀ s ∈ a.statements, s.instruction?.isSome = true → ∀ name, .symbol name ∈ s.operands →
        name ∈ a.symbols.names) ∧
      (pass2.after a).limitReached = false ∧ pass2 a = .ok false (pass2.after a) ∧
      (pass2.after a).errors.errors = a.selectionErrors ∧
      a.selectionErrors.map (·.code) = [some Catalogue.unresolvedSymbol, some Catalogue.outOfReach] ∧
      (pass2.after a).statements[4]? = some { s.resolve a.symbols with body := .instruction i' } ∧
      i.Selected 0x3006 (a.baseAt 4) 0x400C i' ∧ i'.displacement = some 0 ∧
      (pass2.after a).statements[5]?.map (·.code) = some (.ok "008000".toList) ∧ a.baseAt 7 = none := by
  intro lines
  obtain ⟨a₀, h₀⟩ : ∃ a₀, create { relativeAddressing := true } "ways.asm" = .ok a₀ := ⟨_, rfl⟩
  obtain ⟨s, i, hb, hf, href, hoffset, hrun⟩ : ∃ (s : Statement) (i : Instruction), s.body = .instruction i ∧
      i.format = 3 ∧ i.references ≠ [] ∧ s.offset = 0x3003 ∧
      let a : Assembly := (pass1 lines).after a₀
      let b : Assembly := pass2.after a
      (pass1 lines).value? a₀ = some true ∧ a.statements[4]? = some s ∧
      (s.resolve a.symbols).operands = [.integer 0x400C] ∧ a.baseAt 4 = some 0x400C ∧
      (∀ s ∈ a.statements, s.instruction?.isSome = true → ∀ o ∈ s.operands, ∀ name ∈ o.symbolName?,
        name ∈ a.symbols.names) ∧
      b.limitReached = false ∧ b.errors.errors.isEmpty = false ∧
      a.selectionErrors.map (·.code) = [some 9, some 11] ∧
      (a.statements[6]?.bind (·.undefinedBase? a.symbols)).isSome = true ∧
      b.statements[5]?.map (·.code) = some (.ok "008000".toList) := by
    refine ⟨{ location := ⟨"ways.asm", 5, labelColumn⟩, offset := 0x3003, operator := "LDA"
              operands := [.symbol "FAR"], operandText := "FAR", body := .instruction _ },
      { opcode := ⟨"LDA", [.general], [3, 4], 0⟩, format := 3, flags := { baseMachine := true }
        references := ["FAR"] }, rfl, rfl, by decide, rfl, ?_⟩
    cases h₀
    decide +kernel
  obtain ⟨h₁, hs, ho, hbase, hnames, hlimit, hany, hcodes, hundefined, hdirect⟩ := hrun
  have h₁ := Action.eq_ok_of_value? h₁
  have hdefined : ∀ s ∈ ((pass1 lines).after a₀).statements, s.instruction?.isSome = true →
      ∀ name, .symbol name ∈ s.operands → name ∈ ((pass1 lines).after a₀).symbols.names :=
    fun s hs hi name ho => hnames s hs hi _ ho name rfl
  obtain ⟨hpass, herrors, hselected, -, hnone⟩ := pass2_selects rfl h₀ h₁ hdefined hlimit
  obtain ⟨i', hs', hi'⟩ := hselected 4 s i 0x400C [] hs hb hf href ho
  obtain ⟨name, hname⟩ := Option.isSome_iff_exists.mp hundefined
  obtain ⟨t, ht, hname⟩ := Option.bind_eq_some_iff.mp hname
  rw [hany] at hpass
  rw [hoffset] at hi'
  refine ⟨a₀, _, s, i, i', h₀, h₁, hdefined, hlimit, hpass, herrors, hcodes, hs', hi', ?_, hdirect,
    hnone 6 t ht (by simp [hname])⟩
  exact (hi'.displacement 0).mpr (.inr ⟨by decide, 0x400C, hbase, by decide, by decide, by decide⟩)

end Assembly

end TwoPass
