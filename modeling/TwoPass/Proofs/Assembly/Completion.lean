import TwoPass.Proofs.Assembly.Relative

/-!
Runs without errors. A second pass that finds nothing wrong puts an address for every symbol of an
instruction and may choose how the instruction reaches it; every other statement stays as it was placed.
What the object program is made of is therefore known from the first pass.
-/

namespace TwoPass

/-! ## Statements -/

namespace Statement

/-- `s'` is `s` with its symbols resolved and, if it is an instruction, with a reach. -/
structure Completed (table : SymbolTable) (s s' : Statement) : Prop where
  frame : s'.toFrame = (s.resolve table).toFrame
  body : s'.body = s.body ∨
    ∃ i reach, s.body = .instruction i ∧ s'.body = .instruction (i.withReach reach)

namespace Completed

variable {table : SymbolTable} {s s' : Statement}

theorem resolve (table : SymbolTable) (s : Statement) : Completed table s (s.resolve table) :=
  ⟨rfl, .inl (s.resolve_body table)⟩

theorem relocate (table : SymbolTable) (s : Statement) (base : Option Int) :
    Completed table s ((s.resolve table).relocate base).statement := by
  rcases (s.resolve table).relocate_cases base with he | ⟨i, reach, hb, he⟩
  · rw [he]; exact resolve table s
  · rw [resolve_body] at hb
    rw [he]
    exact ⟨rfl, .inr ⟨i, reach, hb, rfl⟩⟩

theorem revise (table : SymbolTable) (s : Statement) (file : String) (base : Option Int) :
    Completed table s ((s.resolve table).revise table file base).1.statement := by
  unfold Statement.revise
  split
  · split <;> exact resolve table s
  · exact resolve table s
  · dsimp only
    split
    · exact relocate table s base
    · exact resolve table s

theorem revised (h : Completed table s s') : Revised s s' := by
  obtain ⟨frame, body⟩ := s'
  obtain ⟨hframe, hbody⟩ := h
  dsimp only at hframe
  subst hframe
  rcases hbody with rfl | ⟨i, reach, hi, rfl⟩
  · have hs : (⟨(s.resolve table).toFrame, s.body⟩ : Statement) = s.resolve table := by
      rw [← s.resolve_body table]
    rw [hs]
    exact .resolve s table
  · exact (Revised.resolve s table).trans (.withReach ((s.resolve_body table).trans hi) reach)

theorem operands (h : Completed table s s') : s'.operands = (s.resolve table).operands := by rw [h.frame]

theorem label (h : Completed table s s') : s'.label = s.label := by rw [h.revised.frame]

theorem isStart (h : Completed table s s') : s'.isStart = s.isStart := by
  rcases h.body with hb | ⟨i, reach, hi, hb⟩
  · simp only [Statement.isStart, hb]
  · simp only [Statement.isStart, hi, hb]

/-- Only instructions are touched. -/
theorem eq_self (h : Completed table s s') (hs : s.instruction? = none) : s' = s := by
  have hr : s.resolve table = s := by
    cases hb : s.body with
    | instruction i => simp [instruction?, hb] at hs
    | _ => simp only [Statement.resolve, hb]
  have hb : s'.body = s.body := by
    rcases h.body with hb | ⟨i, reach, hi, -⟩
    · exact hb
    · simp [instruction?, hi] at hs
  have hframe := h.frame
  rw [hr] at hframe
  cases s
  cases s'
  simp_all

end Completed

theorem exists_address {s : Statement} {table : SymbolTable} {name : String}
    (hs : s.instruction?.isSome = true) (hu : s.unresolvedErrors table = [])
    (ho : .symbol name ∈ s.operands) : ∃ address, table.address? name = some address := by
  cases hb : s.body with
  | instruction i =>
      simp only [unresolvedErrors, hb] at hu
      rw [List.filterMap_eq_nil_iff] at hu
      have hname := hu name (List.mem_filterMap.mpr ⟨_, ho, rfl⟩)
      cases ha : table.address? name with
      | some address => exact ⟨address, rfl⟩
      | none => simp [ha] at hname
  | _ => simp [instruction?, hb] at hs

end Statement

theorem revisions_completed (table : SymbolTable) (file : String) : (base : Option Int) →
    (l : List Statement) →
    List.Forall₂ (fun s r => Statement.Completed table s r.statement) l
      (revisions table file base (l.map (·.resolve table)))
  | _, [] => .nil
  | base, s :: rest =>
      .cons (.revise table s file base)
        (revisions_completed table file ((s.resolve table).revise table file base).2 rest)

/-! ## Assemblies -/

namespace Assembly

theorem Resolved.completed {a b : Assembly} (h : Resolved a b) :
    List.Forall₂ (Statement.Completed a.symbols) a.statements b.statements := by
  cases hrel : a.settings.relativeAddressing with
  | false =>
      rw [h.plain hrel]
      exact List.forall₂_map_right_iff.mpr (List.forall₂_same.mpr fun s _ => .resolve a.symbols s)
  | true =>
      rw [(h.plan hrel).1]
      exact List.forall₂_map_right_iff.mpr (revisions_completed a.symbols a.file none a.statements)

/-- The way from the end of a first pass, `a`, to the object program `p` that `b` holds. -/
structure Complete (a : Assembly) (p : ObjectProgram) (b : Assembly) : Prop where
  clean : a.errors.hasErrors = false
  unresolved : ∀ s ∈ a.statements, s.unresolvedErrors a.symbols = []
  statements : List.Forall₂ (Statement.Completed a.symbols) a.statements b.statements
  build : ObjectProgram.build b.limit b.statements b.name b.start b.length = .ok p
  object : b.object = some p
  pc : b.pc = a.pc
  start : b.start = a.start

/-- Journals may be taken away between the steps. -/
theorem Passed.complete {a b c : Assembly} {p : ObjectProgram} {j k l : List JournalEntry}
    (h : Passed { a with journal := j } true b) (hm : Made { b with journal := k } p c) :
    Complete a p { c with journal := l } := by
  obtain ⟨hclean, hresolved⟩ := h.resolved rfl
  have hb := h.reworked.kept
  have hc := hm.kept
  refine ⟨hclean, hresolved.unresolved, ?_, ?_, ?_, ?_, ?_⟩
  · rw [hc]; exact hresolved.completed
  · rw [hc]; exact hm.build
  · rw [hc]
  · rw [hc, hb]
  · rw [hc, hb]

variable {a₀ a b : Assembly} {p : ObjectProgram}

theorem Complete.wellFormed (h : Complete a p b) (hs : Settled a₀ a) : ∀ s ∈ b.statements, s.WellFormed :=
  Statement.wellFormed_of_revised (h.statements.imp fun _ _ hc => hc.revised) hs.placed.laid.wellFormed

end Assembly

end TwoPass
