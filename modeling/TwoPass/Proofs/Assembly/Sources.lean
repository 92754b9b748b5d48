import TwoPass.Proofs.Assembly.Calls

/-!
Lines may be placed by themselves in every phase, also after the second pass, which is the only one to resolve
symbols. An object program is therefore made of the statements that the second pass has resolved and of those
that have come since, in which symbols are coded as zero.
-/

namespace TwoPass

/-! ## Symbols in instructions -/

/-- An instruction one of whose operands is still a symbol. -/
def Statement.isSymbolic (s : Statement) : Bool :=
  s.instruction?.isSome && s.operands.any (·.isSymbol)

theorem Statement.Completed.not_isSymbolic {table : SymbolTable} {s s' : Statement} (h : Completed table s s')
    (hu : s.unresolvedErrors table = []) : s'.isSymbolic = false := by
  cases hb : s.body with
  | instruction i =>
      have hi : s.instruction?.isSome = true := by rw [instruction?, hb]; rfl
      have hoperands : s'.operands.any (·.isSymbol) = false := by
        rw [h.operands, Statement.resolve, hb, List.any_eq_false]
        intro o' ho'
        obtain ⟨o, ho, rfl⟩ := List.mem_map.mp ho'
        cases o with
        | symbol name =>
            obtain ⟨address, ha⟩ := exists_address hi hu ho
            simp [Operand.resolve, ha, Operand.isSymbol]
        | _ => simp [Operand.resolve, Operand.isSymbol]
      rw [isSymbolic, hoperands, Bool.and_false]
  | _ =>
      have hi : s.instruction? = none := by rw [instruction?, hb]
      rw [h.eq_self hi, isSymbolic, hi]
      rfl

/-- A symbol read as the address zero. -/
def Operand.zeroed : Operand → Operand
  | .symbol _ => .integer 0
  | o => o

theorem Instruction.nibble_zeroed (use : RegisterUse) (o : Operand) : nibble use o.zeroed = nibble use o := by
  cases o <;> rfl

theorem Instruction.nibbles_zeroed : (operands : List Operand) →
    nibbles (operands.map (·.zeroed)) = nibbles operands
  | [] => rfl
  | [first] => by simp only [nibbles, List.map_cons, List.map_nil, nibble_zeroed]
  | first :: second :: rest => by simp only [nibbles, List.map_cons, nibble_zeroed]

theorem Instruction.target?_zeroed (operands : List Operand) :
    target? (operands.map (·.zeroed)) = target? operands := by
  cases operands with
  | nil => rfl
  | cons o rest => cases o <;> rfl

/-- Symbols that nobody has resolved are coded as zero. -/
theorem Instruction.code_zeroed (i : Instruction) (operands : List Operand) :
    i.code (operands.map (·.zeroed)) = i.code operands := by
  simp only [code, address?, nibbles_zeroed, target?_zeroed]

namespace Assembly

variable {a b : Assembly}

/-! ## Lines that come late -/

theorem Resolved.not_isSymbolic (h : Resolved a b) : ∀ s ∈ b.statements, s.isSymbolic = false :=
  Statement.forall_mem_of_forall₂ h.completed h.unresolved fun _ _ hs hc => hc.not_isSymbolic hs

/-- Where the statements come from once the second pass is over: those that it found have been resolved, and
the others have been placed by themselves since. -/
structure Sources (a₀ : Assembly) (calls : List Call) (a : Assembly) (before later : List Call)
    (late : List Statement) : Prop where
  calls : calls = before ++ .pass2 :: later
  done : (run (before ++ [.pass2]) a₀).phase = .pass2Done
  resolved : ∀ s ∈ (run (before ++ [.pass2]) a₀).statements, s.isSymbolic = false
  statements : a.statements = (run (before ++ [.pass2]) a₀).statements ++ late
  late : ∀ s ∈ late, ∃ lines, Call.parseLines lines ∈ later ∧ (Scope.lines a₀.file 1 lines).places s

theorem Sources.step {a₀ : Assembly} {calls before later : List Call} {late : List Statement} {c : Call}
    (h : Sources a₀ calls a before later late) {more : List Statement}
    (hb : b.statements = a.statements ++ more)
    (hmore : ∀ s ∈ more, ∃ lines, c = .parseLines lines ∧ (Scope.lines a₀.file 1 lines).places s) :
    Sources a₀ (calls ++ [c]) b before (later ++ [c]) (late ++ more) := by
  refine ⟨by rw [h.calls, List.append_assoc, List.cons_append], h.done, h.resolved, ?_, fun s hs => ?_⟩
  · rw [hb, h.statements, List.append_assoc]
  · rcases List.mem_append.mp hs with hs | hs
    · obtain ⟨lines, hl, hp⟩ := h.late s hs
      exact ⟨lines, List.mem_append_left _ hl, hp⟩
    · obtain ⟨lines, rfl, hp⟩ := hmore s hs
      exact ⟨lines, by simp, hp⟩

theorem exists_sources {a₀ : Assembly} (h₀ : a₀.phase = .fresh) (calls : List Call)
    (hr : (run calls a₀).isResolved = true) (he : (run calls a₀).errors.hasErrors = false) :
    ∃ before later late, Sources a₀ calls (run calls a₀) before later late := by
  refine run_induct (P := fun calls b => b.isResolved = true → b.errors.hasErrors = false →
    ∃ before later late, Sources a₀ calls b before later late) ?_ ?_ calls hr he
  · intro hr
    simp [isResolved, h₀] at hr
  intro calls c b hrun h ih hr he
  cases h with
  | refused journal =>
      obtain ⟨before, later, late, hs⟩ := ih hr he
      exact ⟨before, _, _, hs.step (List.append_nil _).symm (by simp)⟩
  | @lines lines _ placed new hg =>
      have hclean : (run calls a₀).errors.hasErrors = false := by
        simp only [ErrorLog.hasErrors, hg.errors] at he ⊢
        simp_all
      obtain ⟨before, later, late, hs⟩ := ih (by rwa [isResolved, hg.phase] at hr) hclean
      refine ⟨before, _, _, hs.step hg.statements fun s hm => ⟨lines, rfl, ?_⟩⟩
      have hplaced := hg.placed s hm
      rwa [file_run] at hplaced
  | first ha hb => rcases hb with hb | hb <;> rw [isResolved, hb] at hr <;> cases hr
  | second ha hb hfile hobject hresolved =>
      -- The calls so far are those before the second pass, and nothing is late yet.
      have hdone : b.phase = .pass2Done := hb.resolve_left fun hb => by rw [isResolved, hb] at hr; cases hr
      refine ⟨calls, [], [], rfl, ?_, ?_, ?_, by simp⟩
      · rw [hrun, hdone]
      · rw [hrun]
        exact (hresolved hdone he).not_isSymbolic
      · rw [hrun, List.append_nil]
  | made journal hclean hready hp =>
      obtain ⟨before, later, late, hs⟩ := ih hready hclean
      exact ⟨before, _, _, hs.step (List.append_nil _).symm (by simp)⟩

/-- Symbols are resolved once. An object program may be made of statements that have been placed after the
second pass, and a symbol in one of these is coded as zero; no other statement has a symbol. -/
theorem generateObject_sources {settings : Settings} {file : String} {a₀ b : Assembly} {p : ObjectProgram}
    (calls : List Call) (h : create settings file = .ok a₀)
    (hp : generateObject (run calls a₀) = .ok (some p) b) :
    let a := run calls a₀
    ObjectProgram.build a.limit a.statements a.name a.start a.length = .ok p ∧
    ∃ before later late, Sources a₀ calls a before later late ∧
      ((∀ s ∈ a.statements, s.isSymbolic = false) ↔ ∀ s ∈ late, s.isSymbolic = false) ∧
      ∀ s ∈ late, s.isSymbolic = true →
        ∃ i, s.body = .instruction i ∧ s.code = i.code (s.operands.map (·.zeroed)) := by
  intro a
  obtain ⟨hclean, hready⟩ := generateObject_some hp
  obtain ⟨before, later, late, hs⟩ := exists_sources (create_fresh h).1 calls hready hclean
  have hmade : Made a p b := ((generateObject_made a).of_ok hp).2 p rfl
  refine ⟨hmade.build, before, later, late, hs, ⟨fun hall s hl => hall s ?_, fun hlate s ha => ?_⟩, ?_⟩
  · rw [hs.statements]
    exact List.mem_append_right _ hl
  · rw [hs.statements] at ha
    exact (List.mem_append.mp ha).elim (hs.resolved s) (hlate s)
  · intro s _ hsymbolic
    cases hb : s.body with
    | instruction i => exact ⟨i, rfl, by rw [Statement.code, hb, i.code_zeroed]⟩
    | _ => simp [Statement.isSymbolic, Statement.instruction?, hb] at hsymbolic

/-- One line is placed before the second pass and one after it. -/
theorem generateObject_sources_late :
    let calls := [Call.pass1 ["        RESB   5", "TOP     LDA    TOP"], .pass2,
      .parseLines ["        LDA    NIL"]]
    ∃ a₀ b p before later late, create {} "late.asm" = .ok a₀ ∧
      generateObject (run calls a₀) = .ok (some p) b ∧ Sources a₀ calls (run calls a₀) before later late ∧
      ¬ ∀ s ∈ late, s.isSymbolic = false := by
  intro calls
  obtain ⟨a₀, h⟩ : ∃ a₀, create {} "late.asm" = .ok a₀ := ⟨_, rfl⟩
  have hvalue : ∃ p, generateObject.value? (run calls a₀) = some (some p) ∧
      ¬ ∀ s ∈ (run calls a₀).statements, s.isSymbolic = false := by
    cases h
    exact ⟨⟨"", 0, 11, [⟨5, "000005000000".toList⟩]⟩, by decide +kernel⟩
  obtain ⟨p, hvalue, hsymbolic⟩ := hvalue
  have hp := Action.eq_ok_of_value? hvalue
  obtain ⟨-, before, later, late, hs, hiff, -⟩ := generateObject_sources calls h hp
  exact ⟨a₀, _, p, before, later, late, h, hp, hs, mt hiff.mpr hsymbolic⟩

/-- A name that no line defines, coded as zero with no error in the log. -/
theorem exists_symbolic_object :
    let calls := [Call.pass1 [], .pass2, .parseLines ["        LDA    NIL"]]
    ∃ a₀ b p, create {} "<input>" = .ok a₀ ∧ generateObject (run calls a₀) = .ok (some p) b ∧
      p.texts = [⟨0, "000000".toList⟩] ∧ (run calls a₀).symbols = [] ∧
      ∃ s ∈ (run calls a₀).statements, s.isSymbolic = true := by
  intro calls
  obtain ⟨a₀, h⟩ : ∃ a₀, create {} "<input>" = .ok a₀ := ⟨_, rfl⟩
  have hrun : generateObject.value? (run calls a₀) = some (some ⟨"", 0, 3, [⟨0, "000000".toList⟩]⟩) ∧
      (run calls a₀).symbols = [] ∧ ∃ s ∈ (run calls a₀).statements, s.isSymbolic = true := by
    cases h
    decide +kernel
  exact ⟨a₀, _, _, h, Action.eq_ok_of_value? hrun.1, rfl, hrun.2⟩

end Assembly

end TwoPass
