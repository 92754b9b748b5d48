import TwoPass.Proofs.Assembly.Placement

/-!
What the second pass may change of a statement: the operands of an instruction, its displacement and the
two flags that say what the displacement counts from. Address, size and all that is written stay, so the
code that is emitted fills the room that the first pass has set aside.
-/

namespace TwoPass

open TwoPass.Action (Ends ends_bind ends_get ends_modify)

/-! ## Statements -/

theorem Operand.IsAddress.resolve {o : Operand} (h : o.IsAddress) (table : SymbolTable) :
    (o.resolve table).IsAddress := by
  unfold Operand.resolve
  split
  · split
    · trivial
    · exact h
  · exact h

theorem Instruction.WellFormed.withReach {i : Instruction} {operands : List Operand}
    (h : i.WellFormed operands) (reach : Reach) : (i.withReach reach).WellFormed operands := by
  cases reach <;> exact ⟨h.opcode, h.format, h.extended, h.operands⟩

theorem Instruction.withReach_size (i : Instruction) (reach : Reach) : (i.withReach reach).size = i.size := by
  cases reach <;> rfl

namespace Statement

/-- Relocation gives an instruction a reach and leaves any other statement alone. -/
theorem relocate_cases (s : Statement) (base : Option Int) :
    (s.relocate base).statement = s ∨ ∃ i reach, s.body = .instruction i ∧
      (s.relocate base).statement = { s with body := .instruction (i.withReach reach) } := by
  unfold relocate
  split
  · rename_i i hb
    split
    · exact .inr ⟨i, .direct, hb, rfl⟩
    · exact .inr ⟨i, .direct, hb, rfl⟩
    · exact .inr ⟨i, _, hb, rfl⟩
  · exact .inl rfl

structure Revised (s s' : Statement) : Prop where
  frame : s'.toFrame = { s.toFrame with operands := s'.operands }
  size : s'.size = s.size
  isEmitted : s'.isEmitted = s.isEmitted
  wellFormed : s.WellFormed → s'.WellFormed

namespace Revised

variable {s s' s'' : Statement}

theorem refl (s : Statement) : Revised s s := ⟨rfl, rfl, rfl, id⟩

theorem trans (h : Revised s s') (h' : Revised s' s'') : Revised s s'' := by
  refine ⟨?_, h'.size.trans h.size, h'.isEmitted.trans h.isEmitted, h'.wellFormed ∘ h.wellFormed⟩
  rw [h'.frame, h.frame]

theorem offset (h : Revised s s') : s'.offset = s.offset := by rw [h.frame]

theorem resolve (s : Statement) (table : SymbolTable) : Revised s (s.resolve table) := by
  cases hb : s.body with
  | instruction i =>
      simp only [Statement.resolve, hb]
      refine ⟨rfl, by simp only [Statement.size, hb], by simp only [Statement.isEmitted, hb], fun h => ?_⟩
      simp only [WellFormed, hb] at h ⊢
      refine ⟨h.opcode, h.format, h.extended, fun o ho => ?_⟩
      obtain ⟨o', ho', rfl⟩ := List.mem_map.mp ho
      exact (h.operands o' ho').resolve table
  | directive d value => simp only [Statement.resolve, hb]; exact refl s
  | remark => simp only [Statement.resolve, hb]; exact refl s

theorem withReach {i : Instruction} (hb : s.body = .instruction i) (reach : Reach) :
    Revised s { s with body := .instruction (i.withReach reach) } := by
  refine ⟨rfl, ?_, by simp only [Statement.isEmitted, hb], fun h => ?_⟩
  · simp only [Statement.size, hb, i.withReach_size]
  · simp only [WellFormed, hb] at h ⊢
    exact h.withReach reach

theorem relocate (s : Statement) (base : Option Int) : Revised s (s.relocate base).statement := by
  rcases s.relocate_cases base with he | ⟨i, reach, hb, he⟩
  · rw [he]; exact refl s
  · rw [he]; exact withReach hb reach

theorem revise (s : Statement) (table : SymbolTable) (file : String) (base : Option Int) :
    Revised s (s.revise table file base).1.statement := by
  unfold Statement.revise
  split
  · split <;> exact refl s
  · exact refl s
  · dsimp only
    split
    · exact relocate s base
    · exact refl s

end Revised

/-- `s'` stands where `s` stood, is as long, and its code fills just that room. -/
structure Fills (s s' : Statement) : Prop where
  offset : s'.offset = s.offset
  isEmitted : s'.isEmitted = s.isEmitted
  code : ∃ n code, s.size = .ok n ∧ s'.size = .ok n ∧ s'.code = .ok code ∧
    if s'.isEmitted then Text.IsHex (2 * n) code else code = []

theorem Revised.fills {s s' : Statement} (h : Revised s s') (hs : s.WellFormed) : Fills s s' := by
  obtain ⟨n, code, hn, hcode, hhex⟩ := size_code (h.wellFormed hs)
  exact ⟨h.offset, h.isEmitted, n, code, h.size ▸ hn, hn, hcode, hhex⟩

/-- What the relation brings from the members of one list to those of the other. -/
theorem forall_mem_of_forall₂ {R : Statement → Statement → Prop} {P Q : Statement → Prop} {l l' : List Statement}
    (h : List.Forall₂ R l l') (hl : ∀ s ∈ l, P s) (hPQ : ∀ s s', P s → R s s' → Q s') : ∀ s ∈ l', Q s := by
  have hboth := (List.forall₂_and_left _ _).mpr ⟨hl, h⟩
  have hflip : List.Forall₂ (fun s' s => Q s' ∧ R s s') l' l :=
    List.Forall₂.flip (hboth.imp fun s s' hs => ⟨hPQ s s' hs.1 hs.2, hs.2⟩)
  exact ((List.forall₂_and_left _ _).mp hflip).1

theorem wellFormed_of_revised {l l' : List Statement} (h : List.Forall₂ Revised l l')
    (hl : ∀ s ∈ l, s.WellFormed) : ∀ s ∈ l', s.WellFormed :=
  forall_mem_of_forall₂ h hl fun _ _ hs hr => hr.wellFormed hs

end Statement

theorem revisions_revised (table : SymbolTable) (file : String) : (base : Option Int) →
    (l : List Statement) →
    List.Forall₂ (fun s r => Statement.Revised s r.statement) l
      (revisions table file base (l.map (·.resolve table)))
  | _, [] => .nil
  | base, s :: rest =>
      .cons ((Statement.Revised.resolve s table).trans (.revise (s.resolve table) table file base))
        (revisions_revised table file ((s.resolve table).revise table file base).2 rest)

namespace Assembly

/-! ## Steps of the pass -/

/-- Nothing but statements, logged errors and journal has changed, and no error is forgotten. -/
structure Continued (a b : Assembly) : Prop where
  kept : b = { a with
    statements := b.statements, errors := { a.errors with errors := b.errors.errors }, journal := b.journal }
  hasErrors : a.errors.hasErrors = true → b.errors.hasErrors = true

/-- A failure that is no fault leaves an error behind. -/
def Flagged (failure : Failure) (a : Assembly) : Prop :=
  ∀ d, failure = .diagnostic d → a.errors.hasErrors = true

theorem Continued.refl (a : Assembly) : Continued a a := ⟨rfl, id⟩

theorem Continued.trans {a b c : Assembly} (h : Continued a b) (h' : Continued b c) : Continued a c := by
  refine ⟨?_, h'.hasErrors ∘ h.hasErrors⟩
  rw [h'.kept, h.kept]

theorem Continued.hasErrors_eq_false {a b : Assembly} (h : Continued a b) (hb : b.errors.hasErrors = false) :
    a.errors.hasErrors = false :=
  Bool.eq_false_iff.mpr fun ha => by rw [h.hasErrors ha] at hb; cases hb

theorem Stopped.flagged {failure : Failure} {a : Assembly} (h : Stopped failure a) : Flagged failure a :=
  fun _ _ => hasErrors_of_limitReached h.reached

theorem reportLine_ends (a : Assembly) (line : Int) (d : Diagnostic) :
    Ends (reportLine line d) a
      (fun _ b => Continued a b ∧ b.statements = a.statements ∧ b.errors.hasErrors = true)
      (fun failure b => Continued a b ∧ b.statements = a.statements ∧ Flagged failure b) := by
  refine (report_ends fun journal => ?_).imp_error fun _ _ h => ⟨h.1.1, h.1.2.1, h.2.flagged⟩
  exact ⟨⟨rfl, fun _ => hasErrors_add _ _⟩, rfl, hasErrors_add _ _⟩

theorem reportAll_ends : (ds : List Diagnostic) → (a : Assembly) → Ends (reportAll ds) a
    (fun _ b => Continued a b ∧ b.statements = a.statements ∧ (b.errors.hasErrors = false → ds = []))
    (fun failure b => Continued a b ∧ b.statements = a.statements ∧ Flagged failure b)
  | [], a => ⟨.refl a, rfl, fun _ => rfl⟩
  | d :: rest, a => by
      unfold reportAll
      refine (reportLine_ends a _ d).bind fun _ b hb => ?_
      refine (reportAll_ends rest b).mono ?_ ?_
      · intro _ c hc
        refine ⟨hb.1.trans hc.1, hc.2.1.trans hb.2.1, fun hn => ?_⟩
        rw [hc.1.hasErrors hb.2.2] at hn
        cases hn
      · intro failure c hc
        exact ⟨hb.1.trans hc.1, hc.2.1.trans hb.2.1, hc.2.2⟩

theorem commit_cons_ends {r : Revision} {rest : List Revision} {done old : List Statement} {s : Statement}
    {a : Assembly} {Q : Unit → Assembly → Prop} {E : Failure → Assembly → Prop}
    (ha : a.statements = done ++ s :: old)
    (hrest : ∀ b, Continued a b → b.statements = done ++ r.statement :: old →
      (b.errors.hasErrors = false → r.problem = none) → Ends (commit (done.length + 1) rest) b Q E)
    (hstop : ∀ failure b, Continued a b → b.statements = done ++ r.statement :: old →
      Flagged failure b → E failure b) :
    Ends (commit done.length (r :: rest)) a Q E := by
  have hset : a.statements.set done.length r.statement = done ++ r.statement :: old := by simp [ha]
  have hwrite : Continued a { a with statements := done ++ r.statement :: old } := ⟨rfl, id⟩
  rw [commit, ends_bind, ends_modify, hset]
  cases hp : r.problem with
  | none => exact hrest _ hwrite rfl fun _ => hp
  | some problem =>
      cases problem with
      | fault fault => exact hstop _ _ hwrite rfl fun d hd => by cases hd
      | diagnostic d =>
          refine Ends.bind (Ends.imp_error (reportLine_ends _ _ d) ?_) ?_
          · intro failure b hb
            exact hstop failure b (hwrite.trans hb.1) hb.2.1 hb.2.2
          · intro _ b hb
            exact hrest b (hwrite.trans hb.1) hb.2.1 fun hn => by rw [hb.2.2] at hn; cases hn

/-- Revisions are written from the front, and a pass that stops has written the first few. -/
theorem commit_ends (rs : List Revision) {done old : List Statement} {a : Assembly}
    (ha : a.statements = done ++ old) (hlen : old.length = rs.length) :
    Ends (commit done.length rs) a
      (fun _ b => Continued a b ∧ b.statements = done ++ rs.map (·.statement) ∧
        (b.errors.hasErrors = false → ∀ r ∈ rs, r.problem = none))
      (fun failure b => Continued a b ∧ Flagged failure b ∧
        ∃ n, b.statements = done ++ ((rs.take n).map (·.statement) ++ old.drop n)) := by
  induction rs generalizing done old a with
  | nil =>
      obtain rfl := List.eq_nil_of_length_eq_zero hlen
      exact ⟨.refl a, ha, fun _ _ h => absurd h (by simp)⟩
  | cons r rest ih =>
      obtain ⟨s, old, rfl⟩ := List.exists_cons_of_length_eq_add_one hlen
      refine commit_cons_ends ha ?_ ?_
      · intro b hab hb hproblem
        -- What is written joins `done`, so the place to write is its length again.
        have hb' : b.statements = (done ++ [r.statement]) ++ old := by simp [hb]
        have hdone : done.length + 1 = (done ++ [r.statement]).length := by simp
        rw [hdone]
        refine (ih hb' (by simpa using hlen)).mono ?_ ?_
        · rintro _ c ⟨hbc, hc, hclean⟩
          refine ⟨hab.trans hbc, by simp [hc], fun hn => ?_⟩
          rintro r' (_ | ⟨_, hr'⟩)
          · exact hproblem (hbc.hasErrors_eq_false hn)
          · exact hclean hn r' hr'
        · rintro failure c ⟨hbc, hf, n, hc⟩
          exact ⟨hab.trans hbc, hf, n + 1, by simp [hc]⟩
      · intro failure b hab hb hf
        exact ⟨hab, hf, 1, by simp [hb]⟩

/-! ## The pass -/

/-- Statements change only as `Statement.Revised` allows, and besides them only what the pass notes down. -/
structure Reworked (a b : Assembly) : Prop where
  kept : b = { a with phase := b.phase, statements := b.statements, errors := b.errors, journal := b.journal }
  revised : List.Forall₂ Statement.Revised a.statements b.statements

theorem Reworked.symbols {a b : Assembly} (h : Reworked a b) : b.symbols = a.symbols := by rw [h.kept]

/-- The statements behind a pass that found nothing wrong. -/
structure Resolved (a b : Assembly) : Prop where
  unresolved : ∀ s ∈ a.statements, s.unresolvedErrors a.symbols = []
  plan : a.settings.relativeAddressing = true →
    b.statements = a.plan.map (·.statement) ∧ ∀ r ∈ a.plan, r.problem = none
  plain : a.settings.relativeAddressing = false → b.statements = a.statements.map (·.resolve a.symbols)

theorem resolved_revised (a : Assembly) :
    List.Forall₂ Statement.Revised a.statements (a.statements.map (·.resolve a.symbols)) :=
  List.forall₂_map_right_iff.mpr (List.forall₂_same.mpr fun s _ => .resolve s a.symbols)

/-- The first few statements revised, the others only resolved. -/
theorem plan_revised (a : Assembly) (n : Nat) :
    List.Forall₂ Statement.Revised a.statements
      ((a.plan.take n).map (·.statement) ++ (a.statements.map (·.resolve a.symbols)).drop n) := by
  have hdone : List.Forall₂ Statement.Revised (a.statements.take n) ((a.plan.take n).map (·.statement)) :=
    List.forall₂_map_right_iff.mpr
      (List.forall₂_take n (revisions_revised a.symbols a.file none a.statements))
  have hall : List.Forall₂ Statement.Revised (a.statements.take n ++ a.statements.drop n) _ :=
    List.rel_append hdone (List.forall₂_drop n (resolved_revised a))
  rwa [List.take_append_drop] at hall

theorem length_plan (a : Assembly) : a.plan.length = a.statements.length :=
  (revisions_revised a.symbols a.file none a.statements).length_eq.symm

theorem resolveAll_ends (a : Assembly) : Ends resolveAll a
    (fun _ b => Continued a b ∧ Reworked a b ∧ (b.errors.hasErrors = false → Resolved a b))
    (fun failure b => Continued a b ∧ Reworked a b ∧ Flagged failure b) := by
  have hread : ∀ {b : Assembly}, Continued { a with statements := a.statements.map (·.resolve a.symbols) } b →
      b.statements = a.statements.map (·.resolve a.symbols) → Continued a b ∧ Reworked a b := by
    intro b hab hb
    have hkept := hab.kept
    exact ⟨⟨hkept.trans rfl, hab.hasErrors⟩, by rw [hkept], hb ▸ resolved_revised a⟩
  rw [Ends, resolveAll_run, ← Ends, ends_bind]
  refine (reportAll_ends _ _).mono ?_ fun failure b hb => ?_
  · rintro _ b ⟨hab, hb, hclean⟩
    obtain ⟨hcontinued, hreworked⟩ := hread hab hb
    have hunresolved : b.errors.hasErrors = false → ∀ s ∈ a.statements, s.unresolvedErrors a.symbols = [] :=
      fun hn => List.flatMap_eq_nil_iff.mp (hclean hn)
    cases hrel : a.settings.relativeAddressing with
    | false =>
        refine ⟨hcontinued, hreworked, fun hn => ⟨hunresolved hn, fun h => ?_, fun _ => hb⟩⟩
        rw [hrel] at h
        cases h
    | true =>
        rw [if_pos rfl]
        refine (commit_ends a.plan (show b.statements = [] ++ _ from hb) (by simp [length_plan])).mono ?_ ?_
        · rintro _ c ⟨hbc, hc, hproblem⟩
          refine ⟨hcontinued.trans hbc, ⟨?_, ?_⟩, fun hn => ⟨?_, fun _ => ⟨hc, hproblem hn⟩, ?_⟩⟩
          · rw [hbc.kept, hreworked.kept]
          · rw [hc]
            exact List.forall₂_map_right_iff.mpr (revisions_revised a.symbols a.file none a.statements)
          · exact hunresolved (hbc.hasErrors_eq_false hn)
          · simp [hrel]
        · rintro failure c ⟨hbc, hf, n, hc⟩
          refine ⟨hcontinued.trans hbc, ⟨?_, hc ▸ plan_revised a n⟩, hf⟩
          rw [hbc.kept, hreworked.kept]
  · obtain ⟨hcontinued, hreworked⟩ := hread hb.1 hb.2.1
    exact ⟨hcontinued, hreworked, hb.2.2⟩

/-- Nothing but warnings and journal has changed. -/
def Warned (a b : Assembly) : Prop :=
  b = { a with errors := { a.errors with warnings := b.errors.warnings }, journal := b.journal }

theorem warnTruncations_ends {E : Failure → Assembly → Prop} (l : List Statement) {a : Assembly} :
    Ends (warnTruncations l) a (fun _ => Warned a) E := by
  have hkeep : ∀ change ∈ truncationChanges l, (∀ b, Warned a b → Warned a (change.effect b)) ∧
      ∀ b, change.failure? (change.effect b) = none := by
    refine forall_mem_truncationChanges (fun _ _ => ⟨fun b hb => ?_, fun _ => rfl⟩)
      fun _ => ⟨fun b hb => ?_, fun _ => rfl⟩
    all_goals
      unfold Warned at hb ⊢
      rw [hb]
      rfl
  rw [warnTruncations_eq]
  refine runAll_ends (fun change hc => (hkeep change hc).1) (fun change hc b failure _ hf => ?_) rfl
  cases ((hkeep change hc).2 b).symm.trans hf

/-- What holds at the end of the pass. -/
structure Finished (a b : Assembly) : Prop where
  reworked : Reworked a b
  resolved : b.errors.hasErrors = false → Resolved a b

theorem Finished.of_same {a b c : Assembly} (h : Finished a b)
    (hc : c = { b with phase := c.phase, errors := { b.errors with warnings := c.errors.warnings }
                       journal := c.journal }) : Finished a c := by
  have hstatements : c.statements = b.statements := by rw [hc]
  have herrors : c.errors.errors = b.errors.errors := by rw [hc]
  refine ⟨⟨?_, hstatements ▸ h.reworked.revised⟩, fun hn => ?_⟩
  · rw [hc, h.reworked.kept]
  · rw [ErrorLog.hasErrors, herrors] at hn
    obtain ⟨hunresolved, hplan, hplain⟩ := h.resolved hn
    exact ⟨hunresolved, hstatements ▸ hplan, hstatements ▸ hplain⟩

/-- The part of the pass that the error limit may cut short. -/
theorem untilFull_resolveAll_ends (a : Assembly) (phase : Phase) :
    Ends (untilFull resolveAll) { a with phase } (fun _ => Finished a) (fun _ => Reworked a) := by
  have hall : Ends resolveAll { a with phase } (fun _ => Finished a)
      (fun failure b => Reworked a b ∧ Flagged failure b) := by
    refine (resolveAll_ends _).mono ?_ ?_
    · rintro _ b ⟨-, hb, hclean⟩
      exact ⟨⟨hb.kept, hb.revised⟩, fun hn => ⟨(hclean hn).unresolved, (hclean hn).plan, (hclean hn).plain⟩⟩
    · rintro failure b ⟨-, hb, hf⟩
      exact ⟨⟨hb.kept, hb.revised⟩, hf⟩
  refine (untilFull_ends hall ?_).imp_error fun _ _ h => h.1
  rintro d b journal ⟨hb, hf⟩
  refine ⟨⟨?_, hb.revised⟩, fun hn => ?_⟩
  · rw [hb.kept]
  · rw [hf d rfl] at hn
    cases hn

/-- The pass from `a` answers `ok` and leaves `b`. -/
structure Passed (a : Assembly) (ok : Bool) (b : Assembly) : Prop where
  reworked : Reworked a b
  resolved : ok = true → a.errors.hasErrors = false ∧ Resolved a b
  answer : ok = !b.errors.hasErrors

theorem Finished.passed {a b : Assembly} {ok : Bool} (h : Finished a b) (ha : a.errors.hasErrors = false)
    (hok : ok = !b.errors.hasErrors) : Passed a ok b :=
  ⟨h.reworked, fun hb => ⟨ha, h.resolved (by simpa [hb] using hok.symm)⟩, hok⟩

theorem pass2_passed (a : Assembly) : Ends pass2 a (Passed a) (fun _ => Reworked a) := by
  have hsame : List.Forall₂ Statement.Revised a.statements a.statements :=
    List.forall₂_same.mpr fun s _ => .refl s
  simp only [pass2, ends_bind, ends_get]
  split
  · exact ⟨rfl, hsame⟩
  · split
    · rename_i herrors
      exact ⟨⟨rfl, hsame⟩, by simp, by simpa using herrors⟩
    · rename_i herrors
      have ha : a.errors.hasErrors = false := by simpa using herrors
      rw [ends_bind, enter, ends_modify]
      refine Ends.bind (untilFull_resolveAll_ends a .pass2Running) fun _ b hb => ?_
      rw [ends_bind, ends_get]
      split
      · refine Finished.passed ?_ ha rfl
        exact hb.of_same rfl
      · refine (warnTruncations_ends b.statements).bind fun _ c hc => ?_
        unfold Warned at hc
        refine Finished.passed ?_ ha rfl
        exact hb.of_same (by rw [hc])

theorem pass2_ends (a : Assembly) : Ends pass2 a
    (fun ok b => Reworked a b ∧ (ok = true → Resolved a b)) (fun _ => Reworked a) :=
  (pass2_passed a).imp fun _ _ h => ⟨h.reworked, fun hok => (h.resolved hok).2⟩

theorem Reworked.wellFormed {a b : Assembly} (h : Reworked a b) (ha : ∀ s ∈ a.statements, s.WellFormed) :
    ∀ s ∈ b.statements, s.WellFormed :=
  Statement.wellFormed_of_revised h.revised ha

/-- The second pass, however it ends, leaves every statement in its room, and the code fills it. -/
theorem pass2_fills {settings : Settings} {file : String} {a₀ : Assembly} (lines : List String)
    (h : create settings file = .ok a₀) :
    let a := (pass1 lines).after a₀
    List.Forall₂ Statement.Fills a.statements (pass2.after a).statements := by
  intro a
  have hwell := (pass1_settled lines h).placed.laid.wellFormed
  have hreworked : Reworked a (pass2.after a) := ((pass2_ends a).imp fun _ _ h => h.1).after
  have hboth := (List.forall₂_and_left _ _).mpr ⟨hwell, hreworked.revised⟩
  exact hboth.imp fun s s' hs => hs.2.fills hs.1

/-- A name that is not defined, characters in a word, and a number too large for its field. -/
theorem pass2_fills_unresolved :
    ∃ a₀, create {} "gap.asm" = .ok a₀ ∧
      let a := (pass1 ["        LDA    NIL", "        WORD   C'ABCD'", "        LDA    -70000"]).after a₀
      List.Forall₂ Statement.Fills a.statements (pass2.after a).statements ∧
      (pass2.after a).errors.hasErrors = true ∧
      (pass2.after a).statements.map (·.code) =
        [.ok "000000".toList, .ok "41424344".toList, .ok "000E90".toList] := by
  obtain ⟨a₀, h⟩ : ∃ a₀, create {} "gap.asm" = .ok a₀ := ⟨_, rfl⟩
  have hall := pass2_fills ["        LDA    NIL", "        WORD   C'ABCD'", "        LDA    -70000"] h
  refine ⟨a₀, h, hall, ?_, ?_⟩
  all_goals cases h; decide +kernel

end Assembly

end TwoPass
