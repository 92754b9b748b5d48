import TwoPass.Proofs.Assembly.Calls
import TwoPass.Proofs.Assembly.Retuning

/-!
A smaller error limit cuts a run short and changes nothing before the cut. Lists of errors, symbols and
statements only grow, so the run with the smaller limit ends in front of the other one: with the same
results if it meets too few errors, and else with as many of the first errors as the limit allows.
-/

namespace TwoPass

open TwoPass.Action (bind_run)

/-- What stays of a statement once it is placed. -/
def Statement.outline (s : Statement) : String × Int × Int :=
  (s.label, s.offset, s.line)

theorem Statement.Revised.outline {s s' : Statement} (h : Revised s s') : s'.outline = s.outline := by
  rw [Statement.outline, Statement.line, h.frame]
  rfl

theorem outline_revisions (table : SymbolTable) (file : String) (base : Option Int) (l : List Statement) :
    (revisions table file base l).map (·.statement.outline) = l.map (·.outline) := by
  induction l generalizing base with
  | nil => rfl
  | cons s rest ih =>
      rw [List.map_cons, ← (Statement.Revised.revise s table file base).outline, ← ih]
      rfl

namespace Assembly

variable {α β : Type} {n : Int} {a b c : Assembly}

/-! ## Prefixes -/

/-- `b` has all that `a` has, and may have more behind it. -/
structure Extends (a b : Assembly) : Prop where
  errors : a.errors.errors <+: b.errors.errors
  symbols : a.symbols <+: b.symbols
  statements : a.statements.map (·.outline) <+: b.statements.map (·.outline)

theorem Extends.refl (a : Assembly) : Extends a a :=
  ⟨List.prefix_rfl, List.prefix_rfl, List.prefix_rfl⟩

theorem Extends.trans (h : Extends a b) (h' : Extends b c) : Extends a c :=
  ⟨h.errors.trans h'.errors, h.symbols.trans h'.symbols, h.statements.trans h'.statements⟩

/-- The assembly with another error limit. -/
def limited (n : Int) (a : Assembly) : Assembly :=
  { a with settings := { a.settings with maxErrors := n }, errors := { a.errors with limit := n } }

/-- The log has fewer than `n` errors. -/
def Below (n : Int) (a : Assembly) : Prop :=
  (a.errors.errorCount : Int) < n

theorem Extends.below (h : Extends a b) (hb : Below n b) : Below n a := by
  have hlength := h.errors.length_le
  unfold Below ErrorLog.errorCount at *
  omega

/-- The most errors that a run can log: the first one is always logged. -/
def capacity (a : Assembly) : Int :=
  max 1 a.errors.limit

/-- There is room for another error under the limit `n` as well as under the limit of the assembly. -/
structure Room (n : Int) (a : Assembly) : Prop where
  below : Below n a
  le : n ≤ a.capacity

/-- What an action does under the limit `n` if it comes from the state `a` to the result. -/
def limitedResult (n : Int) : EStateM.Result Failure Assembly α → EStateM.Result Failure Assembly α
  | .ok value b => .ok value (b.limited n)
  | .error failure b => .error failure (b.limited n)

/-- Under the limit `n` the action is stopped at the `n`th error, on its way to `b`. -/
def CutShort (n : Int) (x : Action α) (a b : Assembly) : Prop :=
  ∃ failure c, x (a.limited n) = .error failure c ∧ Stopped failure c ∧ (c.errors.errorCount : Int) = n ∧ Extends c b

/-- The run of an action from `a`, next to the run with a smaller limit. -/
structure Truncates (n : Int) (x : Action α) (a : Assembly) : Prop where
  limit : (x.after a).errors.limit = a.errors.limit
  grows : Extends a (x.after a)
  fits : Below a.capacity a → ((x.after a).errors.errorCount : Int) ≤ a.capacity ∧
    ∀ value b, x a = .ok value b → Below a.capacity b
  same : Room n a → Below n (x.after a) → x (a.limited n) = limitedResult n (x a)
  cut : Room n a → ¬ Below n (x.after a) → CutShort n x a (x.after a)

/-! ## Building blocks -/

namespace Truncates

variable {x : Action α} {f : α → Action β}

/-- An action that logs no errors is never cut short. -/
theorem of_quiet (he : (x.after a).errors.errors = a.errors.errors)
    (hlimit : (x.after a).errors.limit = a.errors.limit) (hgrows : Extends a (x.after a))
    (hsame : x (a.limited n) = limitedResult n (x a)) : Truncates n x a := by
  have hcount : (x.after a).errors.errorCount = a.errors.errorCount := by
    rw [ErrorLog.errorCount, he, ErrorLog.errorCount]
  refine ⟨hlimit, hgrows, fun hfits => ⟨?_, ?_⟩, fun _ _ => hsame, fun hroom hfull => ?_⟩
  · rw [hcount]
    exact Int.le_of_lt hfits
  · intro value b hx
    rw [Action.after, hx] at hcount
    rw [Below, hcount]
    exact hfits
  · refine absurd ?_ hfull
    rw [Below, hcount]
    exact hroom.below

theorem pure (value : α) : Truncates n (Pure.pure value) a :=
  of_quiet rfl rfl (.refl a) rfl

theorem throw (failure : Failure) : Truncates n (throw failure : Action α) a :=
  of_quiet rfl rfl (.refl a) rfl

theorem orFault (result : Except Fault α) : Truncates n (Action.orFault result) a := by
  cases result with
  | ok value => exact pure value
  | error fault => exact throw (.fault fault)

theorem modify {g : Assembly → Assembly} (he : (g a).errors.errors = a.errors.errors)
    (hlimit : (g a).errors.limit = a.errors.limit) (hgrows : Extends a (g a))
    (hsame : g (a.limited n) = (g a).limited n) : Truncates n (modify g) a :=
  of_quiet he hlimit hgrows (by rw [Action.modify_run, Action.modify_run, hsame]; rfl)

theorem bind (hx : Truncates n x a) (hf : ∀ value b, x a = .ok value b → Truncates n (f value) b) :
    Truncates n (x >>= f) a := by
  cases hrun : x a with
  | error failure b =>
      have hbind : (x >>= f) a = .error failure b := by rw [bind_run, hrun]
      have hafter : (x >>= f).after a = x.after a := by rw [Action.after, hbind, Action.after, hrun]
      refine ⟨hafter ▸ hx.limit, hafter ▸ hx.grows, fun hfits => ⟨hafter ▸ (hx.fits hfits).1, ?_⟩, ?_, ?_⟩
      · intro value c hc
        rw [hbind] at hc
        cases hc
      · intro hroom hbelow
        rw [bind_run, hx.same hroom (hafter ▸ hbelow), hbind, hrun]
        rfl
      · intro hroom hfull
        rw [hafter] at hfull ⊢
        obtain ⟨failure', c, hc, hrest⟩ := hx.cut hroom hfull
        exact ⟨failure', c, by rw [bind_run, hc], hrest⟩
  | ok value b =>
      have hbind : (x >>= f) a = f value b := by rw [bind_run, hrun]
      have hafter : (x >>= f).after a = (f value).after b := by rw [Action.after, hbind]; rfl
      have hb : x.after a = b := by rw [Action.after, hrun]
      obtain ⟨hlimit, hgrows, hfits, hsame, hcut⟩ := hf value b hrun
      have hx' := hx
      obtain ⟨hxlimit, hxgrows, hxfits, hxsame, hxcut⟩ := hx'
      rw [hb] at hxlimit hxgrows hxfits hxsame hxcut
      have hcapacity : b.capacity = a.capacity := by rw [capacity, hxlimit, capacity]
      have hroomb : Room n a → Below n b → Room n b := fun hroom hbelow => ⟨hbelow, hcapacity ▸ hroom.le⟩
      refine ⟨?_, ?_, ?_, ?_, ?_⟩
      · rw [hafter, hlimit, hxlimit]
      · rw [hafter]
        exact hxgrows.trans hgrows
      · intro hopen
        rw [hafter, hbind, ← hcapacity]
        exact hfits (hcapacity ▸ (hxfits hopen).2 value b hrun)
      · intro hroom hbelow
        rw [hafter] at hbelow
        have hbelowb := hgrows.below hbelow
        rw [bind_run, hxsame hroom hbelowb, hrun, hbind]
        exact hsame (hroomb hroom hbelowb) hbelow
      · intro hroom hfull
        rw [hafter] at hfull ⊢
        by_cases hbelowb : Below n b
        · obtain ⟨failure, c, hc, hrest⟩ := hcut (hroomb hroom hbelowb) hfull
          refine ⟨failure, c, ?_, hrest⟩
          rw [bind_run, hxsame hroom hbelowb, hrun]
          exact hc
        · obtain ⟨failure, c, hc, hstopped, hcount, hext⟩ := hxcut hroom hbelowb
          exact ⟨failure, c, by rw [bind_run, hc], hstopped, hcount, hext.trans hgrows⟩

/-- What is read may be anything but the limit. -/
theorem get_bind {f : Assembly → Action β} (hread : f (a.limited n) = f a) (h : Truncates n (f a) a) :
    Truncates n (get >>= f) a := by
  have hafter : (get >>= f).after a = (f a).after a := rfl
  have hrun : (get >>= f) (a.limited n) = f a (a.limited n) := by
    rw [← hread]
    rfl
  refine ⟨h.limit, h.grows, h.fits, ?_, ?_⟩
  · intro hroom hbelow
    rw [hrun]
    exact h.same hroom hbelow
  · intro hroom hfull
    obtain ⟨failure, c, hc, hrest⟩ := h.cut hroom hfull
    exact ⟨failure, c, hrun.trans hc, hrest⟩

end Truncates

theorem report_run (d : Diagnostic) (a : Assembly) : report d a =
    if (a.errors.add d).isFull then .error (.diagnostic (a.errors.add d).overflow) { a with errors := a.errors.add d }
    else .ok () { a with errors := a.errors.add d } := by
  rw [report, bind_run, Action.modify_run]
  dsimp only
  rw [bind_run, Action.get_run]
  dsimp only
  split <;> rfl

theorem after_report (d : Diagnostic) (a : Assembly) :
    (report d).after a = { a with errors := a.errors.add d } := by
  cases hfull : (a.errors.add d).isFull with
  | true => rw [Action.after, report_run, if_pos hfull]
  | false => rw [Action.after, report_run, if_neg (by simp [hfull])]

theorem isFull_add_iff (log : ErrorLog Diagnostic) (d : Diagnostic) :
    (log.add d).isFull = true ↔ log.limit ≤ log.errorCount + 1 := by
  simp [ErrorLog.isFull, ErrorLog.add, ErrorLog.errorCount]

theorem errorCount_add (log : ErrorLog Diagnostic) (d : Diagnostic) :
    (log.add d).errorCount = log.errorCount + 1 := by
  simp [ErrorLog.errorCount, ErrorLog.add]

namespace Truncates

/-- The error that fills the log is the last one. -/
theorem report (d : Diagnostic) : Truncates n (report d) a := by
  have hfull := isFull_add_iff a.errors d
  have hcount := errorCount_add a.errors d
  have hgrows : Extends a { a with errors := a.errors.add d } :=
    ⟨List.prefix_append _ _, List.prefix_rfl, List.prefix_rfl⟩
  refine ⟨?_, ?_, fun hopen => ⟨?_, fun value b hb => ?_⟩, fun hroom hbelow => ?_, fun hroom hcut => ?_⟩
  · rw [after_report]
    rfl
  · rw [after_report]
    exact hgrows
  · rw [after_report]
    simp only [Below, capacity, hcount] at hopen ⊢
    omega
  · rw [report_run] at hb
    split at hb
    · cases hb
    · rename_i hfree
      cases hb
      simp only [Below, capacity, hcount] at hopen ⊢
      rw [hfull] at hfree
      omega
  · rw [after_report] at hbelow
    have hle := hroom.le
    simp only [Below, capacity, hcount] at hbelow hle
    rw [report_run, report_run, if_neg, if_neg]
    · rfl
    · rw [hfull]
      omega
    · rw [isFull_add_iff]
      simp only [limited, ErrorLog.errorCount] at hbelow ⊢
      omega
  · rw [after_report] at hcut ⊢
    have hbelow := hroom.below
    simp only [Below, hcount] at hbelow hcut
    have hlast : ((a.limited n).errors.add d).isFull = true := by
      rw [isFull_add_iff]
      simp only [limited, ErrorLog.errorCount] at hcut ⊢
      omega
    refine ⟨_, { a.limited n with errors := (a.limited n).errors.add d }, ?_, ⟨rfl, ?_⟩, ?_,
      List.prefix_rfl, List.prefix_rfl, List.prefix_rfl⟩
    · rw [report_run, if_pos hlast]
    · exact Bool.and_eq_true_iff.mpr ⟨hasErrors_add _ _, hlast⟩
    · rw [errorCount_add]
      simp only [limited, ErrorLog.errorCount] at hbelow hcut ⊢
      omega

/-- A change adds behind what is there, unless it puts statements in the place of others. -/
theorem run {change : Change} (h : a.statements.map (·.outline) <+: (change.effect a).statements.map (·.outline)) :
    Truncates n change.run a := by
  cases change
  case report d => exact report d
  case fail fault => exact throw _
  case define symbol => exact modify rfl rfl ⟨List.prefix_rfl, List.prefix_append _ _, h⟩ rfl
  all_goals exact modify rfl rfl ⟨List.prefix_rfl, List.prefix_rfl, h⟩ rfl

theorem runAll {I : Assembly → Prop} {l : List Change}
    (hI : ∀ change ∈ l, ∀ b, I b → I (change.effect b) ∧
      b.statements.map (·.outline) <+: (change.effect b).statements.map (·.outline))
    (h : I a) : Truncates n (Assembly.runAll l) a := by
  induction l generalizing a with
  | nil => exact pure ()
  | cons change rest ih =>
      obtain ⟨hfirst, hrest⟩ := List.forall_mem_cons.mp hI
      refine (run (hfirst a h).2).bind fun _ b hb => ih hrest ?_
      rw [(change.run_effect a).of_ok hb]
      exact (hfirst a h).1

end Truncates

/-! ## The first pass -/

theorem truncates_placeLine (number : Nat) (text : String) : Truncates n (placeLine number text) a := by
  rw [placeLine_eq]
  refine .get_bind rfl (.bind (.runAll (I := fun _ => True) ?_ trivial) fun _ _ _ => .orFault _)
  refine forall_mem_lineChanges (fun s _ b _ => ⟨trivial, ?_⟩) (fun s _ change h b _ => ⟨trivial, ?_⟩)
    (fun _ _ _ _ => ⟨trivial, List.prefix_rfl⟩) fun _ _ _ _ => ⟨trivial, List.prefix_rfl⟩
  · simp only [Change.effect, List.map_append]
    exact List.prefix_append _ _
  · rw [h.statements]

theorem truncates_placeLines (number : Nat) (lines : List String) : Truncates n (placeLines number lines) a := by
  induction lines generalizing number a with
  | nil => exact .pure []
  | cons text rest ih =>
      unfold placeLines
      split
      · exact ih (number + 1)
      · exact (truncates_placeLine number text).bind fun _ _ _ => (ih (number + 1)).bind fun _ _ _ => .pure _

/-! ## The second pass -/

theorem outline_resolve (a : Assembly) :
    (a.statements.map (·.resolve a.symbols)).map (·.outline) = a.statements.map (·.outline) := by
  rw [List.map_map]
  exact List.map_congr_left fun s _ => (Statement.Revised.resolve s a.symbols).outline

theorem outline_plan (a : Assembly) : a.plan.map (·.statement.outline) = a.statements.map (·.outline) := by
  rw [plan, outline_revisions, outline_resolve]

/-- Labels, places and lines stay as they are through the whole pass. -/
theorem truncates_resolveAll : Truncates n resolveAll a := by
  rw [resolveAll_eq]
  have hlogged (b : Assembly) (hb : b.statements.map (·.outline) = a.statements.map (·.outline)) :
      b.statements.map (·.outline) = a.statements.map (·.outline) ∧
        b.statements.map (·.outline) <+: b.statements.map (·.outline) := ⟨hb, List.prefix_rfl⟩
  refine .get_bind rfl (.runAll (I := fun b => b.statements.map (·.outline) = a.statements.map (·.outline)) ?_ rfl)
  refine forall_mem_resolveChanges (fun b hb => ?_) (fun k r hr b hb => ?_) (fun _ _ => hlogged)
    (fun _ => hlogged) fun _ => hlogged
  · exact ⟨outline_resolve a, by rw [hb, ← outline_resolve]; exact List.prefix_rfl⟩
  · have hset : (b.statements.set k r.statement).map (·.outline) = b.statements.map (·.outline) := by
      have hold : (b.statements.map (·.outline))[k]? = some r.statement.outline := by
        rw [hb, ← outline_plan, List.getElem?_map, hr]
        rfl
      obtain ⟨hk, hget⟩ := List.getElem?_eq_some_iff.mp hold
      rw [List.map_set, ← hget]
      exact List.set_getElem_self hk
    exact ⟨hset.trans hb, by rw [← hset]; exact List.prefix_rfl⟩

end Assembly

end TwoPass
