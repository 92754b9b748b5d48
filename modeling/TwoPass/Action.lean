import TwoPass.Diagnostic

/-!
Actions: computations on a state that may fail. What an action did to the state before it failed stays
done. The equations below say what the building blocks do to a state.
-/

namespace TwoPass

abbrev Action (σ α : Type) :=
  EStateM Failure σ α

namespace Action

variable {σ τ α β : Type}

/-- A result, or the fault in its place. -/
def orFault (result : Except Fault α) : Action σ α :=
  match result with
  | .ok value => pure value
  | .error fault => throw (.fault fault)

/-- Runs an action on a part of a larger state, which `put` sets. -/
def onPart (part : σ → τ) (put : σ → τ → σ) (action : Action τ α) : Action σ α := fun s =>
  match action (part s) with
  | .ok value t => .ok value (put s t)
  | .error failure t => .error failure (put s t)

/-! ## Equations -/

theorem pure_run (value : α) (s : σ) : (pure value : Action σ α) s = .ok value s :=
  rfl

theorem get_run (s : σ) : (get : Action σ σ) s = .ok s s :=
  rfl

theorem modify_run (f : σ → σ) (s : σ) : (modify f : Action σ PUnit) s = .ok ⟨⟩ (f s) :=
  rfl

theorem throw_run (failure : Failure) (s : σ) :
    (throw failure : Action σ α) s = .error failure s :=
  rfl

theorem bind_run (x : Action σ α) (f : α → Action σ β) (s : σ) :
    (x >>= f) s =
      match x s with
      | .ok value s => f value s
      | .error failure s => .error failure s := by
  simp only [bind, EStateM.bind]
  cases x s <;> rfl

theorem map_run (f : α → β) (x : Action σ α) (s : σ) :
    (f <$> x) s =
      match x s with
      | .ok value s => .ok (f value) s
      | .error failure s => .error failure s := by
  simp only [Functor.map, EStateM.map]
  cases x s <;> rfl

theorem orFault_ok (value : α) (s : σ) : orFault (.ok value) s = .ok value s :=
  rfl

theorem orFault_error (fault : Fault) (s : σ) :
    (orFault (.error fault) : Action σ α) s = .error (.fault fault) s :=
  rfl

end Action

end TwoPass
