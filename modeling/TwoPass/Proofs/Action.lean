import TwoPass.Action

/-!
How actions end. What an action did before it failed stays done, so a property of the state after it is
stated for both ends, success and failure, and goes from one action to the next through `Ends.bind`.
-/

namespace TwoPass.Action

variable {σ α β : Type} {Q Q' : α → σ → Prop} {E E' : Failure → σ → Prop}

/-- The state that an action leaves, whether or not it fails. -/
def after (x : Action σ α) (s : σ) : σ :=
  match x s with
  | .ok _ s => s
  | .error _ s => s

/-- The value that an action succeeds with. -/
def value? (x : Action σ α) (s : σ) : Option α :=
  match x s with
  | .ok value _ => some value
  | .error _ _ => none

theorem eq_ok_of_value? {x : Action σ α} {s : σ} {value : α} (h : x.value? s = some value) :
    x s = .ok value (x.after s) := by
  unfold value? at h
  unfold after
  split at h
  · rename_i hx; cases h; rw [hx]
  · cases h

/-- From `s` the action succeeds with `Q` or fails with `E`. -/
def Ends (x : Action σ α) (s : σ) (Q : α → σ → Prop) (E : Failure → σ → Prop) : Prop :=
  match x s with
  | .ok value s => Q value s
  | .error failure s => E failure s

theorem ends_pure {value : α} {s : σ} : Ends (pure value) s Q E ↔ Q value s := Iff.rfl

theorem ends_get {s : σ} {Q : σ → σ → Prop} : Ends get s Q E ↔ Q s s := Iff.rfl

theorem ends_modify {f : σ → σ} {s : σ} {Q : PUnit → σ → Prop} :
    Ends (modify f) s Q E ↔ Q ⟨⟩ (f s) := Iff.rfl

theorem ends_bind {x : Action σ α} {f : α → Action σ β} {s : σ} {Q : β → σ → Prop} :
    Ends (x >>= f) s Q E ↔ Ends x s (fun value s => Ends (f value) s Q E) E := by
  simp only [Ends, bind_run]
  cases x s <;> rfl

theorem bind_eq_ok {x : Action σ α} {f : α → Action σ β} {s t : σ} {result : β}
    (h : (x >>= f) s = .ok result t) : ∃ value u, x s = .ok value u ∧ f value u = .ok result t := by
  rw [bind_run] at h
  split at h
  · rename_i value u hx; exact ⟨value, u, hx, h⟩
  · cases h

theorem discard_run (x : Action σ α) (s : σ) :
    (discard x) s =
      match x s with
      | .ok _ s => .ok ⟨⟩ s
      | .error failure s => .error failure s := by
  refine (map_run (fun _ => PUnit.unit) x s).trans ?_
  cases x s <;> rfl

theorem discard_error_iff {x : Action σ α} {s t : σ} {failure : Failure} :
    (discard x) s = .error failure t ↔ x s = .error failure t := by
  rw [discard_run]
  cases x s <;> simp

theorem discard_ok_iff {x : Action σ α} {s t : σ} :
    (discard x) s = .ok ⟨⟩ t ↔ ∃ value, x s = .ok value t := by
  rw [discard_run]
  cases x s <;> simp

theorem ends_discard {x : Action σ α} {s : σ} {Q : σ → Prop} :
    Ends (discard x) s (fun _ => Q) E ↔ Ends x s (fun _ => Q) E := by
  simp only [Ends, discard_run]
  cases x s <;> rfl

theorem ends_onPart {τ : Type} {part : σ → τ} {put : σ → τ → σ} {x : Action τ α} {s : σ} :
    Ends (onPart part put x) s Q E ↔
      Ends x (part s) (fun value t => Q value (put s t)) (fun failure t => E failure (put s t)) := by
  simp only [Ends, onPart]
  cases x (part s) <;> rfl

theorem ends_after (x : Action σ α) (s : σ) : Ends x s (fun _ t => t = x.after s) (fun _ t => t = x.after s) := by
  unfold Ends Action.after
  cases x s <;> rfl

theorem Ends.bind {x : Action σ α} {f : α → Action σ β} {s : σ} {R : β → σ → Prop}
    (hx : Ends x s Q E) (hf : ∀ value s, Q value s → Ends (f value) s R E) : Ends (x >>= f) s R E := by
  rw [ends_bind]
  unfold Ends at hx ⊢
  split
  · rename_i h; rw [h] at hx; exact hf _ _ hx
  · rename_i h; rw [h] at hx; exact hx

theorem Ends.mono {x : Action σ α} {s : σ} (h : Ends x s Q E) (hQ : ∀ value s, Q value s → Q' value s)
    (hE : ∀ failure s, E failure s → E' failure s) : Ends x s Q' E' := by
  unfold Ends at h ⊢
  split
  · rename_i h'; rw [h'] at h; exact hQ _ _ h
  · rename_i h'; rw [h'] at h; exact hE _ _ h

theorem Ends.imp {x : Action σ α} {s : σ} (h : Ends x s Q E) (hQ : ∀ value s, Q value s → Q' value s) :
    Ends x s Q' E :=
  h.mono hQ fun _ _ h => h

theorem Ends.imp_error {x : Action σ α} {s : σ} (h : Ends x s Q E)
    (hE : ∀ failure s, E failure s → E' failure s) : Ends x s Q E' :=
  h.mono (fun _ _ h => h) hE

theorem Ends.and {x : Action σ α} {s : σ} (h : Ends x s Q E) (h' : Ends x s Q' E') :
    Ends x s (fun value s => Q value s ∧ Q' value s) (fun failure s => E failure s ∧ E' failure s) := by
  unfold Ends at h h' ⊢
  split
  · rename_i hx; rw [hx] at h h'; exact ⟨h, h'⟩
  · rename_i hx; rw [hx] at h h'; exact ⟨h, h'⟩

theorem Ends.of_ok {x : Action σ α} {s s' : σ} {value : α} (h : Ends x s Q E) (hx : x s = .ok value s') :
    Q value s' := by
  rwa [Ends, hx] at h

theorem Ends.of_error {x : Action σ α} {s s' : σ} {failure : Failure} (h : Ends x s Q E)
    (hx : x s = .error failure s') : E failure s' := by
  rwa [Ends, hx] at h

theorem Ends.cases {x : Action σ α} {s : σ} (h : Ends x s Q E) :
    (∃ value s', x s = .ok value s' ∧ Q value s') ∨ ∃ failure s', x s = .error failure s' ∧ E failure s' := by
  cases hx : x s with
  | ok value s' => exact .inl ⟨value, s', rfl, h.of_ok hx⟩
  | error failure s' => exact .inr ⟨failure, s', rfl, h.of_error hx⟩

/-- What holds at both ends holds of the state that is left. -/
theorem Ends.after {x : Action σ α} {s : σ} {P : σ → Prop} (h : Ends x s (fun _ => P) (fun _ => P)) :
    P (x.after s) := by
  unfold Ends at h
  unfold Action.after
  split at h <;> exact h

end TwoPass.Action
