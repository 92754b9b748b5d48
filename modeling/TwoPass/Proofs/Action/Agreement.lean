import TwoPass.Proofs.Action

/-!
Two runs side by side. Actions agree under a relation between states if, from related states, both succeed with
the same value or both fail in the same way, and leave related states behind.
-/

namespace TwoPass.Action

variable {σ τ α β : Type} {R : σ → τ → Prop}

theorem value?_eq_some_iff {x : Action σ α} {s : σ} {value : α} :
    x.value? s = some value ↔ ∃ t, x s = .ok value t := by
  constructor
  · exact fun h => ⟨_, eq_ok_of_value? h⟩
  · rintro ⟨t, h⟩
    rw [value?, h]

def Agree (R : σ → τ → Prop) (x : Action σ α) (y : Action τ α) : Prop :=
  ∀ s t, R s t → Ends x s (fun value s' => ∃ t', y t = .ok value t' ∧ R s' t')
    (fun failure s' => ∃ t', y t = .error failure t' ∧ R s' t')

namespace Agree

theorem pure (value : α) : Agree R (Pure.pure value) (Pure.pure value) :=
  fun _ t h => ⟨t, rfl, h⟩

theorem throw (failure : Failure) : Agree R (throw failure : Action σ α) (MonadExcept.throw failure) :=
  fun _ t h => ⟨t, rfl, h⟩

theorem orFault (result : Except Fault α) : Agree R (Action.orFault result) (Action.orFault result) := by
  cases result with
  | ok value => exact pure value
  | error fault => exact throw (.fault fault)

theorem modify {f : σ → σ} {g : τ → τ} (h : ∀ s t, R s t → R (f s) (g t)) : Agree R (modify f) (modify g) :=
  fun s t hr => ⟨g t, rfl, h s t hr⟩

theorem bind {x : Action σ α} {y : Action τ α} {f : α → Action σ β} {g : α → Action τ β} (hx : Agree R x y)
    (hf : ∀ value, Agree R (f value) (g value)) : Agree R (x >>= f) (y >>= g) := by
  intro s t h
  rw [ends_bind]
  refine (hx s t h).mono ?_ ?_
  · rintro value s' ⟨t', hy, h'⟩
    have hrun : (y >>= g) t = g value t' := by rw [bind_run, hy]
    rw [hrun]
    exact hf value s' t' h'
  · rintro failure s' ⟨t', hy, h'⟩
    exact ⟨t', by rw [bind_run, hy], h'⟩

/-- An action before the first run that keeps its state related to the second. -/
theorem skip {x : Action σ α} {y : Action σ β} {z : Action τ β}
    (hx : ∀ s t, R s t → Ends x s (fun _ s' => R s' t) (fun _ _ => False)) (hy : Agree R y z) :
    Agree R (x >>= fun _ => y) z :=
  fun s t h => ends_bind.mpr ((hx s t h).mono (fun _ s' h' => hy s' t h') (fun _ _ h' => h'.elim))

/-- What is read may be different, as long as the actions that go on with it agree. -/
theorem get_bind {f : σ → Action σ β} {g : τ → Action τ β} (h : ∀ s t, R s t → Agree R (f s) (g t)) :
    Agree R (get >>= f) (get >>= g) :=
  fun s t hr => h s t hr s t hr

theorem discard {x : Action σ α} {y : Action τ α} (h : Agree R x y) :
    Agree R (Functor.discard x) (Functor.discard y) := by
  intro s t hr
  change Ends _ s (fun _ s' => ∃ t', Functor.discard y t = .ok ⟨⟩ t' ∧ R s' t') _
  refine ends_discard.mpr ((h s t hr).mono ?_ ?_)
  · rintro value s' ⟨t', hy, h'⟩
    exact ⟨t', discard_ok_iff.mpr ⟨value, hy⟩, h'⟩
  · rintro failure s' ⟨t', hy, h'⟩
    exact ⟨t', discard_error_iff.mpr hy, h'⟩

theorem onPart {σ' τ' : Type} {S : σ' → τ' → Prop} {x : Action σ α} {y : Action τ α} {part : σ' → σ}
    {part' : τ' → τ} {put : σ' → σ → σ'} {put' : τ' → τ → τ'} (h : Agree R x y)
    (hpart : ∀ s t, S s t → R (part s) (part' t))
    (hput : ∀ s t u v, S s t → R u v → S (put s u) (put' t v)) :
    Agree S (Action.onPart part put x) (Action.onPart part' put' y) := by
  intro s t hs
  refine ends_onPart.mpr ((h _ _ (hpart s t hs)).mono ?_ ?_)
  · rintro value u ⟨v, hy, h'⟩
    exact ⟨put' t v, by rw [Action.onPart, hy], hput s t u v hs h'⟩
  · rintro failure u ⟨v, hy, h'⟩
    exact ⟨put' t v, by rw [Action.onPart, hy], hput s t u v hs h'⟩

theorem value? {x : Action σ α} {y : Action τ α} {s : σ} {t : τ} (h : Agree R x y) (hr : R s t) :
    x.value? s = y.value? t := by
  rcases (h s t hr).cases with ⟨_, _, hx, _, hy, -⟩ | ⟨_, _, hx, _, hy, -⟩
  · rw [Action.value?, Action.value?, hx, hy]
  · rw [Action.value?, Action.value?, hx, hy]

end Agree

/-! ## Views -/

/-- How an action ends, with a view of the state that it leaves. -/
def seen {υ : Type} (view : σ → υ) (x : Action σ α) (s : σ) : Except Failure α × υ :=
  match x s with
  | .ok value t => (.ok value, view t)
  | .error failure t => (.error failure, view t)

variable {υ : Type} {view : σ → υ} {x y : Action σ α} {s t : σ}

theorem view_after (h : x.seen view s = y.seen view t) : view (x.after s) = view (y.after t) := by
  unfold seen at h
  unfold after
  cases hx : x s <;> cases hy : y t <;> rw [hx, hy] at h <;> exact congrArg Prod.snd h

theorem seen_bind_ok {f : α → Action σ β} {value : α} (h : x s = .ok value t) :
    (x >>= f).seen view s = (f value).seen view t := by
  rw [seen, seen, bind_run, h]

theorem seen_bind_error {f : α → Action σ β} {failure : Failure} (h : x s = .error failure t) :
    (x >>= f).seen view s = (.error failure, view t) := by
  rw [seen, bind_run, h]

theorem seen_eq_iff : x.seen view s = y.seen view t ↔
    Ends x s (fun value s' => ∃ t', y t = .ok value t' ∧ view s' = view t')
      (fun failure s' => ∃ t', y t = .error failure t' ∧ view s' = view t') := by
  unfold seen Ends
  cases x s with
  | ok value s' =>
      cases y t with
      | ok value' t' =>
          constructor
          · intro h
            obtain ⟨hvalue, hview⟩ := Prod.mk.inj h
            cases hvalue
            exact ⟨t', rfl, hview⟩
          · rintro ⟨_, hy, hview⟩
            cases hy
            exact congrArg _ hview
      | error failure t' => simp
  | error failure s' =>
      cases y t with
      | ok value t' => simp
      | error failure' t' =>
          constructor
          · intro h
            obtain ⟨hfailure, hview⟩ := Prod.mk.inj h
            cases hfailure
            exact ⟨t', rfl, hview⟩
          · rintro ⟨_, hy, hview⟩
            cases hy
            exact congrArg _ hview

theorem agree_iff_seen : Agree (fun s t => view s = view t) x y ↔
    ∀ s t, view s = view t → x.seen view s = y.seen view t := by
  simp only [Agree, seen_eq_iff]

/-- It is enough to compare each state with its view. -/
theorem agree_of_view {view : σ → σ} (h : ∀ s, x.seen view s = x.seen view (view s)) :
    Agree (fun s t => view s = view t) x x :=
  agree_iff_seen.mpr fun s t hst => by rw [h s, h t, hst]

end TwoPass.Action
