import TwoPass.Assembly.Basic
import TwoPass.Proofs.Action

/-!
Reports to the error log. An error that fills the log ends the action that reports it, and the failure says
no more than that.
-/

namespace TwoPass.Assembly

open TwoPass.Action (Ends ends_bind ends_get ends_modify)

/-- The limit counts once an error has been added. -/
def limitReached (a : Assembly) : Bool :=
  a.errors.hasErrors && a.errors.isFull

/-- A failure because the error limit is reached. -/
structure Stopped (failure : Failure) (a : Assembly) : Prop where
  overflow : failure = .diagnostic a.errors.overflow
  reached : a.limitReached = true

/-- A failure of an action inside a pass: the error limit, or a fault. -/
def Halted (failure : Failure) (a : Assembly) : Prop :=
  Stopped failure a ∨ ∃ fault, failure = .fault fault

theorem hasErrors_of_limitReached {a : Assembly} (h : a.limitReached = true) : a.errors.hasErrors = true :=
  (Bool.and_eq_true_iff.mp h).1

theorem hasErrors_add (log : ErrorLog Diagnostic) (d : Diagnostic) : (log.add d).hasErrors = true := by
  simp [ErrorLog.hasErrors, ErrorLog.add]

/-- A new assembly is there whenever its text records can hold something. -/
theorem create_eq_ok_iff {settings : Settings} {file : String} {a : Assembly} :
    create settings file = .ok a ↔ ∃ limit, RecordLimit.ofInt settings.recordLimit = .ok limit ∧
      a = { settings, limit, file, errors := { limit := settings.maxErrors } } := by
  unfold create
  cases RecordLimit.ofInt settings.recordLimit with
  | error fault => simp [Except.map]
  | ok limit => simp [Except.map, eq_comm]

variable {a : Assembly} {P : Assembly → Prop} {E : Failure → Assembly → Prop}

theorem report_ends {level : Level} {message : String} {d : Diagnostic}
    (h : ∀ journal, P { a with journal, errors := a.errors.add d }) :
    Ends (do note level message; report d) a (fun _ => P)
      (fun failure a' => P a' ∧ Stopped failure a') := by
  simp only [report, note, ends_bind, ends_modify, ends_get]
  split
  · rename_i hfull
    exact ⟨h _, rfl, Bool.and_eq_true_iff.mpr ⟨hasErrors_add _ _, hfull⟩⟩
  · exact h _

theorem untilFull_error {action : Action Unit} {b : Assembly} {failure : Failure}
    (h : action a = .error failure b) :
    (∃ d journal, failure = .diagnostic d ∧ untilFull action a = .ok () { b with journal }) ∨
      untilFull action a = .error failure b := by
  simp only [untilFull, h]
  split
  · exact .inl ⟨_, _, rfl, rfl⟩
  · exact .inr rfl

theorem untilFull_ends {action : Action Unit} (h : Ends action a (fun _ => P) E)
    (hcatch : ∀ d b journal, E (.diagnostic d) b → P { b with journal }) :
    Ends (untilFull action) a (fun _ => P) E := by
  cases ha : action a with
  | ok value b =>
      have hp := h.of_ok ha
      rw [Ends, untilFull, ha]
      exact hp
  | error failure b =>
      rw [Ends, ha] at h
      rcases untilFull_error ha with ⟨d, journal, rfl, hu⟩ | hu
      · rw [Ends, hu]; exact hcatch d b journal h
      · rw [Ends, hu]; exact h

/-- The action ends by itself or at the error limit, or it fails with a fault. -/
theorem untilFull_cases {action : Action Unit} (h : Ends action a (fun _ _ => True) Halted) :
    Ends (untilFull action) a
      (fun _ b => ∃ c journal, b = { c with journal } ∧
        (action a = .ok () c ∨ ∃ failure, action a = .error failure c ∧ Stopped failure c))
      (fun failure b => action a = .error failure b ∧ ∃ fault, failure = .fault fault) := by
  cases hrun : action a with
  | ok _ b =>
      rw [Ends, untilFull, hrun]
      exact ⟨b, b.journal, rfl, .inl rfl⟩
  | error failure b =>
      rcases h.of_error hrun with hstopped | ⟨fault, rfl⟩
      · rw [Ends, untilFull, hrun, hstopped.overflow]
        exact ⟨b, _, rfl, .inr ⟨_, rfl, rfl, hstopped.reached⟩⟩
      · rw [Ends, untilFull, hrun]
        exact ⟨rfl, fault, rfl⟩

end TwoPass.Assembly
