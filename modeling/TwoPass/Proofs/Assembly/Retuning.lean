import TwoPass.Proofs.Assembly.Changes

/-!
What each step looks at of the settings. The first pass asks only whether operands are checked strictly, and
that only for an instruction whose operands do not suit it; the second pass asks only for relative addressing;
the object program is made without a look at either. Under settings that agree on these, runs agree.
-/

namespace TwoPass.Assembly

open TwoPass.Action (Agree)

/-- Both passes, then the object program. -/
def assemble (lines : List String) : Action (Option ObjectProgram) := do
  let _ ← pass1 lines
  let _ ← pass2
  generateObject

/-- `b` is `a` under other settings. -/
structure Retuned (tune : Settings → Settings) (file : String) (a b : Assembly) : Prop where
  file : a.file = file
  same : b = { a with settings := tune a.settings }

variable {tune : Settings → Settings} {file : String}

theorem create_retuned (tune : Settings → Settings) {settings : Settings} {a : Assembly}
    (h : create settings file = .ok a)
    (hlimit : (tune settings).recordLimit = settings.recordLimit)
    (hmax : (tune settings).maxErrors = settings.maxErrors) :
    ∃ b, create (tune settings) file = .ok b ∧ Retuned tune file a b := by
  obtain ⟨limit, hl, rfl⟩ := create_eq_ok_iff.mp h
  refine ⟨_, create_eq_ok_iff.mpr ⟨limit, hlimit ▸ hl, rfl⟩, rfl, ?_⟩
  rw [hmax]

/-! ## Single changes -/

theorem agree_modify {f : Assembly → Assembly}
    (h : ∀ a settings, (f a).file = a.file ∧ (f a).settings = a.settings ∧
      f { a with settings } = { f a with settings }) : Agree (Retuned tune file) (modify f) (modify f) := by
  refine .modify fun a b hab => ?_
  obtain ⟨hfile, hsettings, hf⟩ := h a (tune a.settings)
  exact ⟨hfile.trans hab.file, by rw [hab.same, hf, hsettings]⟩

theorem agree_enter (phase : Phase) : Agree (Retuned tune file) (enter phase) (enter phase) :=
  agree_modify fun _ _ => ⟨rfl, rfl, rfl⟩

/-- No change looks at the settings. -/
theorem agree_change (change : Change) : Agree (Retuned tune file) change.run change.run := by
  have heffect : ∀ a settings, change.effect { a with settings } = { change.effect a with settings } := by
    intro a settings
    cases change <;> rfl
  refine Change.agree_run ?_ ?_
  · intro a b hab
    refine ⟨(change.file_effect a).trans hab.file, ?_⟩
    rw [hab.same, heffect, change.settings_effect]
  · rintro a _ ⟨-, rfl⟩
    cases change <;> rfl

theorem agree_changes (l : List Change) : Agree (Retuned tune file) (runAll l) (runAll l) :=
  agree_runAll fun change _ => agree_change change

theorem agree_note (level : Level) (message : String) :
    Agree (Retuned tune file) (note level message) (note level message) :=
  agree_change (.note level message)

theorem agree_close (phase : Phase) {summary : Assembly → String}
    (h : ∀ a settings, summary { a with settings } = summary a) :
    Agree (Retuned tune file) (close phase summary) (close phase summary) := by
  refine (agree_enter phase).bind fun _ => .get_bind ?_
  rintro a _ ⟨-, rfl⟩
  rw [h a (tune a.settings)]
  exact (agree_note _ _).bind fun _ => .pure _

/-- How a run up to the error limit goes on from a failure. -/
def caught (failure : Failure) : Action Unit := fun a =>
  match failure with
  | .diagnostic { cause := .tooManyErrors text, .. } => note .error text a
  | _ => .error failure a

theorem untilFull_eq_caught {x : Action Unit} {a b : Assembly} {failure : Failure}
    (h : x a = .error failure b) : untilFull x a = caught failure b := by
  rw [untilFull, h]
  rfl

theorem agree_caught {R : Assembly → Assembly → Prop}
    (hnote : ∀ message, Agree R (note .error message) (note .error message)) (failure : Failure) :
    Agree R (caught failure) (caught failure) := by
  unfold caught
  split
  · exact hnote _
  · exact .throw _

theorem agree_untilFull {R : Assembly → Assembly → Prop}
    (hnote : ∀ message, Agree R (note .error message) (note .error message)) {x y : Action Unit}
    (h : Agree R x y) : Agree R (untilFull x) (untilFull y) := by
  intro a b hab
  rcases (h a b hab).cases with ⟨_, a', hx, b', hy, hr⟩ | ⟨failure, a', hx, b', hy, hr⟩
  · rw [Action.Ends, untilFull, untilFull, hx, hy]
    exact ⟨b', rfl, hr⟩
  · rw [Action.Ends, untilFull_eq_caught hx, untilFull_eq_caught hy]
    exact agree_caught hnote failure a' b' hr

/-! ## The first pass -/

/-- Both settings make the same of the operands of `s`. -/
def ChecksAlike (tune : Settings → Settings) (s : Statement) : Prop :=
  ∀ i, s.body = .instruction i → ∀ a : Assembly,
    operandChanges { a with settings := tune a.settings } s i = operandChanges a s i

variable {s : Statement}

theorem checksAlike_of_strict (h : ∀ settings, (tune settings).strictOperands = settings.strictOperands) :
    ChecksAlike tune s := by
  intro i _ a
  unfold operandChanges
  rw [h]

theorem checksAlike_of_mismatch (h : ∀ i, s.body = .instruction i → i.mismatch = none) :
    ChecksAlike tune s := by
  intro i hb a
  unfold operandChanges
  rw [h i hb]

theorem bookChanges_tuned (h : ChecksAlike tune s) (a : Assembly) :
    bookChanges { a with settings := tune a.settings } s = bookChanges a s := by
  unfold bookChanges
  cases hb : s.body with
  | instruction i =>
      dsimp only
      rw [h i hb]
      rfl
  | directive d value => cases d <;> rfl
  | remark => rfl

theorem agree_placeLine {number : Nat} {text : String}
    (h : ∀ offset s, Statement.parse file text number offset = .ok s → ChecksAlike tune s) :
    Agree (Retuned tune file) (placeLine number text) (placeLine number text) := by
  rw [placeLine_eq]
  refine .get_bind ?_
  rintro a _ ⟨rfl, rfl⟩
  have hsame : lineChanges { a with settings := tune a.settings } number text = lineChanges a number text := by
    unfold lineChanges
    cases hparse : Statement.parse a.file text number a.pc with
    | ok s => exact congrArg (.place s :: ·) (bookChanges_tuned (h a.pc s hparse) a)
    | error failure => cases failure <;> rfl
  rw [hsame]
  exact (agree_changes _).bind fun _ => .orFault _

theorem agree_placeLines (number : Nat) (lines : List String)
    (h : ∀ k text offset s, lines[k]? = some text → Text.isBlankText text.toList = false →
      Statement.parse file text (number + k : Nat) offset = .ok s → ChecksAlike tune s) :
    Agree (Retuned tune file) (placeLines number lines) (placeLines number lines) := by
  induction lines generalizing number with
  | nil => exact .pure []
  | cons text rest ih =>
      have hrest := ih (number + 1) fun k line offset s hk hv hs =>
        h (k + 1) line offset s hk hv (by rwa [Nat.add_right_comm] at hs)
      unfold placeLines
      split
      · exact hrest
      · rename_i hv
        have hline := agree_placeLine fun offset s hs =>
          h 0 text offset s rfl (by simpa using hv) hs
        exact hline.bind fun _ => hrest.bind fun _ => .pure _

theorem agree_pass1 (lines : List String)
    (h : ∀ k text offset s, lines[k]? = some text → Text.isBlankText text.toList = false →
      Statement.parse file text (1 + k : Nat) offset = .ok s → ChecksAlike tune s) :
    Agree (Retuned tune file) (pass1 lines) (pass1 lines) := by
  refine .get_bind ?_
  rintro a _ ⟨-, rfl⟩
  dsimp only
  split
  · exact .throw _
  · have hlines := agree_untilFull (agree_note _) (agree_placeLines 1 lines h).discard
    exact (agree_enter _).bind fun _ => hlines.bind fun _ => agree_close _ fun _ _ => rfl

/-! ## The second pass -/

theorem agree_resolveAll
    (h : ∀ settings, (tune settings).relativeAddressing = settings.relativeAddressing) :
    Agree (Retuned tune file) resolveAll resolveAll := by
  rw [resolveAll_eq]
  refine .get_bind ?_
  rintro a _ ⟨-, rfl⟩
  have hsame : resolveChanges { a with settings := tune a.settings } = resolveChanges a := by
    unfold resolveChanges
    rw [h]
    rfl
  rw [hsame]
  exact agree_changes _

theorem agree_pass2 (h : ∀ settings, (tune settings).relativeAddressing = settings.relativeAddressing) :
    Agree (Retuned tune file) pass2 pass2 := by
  refine .get_bind ?_
  rintro a _ ⟨-, rfl⟩
  dsimp only
  split
  · exact .throw _
  · split
    · exact (agree_note _ _).bind fun _ => .pure _
    · have hresolve := agree_untilFull (agree_note _) (agree_resolveAll h : Agree (Retuned tune file) _ _)
      refine (agree_enter _).bind fun _ => hresolve.bind fun _ => .get_bind ?_
      rintro b _ ⟨-, rfl⟩
      dsimp only
      split
      · exact agree_close _ fun _ _ => rfl
      · rw [warnTruncations_eq]
        exact (agree_changes _).bind fun _ => agree_close _ fun _ _ => rfl

theorem agree_generateObject : Agree (Retuned tune file) generateObject generateObject := by
  refine .get_bind ?_
  rintro a _ ⟨-, rfl⟩
  have hlength : ({ a with settings := tune a.settings } : Assembly).length = a.length := rfl
  have hready : ({ a with settings := tune a.settings } : Assembly).isResolved = a.isResolved := rfl
  simp only [hlength, hready]
  split
  · exact (agree_note _ _).bind fun _ => .pure _
  · split
    · exact .throw _
    · exact (Agree.orFault _).bind fun p =>
        .bind (agree_modify fun _ _ => ⟨rfl, rfl, rfl⟩) fun _ =>
          (agree_note _ _).bind fun _ => .pure _

end TwoPass.Assembly
