import TwoPass.Proofs.Assembly.Completion
import TwoPass.Proofs.Assembly.Scope

/-!
Calls on an assembly, in any order. A call goes on with the work, or it is refused and changes nothing but the
journal, and the phase never goes back. As long as lines are placed by the first pass alone, an object program
that has been made stays what it is.
-/

namespace TwoPass

open TwoPass.Action (Ends discard_error_iff discard_ok_iff ends_bind ends_discard ends_get ends_modify)

def Phase.rank : Phase → Nat
  | .fresh => 0
  | .pass1Running => 1
  | .pass1Done => 2
  | .pass2Running => 3
  | .pass2Done => 4
  | .objectGenerated => 5

/-- The failure of a call that the phase does not allow. -/
def Failure.isOutOfOrder : Failure → Bool
  | .diagnostic { cause := .outOfOrder _ _ _, .. } => true
  | _ => false

namespace Assembly

variable {α : Type} {a b : Assembly}

/-! ## The passes from the phase that they ask for -/

theorem Grown.in_phase {scope : Scope} {placed : List Statement} {new : List Diagnostic}
    (h : Grown scope a b placed new) (phase : Phase) (journal : List JournalEntry) :
    Grown scope { a with phase } { b with phase, journal } placed new :=
  ⟨by rw [h.kept], h.placed, h.reported⟩

theorem Breaks.halted {scope : Scope} {failure : Failure} {placed : List Statement} {new : List Diagnostic}
    (h : Breaks scope a failure b placed new) : Halted failure b := by
  rcases h.cause with ⟨hne, hfull, rfl⟩ | ⟨fault, -, rfl⟩
  · refine .inl ⟨rfl, Bool.and_eq_true_iff.mpr ⟨?_, hfull⟩⟩
    simp [ErrorLog.hasErrors, h.grown.errors, hne]
  · exact .inr ⟨fault, rfl⟩

theorem parseLines_grown (lines : List String) (a : Assembly) : Ends (parseLines lines) a
    (fun _ b => ∃ placed new, Grown (.lines a.file 1 lines) a b placed new)
    (fun failure b => (∃ placed new, Grown (.lines a.file 1 lines) a b placed new) ∧ Halted failure b) := by
  refine (keeps_placeLines 1 lines a rfl).mono ?_ ?_
  · rintro _ b ⟨placed, new, h⟩
    exact ⟨placed, new, h.grown⟩
  · rintro failure b ⟨placed, new, h⟩
    exact ⟨⟨placed, new, h.grown⟩, h.halted⟩

/-- What the first pass makes of the way in which the placing of its lines ends. -/
theorem pass1_parseLines (lines : List String) (ha : a.phase = .fresh) :
    Ends (pass1 lines) a
      (fun ok b => ok = !b.errors.hasErrors ∧ ∃ c journal, b = { c with phase := .pass1Done, journal } ∧
        ((∃ results, parseLines lines { a with phase := .pass1Running } = .ok results c) ∨
          ∃ failure, parseLines lines { a with phase := .pass1Running } = .error failure c ∧ Stopped failure c))
      (fun failure b => parseLines lines { a with phase := .pass1Running } = .error failure b ∧
        ∃ fault, failure = .fault fault) := by
  have hhalted := ends_discard.mpr ((parseLines_grown lines { a with phase := .pass1Running }).mono
    (fun _ _ _ => trivial) fun _ _ h => h.2)
  simp only [pass1, ends_bind, ends_get]
  rw [if_neg (by simp [ha]), ends_bind, enter, ends_modify, ends_bind]
  refine (untilFull_cases hhalted).mono ?_ ?_
  · rintro _ _ ⟨c, journal, rfl, hc⟩
    refine ⟨rfl, c, _, rfl, hc.imp discard_ok_iff.mp ?_⟩
    rintro ⟨failure, hrun, hstopped⟩
    exact ⟨failure, discard_error_iff.mp hrun, hstopped⟩
  · rintro failure b ⟨hrun, hfault⟩
    exact ⟨discard_error_iff.mp hrun, hfault⟩

theorem pass1_fresh (lines : List String) (ha : a.phase = .fresh) : Ends (pass1 lines) a
    (fun _ b => ∃ placed new, Grown (.lines a.file 1 lines) { a with phase := .pass1Done } b placed new)
    (fun failure b =>
      (∃ placed new, Grown (.lines a.file 1 lines) { a with phase := .pass1Running } b placed new) ∧
        ∃ fault, failure = .fault fault) := by
  have hgrown := parseLines_grown lines { a with phase := .pass1Running }
  refine (pass1_parseLines lines ha).mono ?_ ?_
  · rintro _ _ ⟨-, c, journal, rfl, ⟨results, hrun⟩ | ⟨failure, hrun, -⟩⟩
    · obtain ⟨placed, new, hg⟩ := hgrown.of_ok hrun
      exact ⟨placed, new, hg.in_phase .pass1Done journal⟩
    · obtain ⟨placed, new, hg⟩ := (hgrown.of_error hrun).1
      exact ⟨placed, new, hg.in_phase .pass1Done journal⟩
  · rintro failure b ⟨hrun, hfault⟩
    exact ⟨(hgrown.of_error hrun).1, hfault⟩

theorem pass1_grown (lines : List String) (ha : a.phase = .fresh) :
    ∃ phase placed new, Grown (.lines a.file 1 lines) { a with phase } ((pass1 lines).after a) placed new := by
  refine Ends.after
    (P := fun b => ∃ phase placed new, Grown (.lines a.file 1 lines) { a with phase } b placed new)
    ((pass1_fresh lines ha).mono ?_ ?_)
  · exact fun _ b hg => ⟨.pass1Done, hg⟩
  · exact fun _ b hg => ⟨.pass1Running, hg.1⟩

theorem resolveAll_phase (a : Assembly) : Ends resolveAll a (fun _ b => b.phase = a.phase)
    (fun failure b => b.phase = a.phase ∧ Halted failure b) := by
  rw [resolveAll_eq, ends_bind, ends_get]
  refine runAll_ends (I := fun b => b.phase = a.phase) (fun change _ b hb => ?_) ?_ rfl
  · exact (change.phase_effect b).trans hb
  · exact fun change _ b failure hb hfailure => ⟨hb, Change.halted_of_failure? hfailure⟩

theorem pass2_ran (ha : a.phase = .pass1Done) (hclean : a.errors.hasErrors = false) :
    Ends pass2 a (fun _ b => b.phase = .pass2Done)
      (fun failure b => b.phase = .pass2Running ∧ ∃ fault, failure = .fault fault) := by
  have hstays := resolveAll_phase { a with phase := .pass2Running }
  have hhalted := hstays.mono (fun _ _ _ => trivial) fun _ _ h => h.2
  simp only [pass2, ends_bind, ends_get]
  rw [if_neg (by simp [ha]), if_neg (by simp [hclean]), ends_bind, enter, ends_modify, ends_bind]
  -- The error limit does not keep the pass from its end, only a fault does.
  refine (untilFull_cases hhalted).mono (fun _ b _ => ?_) ?_
  · rw [ends_bind, ends_get]
    split
    · exact rfl
    · exact (warnTruncations_ends b.statements).bind fun _ c _ => rfl
  · rintro failure b ⟨hrun, hfault⟩
    exact ⟨(hstays.of_error hrun).1, hfault⟩

/-- A second pass that ends without an error has resolved the statements. -/
theorem pass2_resolved (ha : a.phase = .pass1Done) (hclean : a.errors.hasErrors = false) :
    Ends pass2 a
      (fun _ b => b.phase = .pass2Done ∧ b.file = a.file ∧ b.object = a.object ∧
        (b.errors.hasErrors = false → Resolved a b))
      (fun _ b => b.phase = .pass2Running ∧ b.file = a.file ∧ b.object = a.object) := by
  refine ((pass2_ran ha hclean).and (pass2_passed a)).mono ?_ ?_
  · rintro ok b ⟨hphase, hpassed⟩
    refine ⟨hphase, by rw [hpassed.reworked.kept], by rw [hpassed.reworked.kept], fun hb => ?_⟩
    refine (hpassed.resolved ?_).2
    rw [hpassed.answer, hb]
    rfl
  · rintro failure b ⟨⟨hphase, -⟩, hreworked⟩
    exact ⟨hphase, by rw [hreworked.kept], by rw [hreworked.kept]⟩

/-! ## Order -/

/-- The action is refused in the present phase. -/
def OutOfOrder (x : Action α) (a : Assembly) : Prop :=
  ∃ failure b, x a = .error failure b ∧ failure.isOutOfOrder = true

theorem not_outOfOrder {x : Action α} {Q : α → Assembly → Prop} {E : Failure → Assembly → Prop}
    (h : Ends x a Q fun failure b => E failure b ∧ ∃ fault, failure = .fault fault) : ¬ OutOfOrder x a := by
  rintro ⟨failure, b, hx, ho⟩
  obtain ⟨-, fault, rfl⟩ := h.of_error hx
  cases ho

theorem pass1_refused (lines : List String) (ha : a.phase ≠ .fresh) :
    pass1 lines a = .error (outOfOrder "pass 1" a.phase) a := by
  rw [pass1, Action.bind_run, Action.get_run]
  dsimp only
  rw [if_pos ha, Action.throw_run]

theorem pass2_refused (ha : a.phase ≠ .pass1Done) : pass2 a = .error (outOfOrder "pass 2" a.phase) a := by
  rw [pass2, Action.bind_run, Action.get_run]
  dsimp only
  rw [if_pos ha, Action.throw_run]

theorem pass2_skipped (ha : a.phase = .pass1Done) (he : a.errors.hasErrors = true) :
    ∃ journal, pass2 a = .ok false { a with journal } := by
  rw [pass2, Action.bind_run, Action.get_run]
  dsimp only
  rw [if_neg (by simp [ha]), if_pos he]
  exact ⟨_, rfl⟩

theorem generateObject_skipped (he : a.errors.hasErrors = true) :
    ∃ journal, generateObject a = .ok none { a with journal } := by
  rw [generateObject, Action.bind_run, Action.get_run]
  dsimp only
  rw [if_pos he]
  exact ⟨_, rfl⟩

theorem generateObject_refused (he : a.errors.hasErrors = false) (ha : a.isResolved = false) :
    generateObject a = .error (outOfOrder "object generation" a.phase) a := by
  rw [generateObject, Action.bind_run, Action.get_run]
  dsimp only
  rw [if_neg (by simp [he]), if_pos (by simp [ha]), Action.throw_run]

theorem generateObject_ready (he : a.errors.hasErrors = false) (ha : a.isResolved = true) :
    match ObjectProgram.build a.limit a.statements a.name a.start a.length with
    | .ok p => ∃ journal, generateObject a =
        .ok (some p) { a with object := some p, phase := .objectGenerated, journal }
    | .error fault => generateObject a = .error (.fault fault) a := by
  rw [generateObject, Action.bind_run, Action.get_run]
  dsimp only
  rw [if_neg (by simp [he]), if_neg (by simp [ha]), Action.bind_run]
  split
  · rename_i p hp
    rw [hp, Action.orFault_ok]
    exact ⟨_, rfl⟩
  · rename_i fault hp
    rw [hp, Action.orFault_error]

theorem generateObject_some {p : ObjectProgram} (h : generateObject a = .ok (some p) b) :
    a.errors.hasErrors = false ∧ a.isResolved = true := by
  cases he : a.errors.hasErrors with
  | true =>
      obtain ⟨journal, hskip⟩ := generateObject_skipped he
      rw [hskip] at h
      cases h
  | false =>
      cases hr : a.isResolved with
      | true => exact ⟨rfl, rfl⟩
      | false =>
          rw [generateObject_refused he hr] at h
          cases h

theorem pass1_outOfOrder_iff (lines : List String) : OutOfOrder (pass1 lines) a ↔ a.phase ≠ .fresh :=
  ⟨fun h ha => not_outOfOrder (pass1_fresh lines ha) h, fun ha => ⟨_, _, pass1_refused lines ha, rfl⟩⟩

theorem pass2_outOfOrder_iff : OutOfOrder pass2 a ↔ a.phase ≠ .pass1Done := by
  refine ⟨fun h ha => ?_, fun ha => ⟨_, _, pass2_refused ha, rfl⟩⟩
  cases he : a.errors.hasErrors with
  | true =>
      obtain ⟨journal, hok⟩ := pass2_skipped ha he
      obtain ⟨failure, b, hx, -⟩ := h
      rw [hok] at hx
      cases hx
  | false => exact not_outOfOrder (pass2_ran ha he) h

theorem generateObject_outOfOrder_iff :
    OutOfOrder generateObject a ↔ a.errors.hasErrors = false ∧ a.isResolved = false := by
  refine ⟨?_, fun ⟨he, ha⟩ => ⟨_, _, generateObject_refused he ha, rfl⟩⟩
  rintro ⟨failure, b, hx, ho⟩
  cases he : a.errors.hasErrors with
  | true =>
      obtain ⟨journal, hok⟩ := generateObject_skipped he
      rw [hok] at hx
      cases hx
  | false =>
      refine ⟨rfl, Bool.eq_false_iff.mpr fun ha => ?_⟩
      have hready := generateObject_ready he ha
      split at hready
      · obtain ⟨journal, hok⟩ := hready
        rw [hok] at hx
        cases hx
      · rw [hready] at hx
        cases hx
        cases ho

/-! ## Calls -/

inductive Call
  | parseLines (lines : List String)
  | pass1 (lines : List String)
  | pass2
  | generateObject
  deriving DecidableEq, Repr

/-- The assembly that a call leaves, whether or not it fails. -/
def Call.after (a : Assembly) : Call → Assembly
  | .parseLines lines => (Assembly.parseLines lines).after a
  | .pass1 lines => (Assembly.pass1 lines).after a
  | .pass2 => Assembly.pass2.after a
  | .generateObject => Assembly.generateObject.after a

/-- All calls but the placing of lines by themselves ask for a phase. -/
def Call.isGated : Call → Bool
  | .parseLines _ => false
  | _ => true

/-- The assembly after calls, one after the other. -/
def run (calls : List Call) (a : Assembly) : Assembly :=
  calls.foldl Call.after a

theorem run_append (calls more : List Call) (a : Assembly) : run (calls ++ more) a = run more (run calls a) :=
  List.foldl_append

theorem run_snoc (calls : List Call) (c : Call) (a : Assembly) : run (calls ++ [c]) a = c.after (run calls a) :=
  run_append calls [c] a

/-- What a call may do. -/
inductive Step (a : Assembly) : Call → Assembly → Prop
  | refused (c : Call) (journal : List JournalEntry) : Step a c { a with journal }
  | lines {lines : List String} {b : Assembly} {placed : List Statement} {new : List Diagnostic} :
      Grown (.lines a.file 1 lines) a b placed new → Step a (.parseLines lines) b
  | first {lines : List String} {b : Assembly} : a.phase = .fresh →
      b.phase = .pass1Running ∨ b.phase = .pass1Done → b.file = a.file → b.object = a.object →
      Step a (.pass1 lines) b
  | second {b : Assembly} : a.phase = .pass1Done → b.phase = .pass2Running ∨ b.phase = .pass2Done →
      b.file = a.file → b.object = a.object →
      (b.phase = .pass2Done → b.errors.hasErrors = false → Resolved a b) → Step a .pass2 b
  | made {p : ObjectProgram} (journal : List JournalEntry) : a.errors.hasErrors = false → a.isResolved = true →
      ObjectProgram.build a.limit a.statements a.name a.start a.length = .ok p →
      Step a .generateObject { a with object := some p, phase := .objectGenerated, journal }

theorem Call.step (a : Assembly) (c : Call) : Step a c (c.after a) := by
  cases c with
  | parseLines lines =>
      obtain ⟨placed, new, h⟩ := ((parseLines_grown lines a).imp_error fun _ _ h => h.1).after
      exact .lines h
  | pass1 lines =>
      by_cases ha : a.phase = .fresh
      · refine Ends.after ((pass1_fresh lines ha).mono ?_ ?_)
        · rintro _ b ⟨placed, new, h⟩
          exact .first ha (.inr h.phase) h.file h.object
        · rintro _ b ⟨⟨placed, new, h⟩, -⟩
          exact .first ha (.inl h.phase) h.file h.object
      · have hrefused : (Assembly.pass1 lines).after a = a := by rw [Action.after, pass1_refused lines ha]
        rw [Call.after, hrefused]
        exact .refused _ a.journal
  | pass2 =>
      by_cases ha : a.phase = .pass1Done
      · cases he : a.errors.hasErrors with
        | true =>
            obtain ⟨journal, h⟩ := pass2_skipped ha he
            rw [Call.after, Action.after, h]
            exact .refused _ journal
        | false =>
            refine Ends.after (P := Step a .pass2) ((pass2_resolved ha he).mono ?_ ?_)
            · rintro ok b ⟨hphase, hfile, hobject, hresolved⟩
              exact .second ha (.inr hphase) hfile hobject fun _ => hresolved
            · rintro failure b ⟨hphase, hfile, hobject⟩
              refine .second ha (.inl hphase) hfile hobject fun h => ?_
              rw [hphase] at h
              cases h
      · have hrefused : Assembly.pass2.after a = a := by rw [Action.after, pass2_refused ha]
        rw [Call.after, hrefused]
        exact .refused _ a.journal
  | generateObject =>
      cases he : a.errors.hasErrors with
      | true =>
          obtain ⟨journal, h⟩ := generateObject_skipped he
          rw [Call.after, Action.after, h]
          exact .refused _ journal
      | false =>
          cases hr : a.isResolved with
          | false =>
              rw [Call.after, Action.after, generateObject_refused he hr]
              exact .refused _ a.journal
          | true =>
              have hready := generateObject_ready he hr
              split at hready
              · rename_i p hp
                obtain ⟨journal, h⟩ := hready
                rw [Call.after, Action.after, h]
                exact .made journal he hr hp
              · rw [Call.after, Action.after, hready]
                exact .refused _ a.journal

/-- What holds at first and is kept by every step holds after any calls. -/
theorem run_induct {P : List Call → Assembly → Prop} (hnil : P [] a)
    (hstep : ∀ calls c b, run (calls ++ [c]) a = b → Step (run calls a) c b → P calls (run calls a) →
      P (calls ++ [c]) b) (calls : List Call) : P calls (run calls a) := by
  induction calls using List.reverseRecOn with
  | nil => exact hnil
  | append_singleton calls c ih =>
      rw [run_snoc]
      exact hstep calls c _ (run_snoc calls c a) (c.step _) ih

/-! ## The phase and the object program -/

theorem Step.rank_le {c : Call} (h : Step a c b) : a.phase.rank ≤ b.phase.rank := by
  cases h with
  | refused journal => exact Nat.le_refl _
  | lines h => rw [h.phase]
  | first ha hb => rcases hb with hb | hb <;> rw [ha, hb] <;> decide
  | second ha hb => rcases hb with hb | hb <;> rw [ha, hb] <;> decide
  | made journal he hr hp =>
      change a.phase.rank ≤ Phase.objectGenerated.rank
      cases a.phase <;> decide

theorem rank_le_run (calls : List Call) (a : Assembly) : a.phase.rank ≤ (run calls a).phase.rank :=
  run_induct (P := fun _ b => a.phase.rank ≤ b.phase.rank) (Nat.le_refl _)
    (fun _ _ _ _ h ih => Nat.le_trans ih h.rank_le) calls

theorem Step.file {c : Call} (h : Step a c b) : b.file = a.file := by
  cases h with
  | refused journal => rfl
  | lines h => exact h.file
  | first ha hb hfile hobject => exact hfile
  | second ha hb hfile hobject hresolved => exact hfile
  | made journal he hr hp => rfl

theorem file_run (calls : List Call) (a : Assembly) : (run calls a).file = a.file :=
  run_induct (P := fun _ b => b.file = a.file) rfl (fun _ _ _ _ h ih => h.file.trans ih) calls

/-- The object program has been made and is still the one that the statements give. -/
structure Stored (a : Assembly) (p : ObjectProgram) : Prop where
  phase : a.phase = .objectGenerated
  clean : a.errors.hasErrors = false
  object : a.object = some p
  build : ObjectProgram.build a.limit a.statements a.name a.start a.length = .ok p

/-- There is no object program before the last phase. -/
def Consistent (a : Assembly) : Prop :=
  a.phase ≠ .objectGenerated ∧ a.object = none ∨ ∃ p, Stored a p

theorem Step.stored {c : Call} {p : ObjectProgram} (h : Step a c b) (hc : c.isGated = true) (ha : Stored a p) :
    Stored b p := by
  cases h with
  | refused journal => exact ⟨ha.phase, ha.clean, ha.object, ha.build⟩
  | lines h => cases hc
  | first hphase => rw [ha.phase] at hphase; cases hphase
  | second hphase => rw [ha.phase] at hphase; cases hphase
  | made journal he hr hp =>
      rw [ha.build] at hp
      cases hp
      exact ⟨rfl, he, rfl, ha.build⟩

theorem Step.consistent {c : Call} (h : Step a c b) (hc : c.isGated = true) (ha : Consistent a) :
    Consistent b := by
  rcases ha with ⟨hphase, hobject⟩ | ⟨p, hp⟩
  · cases h with
    | refused journal => exact .inl ⟨hphase, hobject⟩
    | lines h => cases hc
    | first ha hb hfile hkept => exact .inl ⟨by rcases hb with hb | hb <;> simp [hb], hkept.trans hobject⟩
    | second ha hb hfile hkept => exact .inl ⟨by rcases hb with hb | hb <;> simp [hb], hkept.trans hobject⟩
    | made journal he hr hp => exact .inr ⟨_, rfl, he, rfl, hp⟩
  · exact .inr ⟨p, h.stored hc hp⟩

theorem Stored.run {p : ObjectProgram} (ha : Stored a p) {calls : List Call}
    (hcalls : ∀ c ∈ calls, c.isGated = true) : Stored (run calls a) p := by
  refine run_induct (P := fun calls b => (∀ c ∈ calls, c.isGated = true) → Stored b p) (fun _ => ha) ?_
    calls hcalls
  intro calls c b _ h ih hall
  rw [List.forall_mem_append] at hall
  exact h.stored (hall.2 c (by simp)) (ih hall.1)

theorem Consistent.run (ha : Consistent a) {calls : List Call} (hcalls : ∀ c ∈ calls, c.isGated = true) :
    Consistent (run calls a) := by
  refine run_induct (P := fun calls b => (∀ c ∈ calls, c.isGated = true) → Consistent b) (fun _ => ha) ?_
    calls hcalls
  intro calls c b _ h ih hall
  rw [List.forall_mem_append] at hall
  exact h.consistent (hall.2 c (by simp)) (ih hall.1)

theorem Stored.value? {p : ObjectProgram} (ha : Stored a p) : generateObject.value? a = some (some p) := by
  have hready := generateObject_ready ha.clean (by simp [isResolved, ha.phase])
  rw [ha.build] at hready
  obtain ⟨journal, h⟩ := hready
  rw [Action.value?, h]

theorem create_fresh {settings : Settings} {file : String} {a₀ : Assembly} (h : create settings file = .ok a₀) :
    a₀.phase = .fresh ∧ a₀.object = none ∧ a₀.statements = [] ∧ a₀.errors.errors = [] := by
  obtain ⟨limit, -, rfl⟩ := create_eq_ok_iff.mp h
  exact ⟨rfl, rfl, rfl, rfl⟩

/-- A call that the phase does not allow, or that errors in the log keep from running. -/
def Call.Refused (a : Assembly) : Call → Prop
  | .parseLines _ => False
  | .pass1 lines => OutOfOrder (Assembly.pass1 lines) a
  | .pass2 => OutOfOrder Assembly.pass2 a ∨ a.errors.hasErrors = true
  | .generateObject => OutOfOrder Assembly.generateObject a ∨ a.errors.hasErrors = true

theorem Call.Refused.after {c : Call} (h : c.Refused a) : ∃ journal, c.after a = { a with journal } := by
  cases c with
  | parseLines lines => exact h.elim
  | pass1 lines =>
      refine ⟨a.journal, ?_⟩
      rw [Call.after, Action.after, pass1_refused lines ((pass1_outOfOrder_iff lines).mp h)]
  | pass2 =>
      by_cases ha : a.phase = .pass1Done
      · have he := h.resolve_left fun ho => pass2_outOfOrder_iff.mp ho ha
        obtain ⟨journal, hskip⟩ := pass2_skipped ha he
        exact ⟨journal, by rw [Call.after, Action.after, hskip]⟩
      · exact ⟨a.journal, by rw [Call.after, Action.after, pass2_refused ha]⟩
  | generateObject =>
      rcases h with ho | he
      · obtain ⟨he, hr⟩ := generateObject_outOfOrder_iff.mp ho
        exact ⟨a.journal, by rw [Call.after, Action.after, generateObject_refused he hr]⟩
      · obtain ⟨journal, hskip⟩ := generateObject_skipped he
        exact ⟨journal, by rw [Call.after, Action.after, hskip]⟩

theorem Consistent.isSome_iff (h : Consistent a) : a.object.isSome = true ↔ a.phase = .objectGenerated := by
  rcases h with ⟨hphase, hobject⟩ | ⟨p, hp⟩
  · simp [hphase, hobject]
  · simp [hp.phase, hp.object]

theorem Consistent.stored {p : ObjectProgram} (h : Consistent a) (ha : a.object = some p) : Stored a p := by
  rcases h with ⟨-, hobject⟩ | ⟨q, hq⟩
  · rw [hobject] at ha
    cases ha
  · have hsame := hq.object
    rw [ha] at hsame
    cases hsame
    exact hq

/-- The order of the gated calls is enforced. Whatever has been called before, a call is out of order in
exactly the stated phases; one that is refused changes nothing but the journal; the object program is there in
the last phase only and does not change any more. -/
theorem run_gated {settings : Settings} {file : String} {a₀ : Assembly} {calls : List Call}
    (h : create settings file = .ok a₀) (hcalls : ∀ c ∈ calls, c.isGated = true) :
    let a := run calls a₀
    (∀ more, a.phase.rank ≤ (run more a).phase.rank) ∧
    (∀ lines, OutOfOrder (pass1 lines) a ↔ a.phase ≠ .fresh) ∧
    (OutOfOrder pass2 a ↔ a.phase ≠ .pass1Done) ∧
    (OutOfOrder generateObject a ↔
      a.errors.hasErrors = false ∧ a.phase ≠ .pass2Done ∧ a.phase ≠ .objectGenerated) ∧
    (∀ c : Call, c.Refused a → ∃ journal, c.after a = { a with journal }) ∧
    (a.object.isSome = true ↔ a.phase = .objectGenerated) ∧
    (a.phase = .objectGenerated → a.errors.hasErrors = false) ∧
    ∀ p more, a.object = some p → (∀ c ∈ more, c.isGated = true) →
      (run more a).object = some p ∧ generateObject.value? (run more a) = some (some p) := by
  intro a
  obtain ⟨hfresh, hnone, -⟩ := create_fresh h
  have hstart : Consistent a₀ := .inl ⟨by simp [hfresh], hnone⟩
  have ha : Consistent a := hstart.run hcalls
  refine ⟨fun more => rank_le_run more a, fun lines => pass1_outOfOrder_iff lines, pass2_outOfOrder_iff, ?_,
    fun c hc => hc.after, ha.isSome_iff, fun hphase => ?_, fun p more hp hmore => ?_⟩
  · rw [generateObject_outOfOrder_iff]
    simp [isResolved]
  · obtain ⟨p, hp⟩ := Option.isSome_iff_exists.mp (ha.isSome_iff.mpr hphase)
    exact (ha.stored hp).clean
  · have hstored := (ha.stored hp).run hmore
    exact ⟨hstored.object, hstored.value?⟩

/-- The object program is asked for too early, then made; a second first pass is refused. -/
theorem run_gated_twice :
    let calls := [Call.generateObject, .pass1 ["        LDA    5"], .pass2, .generateObject, .pass1 []]
    ∃ a₀ p, create {} "twice.asm" = .ok a₀ ∧ (∀ c ∈ calls, c.isGated = true) ∧
      OutOfOrder generateObject a₀ ∧ OutOfOrder (pass1 []) (run calls a₀) ∧ (run calls a₀).object = some p ∧
      generateObject.value? (run (calls ++ calls) a₀) = some (some p) := by
  intro calls
  have hgated : ∀ c ∈ calls, c.isGated = true := by decide
  obtain ⟨a₀, h⟩ : ∃ a₀, create {} "twice.asm" = .ok a₀ := ⟨_, rfl⟩
  have hphase : (run calls a₀).phase = .objectGenerated := by cases h; decide +kernel
  obtain ⟨-, -, -, hearly, -⟩ := run_gated h (by simp : ∀ c ∈ ([] : List Call), c.isGated = true)
  obtain ⟨-, hfirst, -, -, -, hsome, -, hagain⟩ := run_gated h hgated
  obtain ⟨p, hp⟩ := Option.isSome_iff_exists.mp (hsome.mpr hphase)
  refine ⟨a₀, p, h, hgated, hearly.mpr ?_, (hfirst []).mpr (by simp [hphase]), hp, ?_⟩
  · cases h; decide
  · rw [run_append]
    exact (hagain p calls hp hgated).2

end Assembly

end TwoPass
