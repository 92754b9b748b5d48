import TwoPass.Proofs.Assembly.Truncation

/-!
The passes under two error limits. A pass that meets the smaller limit ends as other passes do, and what comes
behind it is skipped in both runs, so that they stay together to the end.
-/

namespace TwoPass.Assembly

open TwoPass.Action (Agree Ends bind_eq_ok bind_run ends_bind ends_get ends_modify)

variable {α : Type} {n : Int} {a b c : Assembly}

/-! ## Actions that log no errors -/

/-- The second assembly is the first under the limit `n`. -/
def Twin (n : Int) (a b : Assembly) : Prop :=
  b = a.limited n

theorem limitedResult_of_agree {x : Action α} (h : Agree (Twin n) x x) (a : Assembly) :
    x (a.limited n) = limitedResult n (x a) := by
  rcases (h a _ rfl).cases with ⟨value, b, hx, _, hy, rfl⟩ | ⟨failure, b, hx, _, hy, rfl⟩
  · rw [hx, hy]
    rfl
  · rw [hx, hy]
    rfl

theorem twin_modify {g : Assembly → Assembly} (h : ∀ a, g (limited n a) = (g a).limited n) :
    Agree (Twin n) (modify g) (modify g) := by
  refine .modify ?_
  rintro a _ rfl
  exact h a

theorem twin_note (level : Level) (message : String) : Agree (Twin n) (note level message) (note level message) :=
  twin_modify fun _ => rfl

theorem twin_warnTruncations (n : Int) (l : List Statement) : Agree (Twin n) (warnTruncations l) (warnTruncations l) := by
  rw [warnTruncations_eq]
  refine agree_runAll (forall_mem_truncationChanges ?_ ?_)
  · exact fun _ _ => twin_modify fun _ => rfl
  · exact fun _ => twin_modify fun _ => rfl

theorem twin_generateObject (n : Int) : Agree (Twin n) generateObject generateObject := by
  refine .get_bind ?_
  rintro a _ rfl
  have hlength : (a.limited n).length = a.length := rfl
  have hready : (a.limited n).isResolved = a.isResolved := rfl
  have herrors : (a.limited n).errors.hasErrors = a.errors.hasErrors := rfl
  simp only [hlength, hready, herrors]
  split
  · exact (twin_note _ _).bind fun _ => .pure _
  · split
    · exact .throw _
    · exact (Agree.orFault _).bind fun p =>
        .bind (twin_modify fun _ => rfl) fun _ => (twin_note _ _).bind fun _ => .pure _

/-! ## Passes -/

theorem untilFull_same {x : Action Unit} (h : x (a.limited n) = limitedResult n (x a)) :
    untilFull x (a.limited n) = limitedResult n (untilFull x a) := by
  cases hx : x a with
  | ok value b =>
      rw [hx] at h
      rw [untilFull, h, untilFull, hx]
      rfl
  | error failure b =>
      rw [hx] at h
      rw [untilFull_eq_caught h, untilFull_eq_caught hx]
      unfold caught
      split <;> rfl

theorem discard_same {x : Action α} (h : x (a.limited n) = limitedResult n (x a)) :
    (discard x) (a.limited n) = limitedResult n ((discard x) a) := by
  have hdiscard : discard x = (fun _ => PUnit.unit) <$> x := rfl
  rw [hdiscard, Action.map_run, Action.map_run, h]
  cases x a <;> rfl

theorem pass1_same {lines : List String} (ha : a.phase = .fresh)
    (h : parseLines lines (limited n { a with phase := .pass1Running }) =
      limitedResult n (parseLines lines { a with phase := .pass1Running })) :
    pass1 lines (a.limited n) = limitedResult n (pass1 lines a) := by
  have hu := untilFull_same (discard_same h)
  have henter : { a.limited n with phase := .pass1Running } = limited n { a with phase := .pass1Running } := rfl
  have hphase : (a.limited n).phase = .fresh := ha
  simp only [pass1, bind_run, Action.get_run, enter]
  rw [if_neg (by simp [hphase]), if_neg (by simp [ha])]
  simp only [bind_run, Action.modify_run, henter, hu]
  cases untilFull (do discard (parseLines lines)) { a with phase := .pass1Running } <;> rfl

theorem pass2_same (ha : a.phase = .pass1Done) (hclean : a.errors.hasErrors = false)
    (h : resolveAll (limited n { a with phase := .pass2Running }) =
      limitedResult n (resolveAll { a with phase := .pass2Running })) :
    pass2 (a.limited n) = limitedResult n (pass2 a) := by
  have hu := untilFull_same h
  have henter : { a.limited n with phase := .pass2Running } = limited n { a with phase := .pass2Running } := rfl
  have hphase : (a.limited n).phase = .pass1Done := ha
  have herrors : (a.limited n).errors.hasErrors = false := hclean
  simp only [pass2, bind_run, Action.get_run, enter]
  rw [if_neg (by simp [hphase]), if_neg (by simp [herrors]), if_neg (by simp [ha]), if_neg (by simp [hclean])]
  simp only [bind_run, Action.modify_run, henter, hu]
  cases untilFull resolveAll { a with phase := .pass2Running } with
  | error failure b => rfl
  | ok value b =>
      have hb : (b.limited n).errors.hasErrors = b.errors.hasErrors := rfl
      simp only [limitedResult, Action.get_run, hb]
      cases b.errors.hasErrors with
      | true => rfl
      | false =>
          have hwarn := limitedResult_of_agree (twin_warnTruncations n b.statements) b
          have hstatements : (b.limited n).statements = b.statements := rfl
          simp only [hstatements, bind_run, hwarn, Bool.false_eq_true, if_false]
          cases warnTruncations b.statements b <;> rfl

/-- A pass whose work ended in `e` has ended as `b`: only warnings, phase and journal have changed since. -/
structure Closes (phase : Phase) (e : Assembly) (ok : Bool) (b : Assembly) : Prop where
  ok : ok = !b.errors.hasErrors
  same : ∃ warnings journal, b = { e with phase, errors := { e.errors with warnings }, journal }

/-- A pass that does the work of `x` from `s` on is stopped by a fault and by nothing else. -/
def Runs (phase : Phase) (x : Action α) (s : Assembly) (pass : Action Bool) (a : Assembly) : Prop :=
  Ends pass a (Closes phase (x.after s))
    (fun failure b => x s = .error failure b ∧ ∃ fault, failure = .fault fault)

theorem pass1_runs (lines : List String) (ha : a.phase = .fresh) :
    Runs .pass1Done (parseLines lines) { a with phase := .pass1Running } (pass1 lines) a := by
  refine (pass1_parseLines lines ha).imp ?_
  rintro ok _ ⟨hok, c, journal, rfl, hc⟩
  refine ⟨hok, c.errors.warnings, journal, ?_⟩
  rcases hc with ⟨results, hc⟩ | ⟨failure, hc, -⟩
  · rw [Action.after, hc]
  · rw [Action.after, hc]

theorem pass2_runs (ha : a.phase = .pass1Done) (hclean : a.errors.hasErrors = false) :
    Runs .pass2Done resolveAll { a with phase := .pass2Running } pass2 a := by
  have hhalted := (resolveAll_phase { a with phase := .pass2Running }).mono
    (fun _ _ _ => trivial) fun _ _ h => h.2
  simp only [Runs, pass2, ends_bind, ends_get]
  rw [if_neg (by simp [ha]), if_neg (by simp [hclean]), ends_bind, enter, ends_modify, ends_bind]
  refine (untilFull_cases hhalted).mono ?_ fun _ _ h => h
  rintro _ b ⟨c, journal, rfl, hc⟩
  have hafter : resolveAll.after { a with phase := .pass2Running } = c := by
    rcases hc with hc | ⟨failure, hc, -⟩
    · rw [Action.after, hc]
    · rw [Action.after, hc]
  rw [ends_bind, ends_get, hafter]
  split
  · exact ⟨rfl, c.errors.warnings, _, rfl⟩
  · refine (warnTruncations_ends c.statements).bind fun _ d hd => ?_
    unfold Warned at hd
    rw [hd]
    exact ⟨rfl, d.errors.warnings, _, rfl⟩

/-! ## Two runs -/

/-- The run with the limit `n`, where the other one is at `b`: abreast of it, or stopped at its `n`th error. -/
inductive Trails (n : Int) (b : Assembly) : Assembly → Prop
  | abreast : Room n b → Trails n b (b.limited n)
  | behind {c : Assembly} : (c.errors.errorCount : Int) = n → c.phase = b.phase → Extends c b → Trails n b c

theorem hasErrors_of_errorCount {log : ErrorLog Diagnostic} (h : (1 : Int) ≤ log.errorCount) :
    log.hasErrors = true := by
  unfold ErrorLog.errorCount at h
  rw [ErrorLog.hasErrors, Bool.not_eq_true', List.isEmpty_eq_false_iff]
  intro hnil
  simp [hnil] at h

theorem Extends.hasErrors (h : Extends c b) (hn : 1 ≤ n) (hc : (c.errors.errorCount : Int) = n) :
    c.errors.hasErrors = true ∧ b.errors.hasErrors = true := by
  have hlength := h.errors.length_le
  refine ⟨hasErrors_of_errorCount (by omega), hasErrors_of_errorCount ?_⟩
  unfold ErrorLog.errorCount at hc ⊢
  omega

theorem Closes.hasErrors {phase : Phase} {e : Assembly} {ok : Bool} (h : Closes phase e ok b)
    (he : e.errors.hasErrors = true) : ok = false := by
  obtain ⟨hok, warnings, journal, rfl⟩ := h
  rw [hok]
  exact congrArg not he

/-- A pass keeps two runs together if its work does. -/
theorem Runs.trails {phase : Phase} {x : Action α} {s : Assembly} {pass : Action Bool} {ok : Bool} (hn : 1 ≤ n)
    (htr : Truncates n x s) (hroom : Room n s) (hpass : Runs phase x s pass a)
    (hpass' : Runs phase x (s.limited n) pass (a.limited n))
    (hsame : x (s.limited n) = limitedResult n (x s) → pass (a.limited n) = limitedResult n (pass a))
    (h : pass a = .ok ok b) : ∃ c, pass (a.limited n) = .ok ok c ∧ Trails n b c := by
  have hcloses := hpass.of_ok h
  have hle := hroom.le
  rw [capacity, ← htr.limit] at hle
  by_cases hbelow : Below n (x.after s)
  · have hrun := hsame (htr.same hroom hbelow)
    rw [h] at hrun
    refine ⟨_, hrun, .abreast ?_⟩
    obtain ⟨-, warnings, journal, rfl⟩ := hcloses
    exact ⟨hbelow, hle⟩
  · obtain ⟨failure, d, hd, hstopped, hcount, hext⟩ := htr.cut hroom hbelow
    obtain ⟨hderrors, herrors⟩ := hext.hasErrors hn hcount
    rcases hpass'.cases with ⟨ok', c, hrun, hcloses'⟩ | ⟨_, _, -, hfault, fault, rfl⟩
    · -- Both passes have caught a failure or met errors, so neither is a success.
      rw [Action.after, hd] at hcloses'
      have hfalse : ok' = ok := (hcloses'.hasErrors hderrors).trans (hcloses.hasErrors herrors).symm
      refine ⟨c, hfalse ▸ hrun, ?_⟩
      obtain ⟨-, warnings, journal, rfl⟩ := hcloses
      obtain ⟨-, warnings', journal', rfl⟩ := hcloses'
      exact .behind hcount rfl ⟨hext.errors, hext.symbols, hext.statements⟩
    · cases hd.symm.trans hfault
      cases hstopped.overflow

theorem pass1_trails {lines : List String} {ok : Bool} (hn : 1 ≤ n) (ha : a.phase = .fresh) (hroom : Room n a)
    (h : pass1 lines a = .ok ok b) : ∃ c, pass1 lines (a.limited n) = .ok ok c ∧ Trails n b c := by
  have hwork : Truncates n (parseLines lines) { a with phase := .pass1Running } := truncates_placeLines 1 lines
  have hfirst : (a.limited n).phase = .fresh := ha
  exact (pass1_runs lines ha).trails hn hwork ⟨hroom.below, hroom.le⟩ (pass1_runs lines hfirst) (pass1_same ha) h

theorem pass2_skipped_same (ha : a.phase = .pass1Done) (he : a.errors.hasErrors = true) :
    pass2 (a.limited n) = limitedResult n (pass2 a) := by
  have hphase : (a.limited n).phase = .pass1Done := ha
  have herrors : (a.limited n).errors.hasErrors = true := he
  simp only [pass2, bind_run, Action.get_run]
  rw [if_neg (by simp [hphase]), if_pos herrors, if_neg (by simp [ha]), if_pos he]
  rfl

theorem pass2_trails {ok : Bool} (hn : 1 ≤ n) (ht : Trails n a c) (h : pass2 a = .ok ok b) :
    ∃ d, pass2 c = .ok ok d ∧ Trails n b d := by
  have ha : a.phase = .pass1Done := by
    by_contra ha
    rw [pass2_refused ha] at h
    cases h
  cases ht with
  | behind hcount hphase hext =>
      obtain ⟨hcerrors, haerrors⟩ := hext.hasErrors hn hcount
      obtain ⟨journal, hskip⟩ := pass2_skipped ha haerrors
      obtain ⟨journal', hskip'⟩ := pass2_skipped (hphase.trans ha) hcerrors
      rw [hskip] at h
      cases h
      exact ⟨_, hskip', .behind hcount hphase ⟨hext.errors, hext.symbols, hext.statements⟩⟩
  | abreast hroom =>
      cases he : a.errors.hasErrors with
      | true =>
          have hrun : pass2 (a.limited n) = limitedResult n (pass2 a) := pass2_skipped_same ha he
          obtain ⟨journal, hskip⟩ := pass2_skipped ha he
          rw [h] at hrun hskip
          cases hskip
          exact ⟨_, hrun, .abreast ⟨hroom.below, hroom.le⟩⟩
      | false =>
          have hphase : (a.limited n).phase = .pass1Done := ha
          have hclean : (a.limited n).errors.hasErrors = false := he
          have hwork : Truncates n resolveAll { a with phase := .pass2Running } := truncates_resolveAll
          exact (pass2_runs ha he).trails hn hwork ⟨hroom.below, hroom.le⟩ (pass2_runs hphase hclean)
            (pass2_same ha he) h

theorem generateObject_log (a : Assembly) :
    let kept (b : Assembly) := b.errors = a.errors ∧ (b.phase = a.phase ∨ b.phase = .objectGenerated)
    Ends generateObject a (fun _ => kept) (fun _ => kept) := by
  intro kept
  simp only [generateObject, ends_bind, ends_get]
  split
  · exact ⟨rfl, .inl rfl⟩
  · split
    · exact ⟨rfl, .inl rfl⟩
    · rw [ends_bind]
      cases ObjectProgram.build a.limit a.statements a.name a.start a.length with
      | ok p => exact ⟨rfl, .inr rfl⟩
      | error fault => exact ⟨rfl, .inl rfl⟩

theorem generateObject_trails {object : Option ObjectProgram} (hn : 1 ≤ n) (ht : Trails n a c)
    (h : generateObject a = .ok object b) : ∃ d, generateObject c = .ok object d ∧ Trails n b d := by
  cases ht with
  | behind hcount hphase hext =>
      obtain ⟨hcerrors, haerrors⟩ := hext.hasErrors hn hcount
      obtain ⟨journal, hskip⟩ := generateObject_skipped haerrors
      obtain ⟨journal', hskip'⟩ := generateObject_skipped hcerrors
      rw [hskip] at h
      cases h
      exact ⟨_, hskip', .behind hcount hphase ⟨hext.errors, hext.symbols, hext.statements⟩⟩
  | abreast hroom =>
      have hrun := limitedResult_of_agree (twin_generateObject n) a
      have herrors : b.errors = a.errors := ((generateObject_log a).of_ok h).1
      rw [h] at hrun
      refine ⟨_, hrun, .abreast ⟨?_, ?_⟩⟩
      · rw [Below, herrors]
        exact hroom.below
      · rw [capacity, herrors]
        exact hroom.le

theorem Trails.errors (h : Trails n b c) : c.errors.errors = b.errors.errors.take n.toNat := by
  cases h with
  | abreast hroom =>
      have hbelow := hroom.below
      unfold Below ErrorLog.errorCount at hbelow
      have hall : b.errors.errors.length ≤ n.toNat := by omega
      exact (List.take_of_length_le hall).symm
  | behind hcount _ hext =>
      have hprefix := List.prefix_iff_eq_take.mp hext.errors
      rw [ErrorLog.errorCount] at hcount
      rwa [← hcount, Int.toNat_natCast]

theorem Trails.extends (h : Trails n b c) : Extends c b := by
  cases h with
  | abreast => exact ⟨List.prefix_rfl, List.prefix_rfl, List.prefix_rfl⟩
  | behind _ _ hext => exact hext

/-! ## How many errors there can be -/

theorem Runs.fits {phase : Phase} {x : Action α} {s : Assembly} {pass : Action Bool} (h : Runs phase x s pass a)
    (htr : Truncates n x s) (hopen : Below s.capacity s) :
    let fitting (b : Assembly) := b.errors.limit = s.errors.limit ∧ (b.errors.errorCount : Int) ≤ s.capacity
    Ends pass a (fun _ => fitting) (fun _ => fitting) := by
  have hfits := (htr.fits hopen).1
  refine h.mono ?_ ?_
  · rintro ok b ⟨-, warnings, journal, rfl⟩
    exact ⟨htr.limit, hfits⟩
  · rintro failure b ⟨hx, -⟩
    have hafter : x.after s = b := by rw [Action.after, hx]
    exact ⟨hafter ▸ htr.limit, hafter ▸ hfits⟩

/-- The books of a log with the limit `m` between calls that ask for a phase. -/
structure Bounded (m : Int) (a : Assembly) : Prop where
  limit : a.errors.limit = m
  count : (a.errors.errorCount : Int) ≤ max 1 m
  fresh : a.phase = .fresh → a.errors.errors = []

variable {m : Int}

theorem Bounded.pass1 (h : Bounded m a) (lines : List String) : Bounded m ((pass1 lines).after a) := by
  by_cases ha : a.phase = .fresh
  · have hwork : Truncates 1 (parseLines lines) { a with phase := .pass1Running } := truncates_placeLines 1 lines
    have hopen : Below (capacity { a with phase := .pass1Running }) { a with phase := .pass1Running } := by
      simp only [Below, capacity, ErrorLog.errorCount, h.fresh ha, List.length_nil]
      omega
    refine Ends.after (((pass1_runs lines ha).fits hwork hopen).and (pass1_fresh lines ha) |>.mono ?_ ?_)
    · rintro _ b ⟨⟨hlimit, hcount⟩, placed, new, hg⟩
      exact ⟨hlimit.trans h.limit, h.limit ▸ hcount, fun hb => by cases hg.phase.symm.trans hb⟩
    · rintro _ b ⟨⟨hlimit, hcount⟩, ⟨placed, new, hg⟩, -⟩
      exact ⟨hlimit.trans h.limit, h.limit ▸ hcount, fun hb => by cases hg.phase.symm.trans hb⟩
  · rw [Action.after, pass1_refused lines ha]
    exact h

theorem Bounded.pass2 (h : Bounded m a) : Bounded m (pass2.after a) := by
  by_cases ha : a.phase = .pass1Done
  · cases he : a.errors.hasErrors with
    | true =>
        obtain ⟨journal, hskip⟩ := pass2_skipped ha he
        rw [Action.after, hskip]
        exact ⟨h.limit, h.count, h.fresh⟩
    | false =>
        have hwork : Truncates 1 resolveAll { a with phase := .pass2Running } := truncates_resolveAll
        have hopen : Below (capacity { a with phase := .pass2Running }) { a with phase := .pass2Running } := by
          rw [ErrorLog.hasErrors, Bool.not_eq_false', List.isEmpty_iff] at he
          simp only [Below, capacity, ErrorLog.errorCount, he, List.length_nil]
          omega
        refine Ends.after (((pass2_runs ha he).fits hwork hopen).and (pass2_ran ha he) |>.mono ?_ ?_)
        · rintro _ b ⟨⟨hlimit, hcount⟩, hphase⟩
          exact ⟨hlimit.trans h.limit, h.limit ▸ hcount, fun hb => by cases hphase.symm.trans hb⟩
        · rintro _ b ⟨⟨hlimit, hcount⟩, hphase, -⟩
          exact ⟨hlimit.trans h.limit, h.limit ▸ hcount, fun hb => by cases hphase.symm.trans hb⟩
  · rw [Action.after, pass2_refused ha]
    exact h

theorem Bounded.generateObject (h : Bounded m a) : Bounded m (generateObject.after a) := by
  obtain ⟨herrors, hphase⟩ := (generateObject_log a).after
  refine ⟨herrors ▸ h.limit, herrors ▸ h.count, fun hb => ?_⟩
  rw [herrors]
  rcases hphase with hphase | hphase
  · exact h.fresh (hphase.symm.trans hb)
  · cases hphase.symm.trans hb

theorem Bounded.run (h : Bounded m a) {calls : List Call} (hcalls : ∀ c ∈ calls, c.isGated = true) :
    Bounded m (run calls a) := by
  induction calls generalizing a with
  | nil => exact h
  | cons c rest ih =>
      obtain ⟨hc, hrest⟩ := List.forall_mem_cons.mp hcalls
      refine ih ?_ hrest
      cases c with
      | parseLines lines => cases hc
      | pass1 lines => exact h.pass1 lines
      | pass2 => exact h.pass2
      | generateObject => exact h.generateObject

theorem create_limited {settings : Settings} {file : String} (n : Int) (h : create settings file = .ok b) :
    create { settings with maxErrors := n } file = .ok (b.limited n) := by
  obtain ⟨limit, hl, rfl⟩ := create_eq_ok_iff.mp h
  exact create_eq_ok_iff.mpr ⟨limit, hl, rfl⟩

theorem bounded_create {settings : Settings} {file : String} (h : create settings file = .ok a) :
    Bounded settings.maxErrors a := by
  obtain ⟨limit, -, rfl⟩ := create_eq_ok_iff.mp h
  exact ⟨rfl, by simp only [ErrorLog.errorCount, List.length_nil]; omega, fun _ => rfl⟩

/-- A smaller error limit cuts the log and with it symbols and statements, and has no other effect on what is
assembled. In any order of the calls the log holds no more errors than its limit, or one. -/
theorem assemble_limited (settings : Settings) (file : String) (lines : List String) :
    (∀ n m a b b' object, 1 ≤ n → n ≤ m → create { settings with maxErrors := n } file = .ok a →
      create { settings with maxErrors := m } file = .ok b → assemble lines b = .ok object b' →
      ∃ a', assemble lines a = .ok object a' ∧ a'.errors.errors = b'.errors.errors.take n.toNat ∧
        a'.symbols <+: b'.symbols ∧ a'.statements.map (·.outline) <+: b'.statements.map (·.outline)) ∧
    ∀ calls a, create settings file = .ok a → (∀ c ∈ calls, c.isGated = true) →
      ((run calls a).errors.errorCount : Int) ≤ max 1 settings.maxErrors := by
  refine ⟨fun n m a b b' object hn hnm ha hb h => ?_, fun calls a ha hcalls => ?_⟩
  · cases (create_limited n hb).symm.trans ha
    obtain ⟨hfresh, -, -, hnone⟩ := create_fresh hb
    have hroom : Room n b := by
      have hlimit : b.errors.limit = m := (bounded_create hb).limit
      refine ⟨?_, by rw [capacity, hlimit]; omega⟩
      rw [Below, ErrorLog.errorCount, hnone, List.length_nil]
      omega
    obtain ⟨ok₁, b₁, h₁, h⟩ := bind_eq_ok h
    obtain ⟨ok₂, b₂, h₂, h₃⟩ := bind_eq_ok h
    obtain ⟨a₁, hrun₁, ht₁⟩ := pass1_trails hn hfresh hroom h₁
    obtain ⟨a₂, hrun₂, ht₂⟩ := pass2_trails hn ht₁ h₂
    obtain ⟨a₃, hrun₃, ht₃⟩ := generateObject_trails hn ht₂ h₃
    refine ⟨a₃, ?_, ht₃.errors, ht₃.extends.symbols, ht₃.extends.statements⟩
    rw [assemble, bind_run, hrun₁]
    dsimp only
    rw [bind_run, hrun₂]
    exact hrun₃
  · exact ((bounded_create ha).run hcalls).count

/-- Two of three errors: the second line defines a name again, the third and fourth are no statements. -/
theorem assemble_limited_two :
    let lines := ["P       START  1000", "P       LDA    NIL", "        BOGUS", "        BOGUS", "Q       WORD   5"]
    ∃ a b a' b' : Assembly, create { maxErrors := 2 } "two.asm" = .ok a ∧ create { maxErrors := 5 } "two.asm" = .ok b ∧
      assemble lines b = .ok none b' ∧ assemble lines a = .ok none a' ∧
      a'.errors.errors = b'.errors.errors.take 2 ∧ b'.errors.errorCount = 3 ∧
      a'.symbols <+: b'.symbols ∧ a'.symbols.names = ["P"] ∧ b'.symbols.names = ["P", "Q"] ∧
      ((run [.pass1 lines, .pass2, .generateObject] a).errors.errorCount : Int) ≤ max 1 2 := by
  intro lines
  obtain ⟨a, ha⟩ : ∃ a, create { maxErrors := 2 } "two.asm" = .ok a := ⟨_, rfl⟩
  obtain ⟨b, hb⟩ : ∃ b, create { maxErrors := 5 } "two.asm" = .ok b := ⟨_, rfl⟩
  have hrun : (assemble lines).value? b = some none ∧ ((assemble lines).after b).errors.errorCount = 3 ∧
      ((assemble lines).after a).symbols.names = ["P"] ∧
      ((assemble lines).after b).symbols.names = ["P", "Q"] := by
    cases ha; cases hb
    decide +kernel
  obtain ⟨hvalue, hcount, hnames, hnames'⟩ := hrun
  have h := Action.eq_ok_of_value? hvalue
  obtain ⟨a', h', herrors, hsymbols, -⟩ :=
    (assemble_limited {} "two.asm" lines).1 2 5 a b _ none (by decide) (by decide) ha hb h
  have ha' : (assemble lines).after a = a' := by rw [Action.after, h']
  have hbound := (assemble_limited { maxErrors := 2 } "two.asm" lines).2
    [.pass1 lines, .pass2, .generateObject] a ha (by decide)
  exact ⟨a, b, a', _, ha, hb, h, h', herrors, hcount, hsymbols, ha' ▸ hnames, hnames', hbound⟩

end TwoPass.Assembly
