import TwoPass.Proofs.Assembly.Recovery

/-!
Lines that are no statements leave no trace. The first pass does the same on a source in which these lines are
blank: statements, symbols and warnings are those of the full source, and of the errors only those about the
lines themselves are missing. What it says of a line carries the number of that line.
-/

namespace TwoPass

open TwoPass.Action (bind_run)

/-- The line is neither blank nor a statement. -/
def Statement.isRejected (file : String) (line : Nat) (text : String) : Bool :=
  !Text.isBlankText text.toList && !(parse file text line 0).isOk

/-- The lines with those that are rejected left blank, where the first line has the given number. -/
def blanked (file : String) (number : Nat) : List String → List String
  | [] => []
  | text :: rest =>
    (if Statement.isRejected file number text then "" else text) :: blanked file (number + 1) rest

/-- The error is about a line that is rejected. -/
def Diagnostic.isRejection (file : String) (lines : List String) (d : Diagnostic) : Bool :=
  d.line.any fun n => 1 ≤ n && lines[(n - 1).toNat]?.any fun text => Statement.isRejected file n.toNat text

namespace Statement

variable {file text : String} {number : Nat}

/-- Whether a line is rejected does not depend on the place that it would be given. -/
theorem isRejected_iff (offset : Int) (hv : Text.isBlankText text.toList = false) :
    isRejected file number text = true ↔ ∃ failure, parse file text number offset = .error failure := by
  rw [isRejected, hv]
  constructor
  · intro h
    cases hp : parse file text number 0 with
    | ok s => simp [hp, Except.isOk, Except.toBool] at h
    | error failure => exact ⟨failure, parse_error_at hp offset⟩
  · rintro ⟨failure, hp⟩
    rw [parse_error_at hp 0]
    rfl

end Statement

namespace Assembly

variable {a b : Assembly} {file : String}

theorem placeLine_rejected {number : Nat} {text : String} {result : LineResult} {failure : Failure}
    (hp : Statement.parse a.file text number a.pc = .error failure)
    (h : placeLine number text a = .ok result b) :
    ∃ d journal, d.line = some (number : Int) ∧ b = a.relogged (a.errors.errors ++ [d]) journal := by
  cases failure with
  | fault fault =>
      rw [placeLine_fault hp] at h
      cases h
  | diagnostic d =>
      obtain ⟨-, journal, hb⟩ := (placeLine_error hp).of_ok h
      exact ⟨d, journal, Statement.parse_error_line hp, hb⟩

/-- A line that is not rejected does the same again where there are no more errors in the log. -/
theorem placeLine_again {keep : Diagnostic → Bool} {number : Nat} {text : String} {result : LineResult}
    (hkeep : ∀ d : Diagnostic, d.line = some (number : Int) → keep d = true)
    (h : placeLine number text a = .ok result b) (errors : List Diagnostic) (journal : List JournalEntry)
    (hlen : errors.length ≤ a.errors.errors.length) :
    ∃ new journal', b.file = a.file ∧ b.errors.errors = a.errors.errors ++ new ∧ new.filter keep = new ∧
      placeLine number text (a.relogged errors journal) = .ok result (b.relogged (errors ++ new) journal') := by
  obtain ⟨placed, new, hs⟩ := (keeps_placeLine number text a rfl).of_ok h
  obtain ⟨journal', hagain⟩ := hs.again errors journal (hs.room.of_length_le hlen)
  refine ⟨new, journal', hs.grown.file, hs.grown.errors, ?_, hagain⟩
  rw [List.filter_eq_self]
  exact fun d hd => hkeep d (Scope.line_reports_line (hs.grown.reported d hd))

/-- `keep` tells the errors about lines that are not rejected from the others. -/
def Marks (file : String) (number : Nat) (lines : List String) (keep : Diagnostic → Bool) : Prop :=
  ∀ k text, lines[k]? = some text → ∀ d : Diagnostic, d.line = some ((number + k : Nat) : Int) →
    keep d = !Statement.isRejected file (number + k) text

theorem Marks.tail {number : Nat} {text : String} {rest : List String} {keep : Diagnostic → Bool}
    (h : Marks file number (text :: rest) keep) : Marks file (number + 1) rest keep := by
  intro k line hk d hd
  rw [Nat.add_right_comm] at hd ⊢
  exact h (k + 1) line hk d hd

/-- The second run starts with no more errors than the first, so it does not come to the limit either. -/
theorem placeLines_blanked {keep : Diagnostic → Bool} {number : Nat} {lines : List String}
    {results : List LineResult} (hkeep : Marks file number lines keep) (hfile : a.file = file)
    (hrun : placeLines number lines a = .ok results b) (errors : List Diagnostic) (journal : List JournalEntry)
    (hlen : errors.length ≤ a.errors.errors.length) :
    ∃ new results' journal', b.errors.errors = a.errors.errors ++ new ∧
      placeLines number (blanked file number lines) (a.relogged errors journal) =
        .ok results' (b.relogged (errors ++ new.filter keep) journal') := by
  induction lines generalizing number a results errors journal with
  | nil =>
      cases hrun
      exact ⟨[], [], journal, by simp, by simp [blanked, placeLines, Action.pure_run]⟩
  | cons text rest ih =>
      cases hv : Text.isBlankText text.toList with
      | true =>
          have hkept : Statement.isRejected file number text = false := by simp [Statement.isRejected, hv]
          rw [placeLines_blank number rest hv] at hrun
          rw [blanked, hkept, if_neg (by simp), placeLines_blank _ _ hv]
          exact ih hkeep.tail hfile hrun errors journal hlen
      | false =>
          rw [placeLines_visible number rest hv] at hrun
          obtain ⟨result, c, hline, hrun⟩ := Action.bind_eq_ok hrun
          obtain ⟨others, d, hrest, hd⟩ := Action.bind_eq_ok hrun
          cases hd
          cases hr : Statement.isRejected file number text with
          | true =>
              -- The line is skipped in the second run, which goes on where it was.
              obtain ⟨failure, hp⟩ := (Statement.isRejected_iff a.pc hv).mp hr
              rw [← hfile] at hp
              obtain ⟨d, journal₁, hd, rfl⟩ := placeLine_rejected hp hline
              obtain ⟨new, results', journal', hnew, hsecond⟩ :=
                ih hkeep.tail (a := a.relogged (a.errors.errors ++ [d]) journal₁) hfile hrest errors journal
                  (Nat.le_trans hlen (by simp [relogged]))
              refine ⟨d :: new, results', journal', ?_, ?_⟩
              · rw [hnew]
                simp [relogged]
              · have hdrop : keep d = false := by rw [hkeep 0 text rfl d hd]; simp [hr]
                rw [blanked, hr, if_pos rfl, placeLines_blank _ _ rfl, List.filter_cons, hdrop]
                exact hsecond
          | false =>
              have hkept : ∀ d : Diagnostic, d.line = some (number : Int) → keep d = true := by
                intro d hd
                rw [hkeep 0 text rfl d hd]
                simp [hr]
              obtain ⟨new₁, journal₁, hfile₁, hnew₁, hall, hagain⟩ :=
                placeLine_again hkept hline errors journal hlen
              have hlen₁ : (errors ++ new₁).length ≤ c.errors.errors.length := by
                rw [hnew₁, List.length_append, List.length_append]
                omega
              obtain ⟨new, results', journal', hnew, hsecond⟩ :=
                ih hkeep.tail (hfile₁.trans hfile) hrest (errors ++ new₁) journal₁ hlen₁
              refine ⟨new₁ ++ new, result :: results', journal', ?_, ?_⟩
              · rw [hnew, hnew₁, List.append_assoc]
              · rw [blanked, hr, if_neg (by simp), placeLines_visible _ _ hv, bind_run, hagain]
                dsimp only
                rw [bind_run, hsecond, List.filter_append, hall, List.append_assoc]
                rfl

/-! ## The first pass -/

theorem pass1_of_parseLines {lines : List String} {results : List LineResult} (ha : a.phase = .fresh)
    (h : parseLines lines { a with phase := .pass1Running } = .ok results b) :
    ∃ journal, pass1 lines a = .ok (!b.errors.hasErrors) { b with phase := .pass1Done, journal } := by
  rcases (pass1_parseLines lines ha).cases with ⟨_, _, hrun, rfl, c, journal, rfl, hc⟩ | ⟨failure, c, -, hc, -⟩
  · rw [h] at hc
    rcases hc with ⟨results', hc⟩ | ⟨failure, hc, -⟩
    · cases hc
      exact ⟨journal, hrun⟩
    · cases hc
  · rw [h] at hc
    cases hc

/-- Without the error limit, a first pass that does not fail has placed all lines. -/
theorem exists_parseLines {lines : List String} {ok : Bool} (ha : a.phase = .fresh)
    (h : pass1 lines a = .ok ok b) (hlimit : b.limitReached = false) :
    ∃ results c journal, parseLines lines { a with phase := .pass1Running } = .ok results c ∧
      b = { c with phase := .pass1Done, journal } := by
  obtain ⟨-, c, journal, rfl, ⟨results, hc⟩ | ⟨failure, -, hstopped⟩⟩ := (pass1_parseLines lines ha).of_ok h
  · exact ⟨results, c, journal, hc, rfl⟩
  · have hfree : c.limitReached = false := hlimit
    rw [hstopped.reached] at hfree
    cases hfree

theorem marks_not_isRejection (file : String) (lines : List String) :
    Marks file 1 lines fun d => !d.isRejection file lines := by
  intro k text hk d hd
  have hplace : ((((1 + k : Nat) : Int) - 1).toNat) = k := by omega
  have hnumber : (((1 + k : Nat) : Int)).toNat = 1 + k := by omega
  have hpos : (1 : Int) ≤ ((1 + k : Nat) : Int) := by omega
  simp only [Diagnostic.isRejection, hd, Option.any_some, hplace, hk, hnumber, hpos, decide_true, Bool.true_and]

theorem pass1_relogged {settings : Settings} {a₀ : Assembly} {lines : List String} {ok : Bool}
    (h : create settings file = .ok a₀) (hrun : pass1 lines a₀ = .ok ok a) (hlimit : a.limitReached = false) :
    ∃ ok' journal, pass1 (blanked file 1 lines) a₀ =
      .ok ok' (a.relogged (a.errors.errors.filter fun d => !d.isRejection file lines) journal) := by
  obtain ⟨hfresh, -, -, hnone⟩ := create_fresh h
  obtain ⟨-, -, -, hfile⟩ := placed_create h
  obtain ⟨results, c, journal, hc, rfl⟩ := exists_parseLines hfresh hrun hlimit
  obtain ⟨new, results', journal', hnew, hsecond⟩ :=
    placeLines_blanked (a := { a₀ with phase := .pass1Running }) (marks_not_isRejection file lines) hfile hc
      a₀.errors.errors a₀.journal (Nat.le_refl _)
  obtain ⟨journal'', hpass⟩ := pass1_of_parseLines hfresh hsecond
  rw [show (Assembly.errors _).errors = [] from hnone, List.nil_append] at hnew
  rw [hnone, List.nil_append, ← hnew] at hpass
  exact ⟨_, journal'', hpass⟩

theorem pass1_scope {settings : Settings} {a₀ : Assembly} (lines : List String)
    (h : create settings file = .ok a₀) :
    (∀ s ∈ ((pass1 lines).after a₀).statements, (Scope.lines file 1 lines).places s) ∧
      ∀ d ∈ ((pass1 lines).after a₀).errors.errors, (Scope.lines file 1 lines).reports d := by
  obtain ⟨hfresh, -, hempty, hnone⟩ := create_fresh h
  obtain ⟨-, -, -, rfl⟩ := placed_create h
  obtain ⟨phase, placed, new, hg⟩ := pass1_grown lines hfresh
  rw [hg.statements, hg.errors, hempty, hnone]
  exact ⟨hg.placed, hg.reported⟩

/-- The first pass on a source and on the same source without the lines that are no statements. -/
theorem pass1_blanked {settings : Settings} {a₀ : Assembly} (lines : List String)
    (h : create settings file = .ok a₀) :
    let a := (pass1 lines).after a₀
    let b := (pass1 (blanked file 1 lines)).after a₀
    (∀ s ∈ a.statements, ∃ k text offset, lines[k]? = some text ∧ Text.isBlankText text.toList = false ∧
      Statement.parse file text (k + 1 : Nat) offset = .ok s ∧ s.line = (k + 1 : Nat)) ∧
    (∀ d ∈ a.errors.errors, ∃ k text, lines[k]? = some text ∧ Text.isBlankText text.toList = false ∧
      (Scope.line file (k + 1) text).reports d ∧ d.line = some ((k + 1 : Nat) : Int)) ∧
    (((pass1 lines).value? a₀).isSome = true → a.limitReached = false →
      ((pass1 (blanked file 1 lines)).value? a₀).isSome = true ∧
      b.statements = a.statements ∧ b.symbols = a.symbols ∧ b.pc = a.pc ∧ b.start = a.start ∧
      b.name = a.name ∧ b.errors.warnings = a.errors.warnings ∧
      b.errors.errors = a.errors.errors.filter fun d => !d.isRejection file lines) := by
  intro a b
  obtain ⟨hplaces, hreports⟩ := pass1_scope lines h
  refine ⟨fun s hs => ?_, fun d hd => ?_, fun hok hlimit => ?_⟩
  · obtain ⟨k, text, hk, hv, offset, hparse⟩ := hplaces s hs
    rw [Nat.add_comm] at hparse
    refine ⟨k, text, offset, hk, hv, hparse, ?_⟩
    rw [Statement.line, (Statement.parse_parsed hparse).location]
  · obtain ⟨k, text, hk, hv, hd⟩ := hreports d hd
    rw [Nat.add_comm] at hd
    exact ⟨k, text, hk, hv, hd, Scope.line_reports_line hd⟩
  · obtain ⟨ok, hok⟩ := Option.isSome_iff_exists.mp hok
    obtain ⟨ok', journal, hrun⟩ := pass1_relogged h (Action.eq_ok_of_value? hok) hlimit
    have hb : b = a.relogged (a.errors.errors.filter fun d => !d.isRejection file lines) journal := by
      change (pass1 (blanked file 1 lines)).after a₀ = _
      rw [Action.after, hrun]
    refine ⟨by rw [Action.value?, hrun]; rfl, ?_⟩
    rw [hb]
    exact ⟨rfl, rfl, rfl, rfl, rfl, rfl, rfl⟩

/-- Unknown operators and a bad count among statements, one of which defines a label again. -/
theorem pass1_blanked_mixed :
    let lines := ["COPY    START  1000", "", "        BOGUS  1", "FIVE    WORD   5", "FIVE    LDA    FIVE",
      "        RESW   X"]
    let a := (pass1 lines).after
    let b := (pass1 ["COPY    START  1000", "", "", "FIVE    WORD   5", "FIVE    LDA    FIVE", ""]).after
    ∃ a₀, create {} "mixed.asm" = .ok a₀ ∧ (a a₀).limitReached = false ∧
      (b a₀).statements = (a a₀).statements ∧
      (a a₀).errors.errors.map (·.line) = [some 3, some 5, some 6] ∧
      (b a₀).errors.errors.map (·.line) = [some 5] := by
  intro lines a b
  obtain ⟨a₀, h⟩ : ∃ a₀, create {} "mixed.asm" = .ok a₀ := ⟨_, rfl⟩
  have hblanked : blanked "mixed.asm" 1 lines =
      ["COPY    START  1000", "", "", "FIVE    WORD   5", "FIVE    LDA    FIVE", ""] := by decide +kernel
  have hrun : ((pass1 lines).value? a₀).isSome = true ∧ (a a₀).limitReached = false ∧
      (a a₀).errors.errors.map (·.line) = [some 3, some 5, some 6] := by
    cases h
    decide +kernel
  obtain ⟨-, -, hsame⟩ := pass1_blanked lines h
  obtain ⟨-, hstatements, -, -, -, -, -, herrors⟩ := hsame hrun.1 hrun.2.1
  rw [hblanked] at hstatements herrors
  refine ⟨a₀, h, hrun.2.1, hstatements, hrun.2.2, ?_⟩
  rw [herrors]
  cases h
  decide +kernel

end Assembly

end TwoPass
