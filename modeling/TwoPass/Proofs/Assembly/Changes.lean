import TwoPass.Assembly.Pass1
import TwoPass.Assembly.Pass2
import TwoPass.Proofs.Action.Agreement
import TwoPass.Proofs.Assembly.Report

/-!
The changes that the passes make. There are ten kinds of them, and which changes a line or the second pass makes,
and in which order, can be read off the assembly before it. So what holds of the passes is shown for one change at
a time and goes on to a row of them.
-/

namespace TwoPass.Assembly

open TwoPass.Action (Agree Ends bind_run ends_bind ends_get)

/-- The least that a pass does to an assembly. -/
inductive Change
  | note (level : Level) (message : String)
  | warn (message : String)
  | report (d : Diagnostic)
  | place (s : Statement)
  | define (symbol : Symbol)
  | origin (name : String) (address : Nat)
  | advance (size : Nat)
  | rewrite (statements : List Statement)
  | revise (place : Nat) (s : Statement)
  | fail (fault : Fault)
  deriving DecidableEq, Repr

namespace Change

/-- The assembly after a change, also after one that fails. -/
def effect (a : Assembly) : Change → Assembly
  | .note level message => { a with journal := a.journal ++ [⟨level, .passes, message⟩] }
  | .warn message => { a with errors := a.errors.warn message }
  | .report d => { a with errors := a.errors.add d }
  | .place s => { a with statements := a.statements ++ [s] }
  | .define symbol => { a with symbols := a.symbols ++ [symbol] }
  | .origin name address => { a with name, start := address, pc := address }
  | .advance size => { a with pc := a.pc + size }
  | .rewrite statements => { a with statements }
  | .revise k s => { a with statements := a.statements.set k s }
  | .fail _ => a

/-- Why a change fails that has led to `a`. -/
def failure? (a : Assembly) : Change → Option Failure
  | .report _ => if a.errors.isFull then some (.diagnostic a.errors.overflow) else none
  | .fail fault => some (.fault fault)
  | _ => none

def run : Change → Action Unit
  | .report d => Assembly.report d
  | .fail fault => throw (.fault fault)
  | change => modify fun a => change.effect a

end Change

/-- Makes changes up to the first that fails. -/
def runAll : List Change → Action Unit
  | [] => pure ()
  | change :: rest => do
    change.run
    runAll rest

/-! ## Single changes -/

variable {a b : Assembly} {change : Change} {l m : List Change}

namespace Change

theorem run_eq (change : Change) (a : Assembly) : change.run a =
    match change.failure? (change.effect a) with
    | none => .ok () (change.effect a)
    | some failure => .error failure (change.effect a) := by
  cases change
  case report d =>
    by_cases hfull : (a.errors.add d).isFull = true
    · rw [show failure? (effect a (.report d)) (.report d) = some _ from if_pos hfull]
      exact congrFun (if_pos hfull) _
    · rw [show failure? (effect a (.report d)) (.report d) = none from if_neg hfull]
      exact congrFun (if_neg hfull) _
  all_goals rfl

theorem run_ends {Q : Unit → Assembly → Prop} {E : Failure → Assembly → Prop}
    (hQ : change.failure? (change.effect a) = none → Q () (change.effect a))
    (hE : ∀ failure, change.failure? (change.effect a) = some failure → E failure (change.effect a)) :
    Ends change.run a Q E := by
  rw [Ends, run_eq]
  cases h : change.failure? (change.effect a) with
  | none => exact hQ h
  | some failure => exact hE failure h

theorem run_effect (change : Change) (a : Assembly) :
    Ends change.run a (fun _ b => b = change.effect a) (fun _ _ => True) :=
  run_ends (fun _ => rfl) fun _ _ => trivial

theorem agree_run {R : Assembly → Assembly → Prop} {change' : Change}
    (heffect : ∀ a b, R a b → R (change.effect a) (change'.effect b))
    (hfailure : ∀ a b, R a b → change.failure? (change.effect a) = change'.failure? (change'.effect b)) :
    Agree R change.run change'.run := by
  intro a b hab
  rw [run_eq change' b, ← hfailure a b hab]
  refine run_ends (fun h => ?_) fun failure h => ?_
  · rw [h]; exact ⟨_, rfl, heffect a b hab⟩
  · rw [h]; exact ⟨_, rfl, heffect a b hab⟩

/-- Changes leave file, settings and phase alone. -/
theorem file_effect (change : Change) (a : Assembly) : (change.effect a).file = a.file := by
  cases change <;> rfl

theorem settings_effect (change : Change) (a : Assembly) : (change.effect a).settings = a.settings := by
  cases change <;> rfl

theorem phase_effect (change : Change) (a : Assembly) : (change.effect a).phase = a.phase := by
  cases change <;> rfl

/-- Errors stay. -/
theorem hasErrors_effect (change : Change) (h : a.errors.hasErrors = true) :
    (change.effect a).errors.hasErrors = true := by
  cases change
  case report d => exact hasErrors_add _ d
  all_goals exact h

theorem failure?_cases {failure : Failure} (h : change.failure? (change.effect a) = some failure) :
    Stopped failure (change.effect a) ∨ ∃ fault, change = .fail fault ∧ failure = .fault fault := by
  cases change
  case report d =>
    simp only [failure?] at h
    split at h
    · rename_i hfull
      cases h
      exact .inl ⟨rfl, Bool.and_eq_true_iff.mpr ⟨hasErrors_add _ _, hfull⟩⟩
    · cases h
  case fail fault =>
    cases h
    exact .inr ⟨fault, rfl, rfl⟩
  all_goals cases h

theorem halted_of_failure? {failure : Failure} (h : change.failure? (change.effect a) = some failure) :
    Halted failure (change.effect a) := by
  refine (failure?_cases h).imp_right ?_
  rintro ⟨fault, -, rfl⟩
  exact ⟨fault, rfl⟩

end Change

/-! ## Rows of changes -/

/-- What every change of a row keeps is kept by the row. -/
theorem runAll_ends {I : Assembly → Prop} {E : Failure → Assembly → Prop}
    (hI : ∀ change ∈ l, ∀ a, I a → I (change.effect a))
    (hE : ∀ change ∈ l, ∀ a failure, I (change.effect a) → change.failure? (change.effect a) = some failure →
      E failure (change.effect a))
    (h : I a) : Ends (runAll l) a (fun _ => I) E := by
  induction l generalizing a with
  | nil => exact h
  | cons change rest ih =>
      obtain ⟨hfirst, hrest⟩ := List.forall_mem_cons.mp hI
      obtain ⟨hfail, hfails⟩ := List.forall_mem_cons.mp hE
      have hchange : Ends change.run a (fun _ => I) E :=
        Change.run_ends (fun _ => hfirst a h) fun failure => hfail a failure (hfirst a h)
      exact hchange.bind fun _ b hb => ih hrest hfails hb

theorem runAll_append (l m : List Change) : runAll (l ++ m) = (do runAll l; runAll m) := by
  induction l with
  | nil => rfl
  | cons change rest ih =>
      rw [List.cons_append, runAll, ih]
      exact (bind_assoc _ _ _).symm

theorem bind_eq_of_ok {x : Action Unit} {f g : Unit → Action Unit} (h : ∀ b, x a = .ok () b → f () b = g () b) :
    (x >>= f) a = (x >>= g) a := by
  rw [bind_run, bind_run]
  cases hx : x a with
  | ok _ b => exact h b hx
  | error failure b => rfl

/-- A row that goes on with what can be read off the state in between. -/
theorem bind_eq_runAll {x : Action Unit} {f : Unit → Action Unit} (hx : x a = runAll l a)
    (hf : ∀ b, runAll l a = .ok () b → f () b = runAll m b) : (x >>= f) a = runAll (l ++ m) a := by
  rw [runAll_append, bind_run, hx, ← bind_run]
  exact bind_eq_of_ok hf

/-- Two runs that agree on every change of a row agree on the row. -/
theorem agree_runAll {R : Assembly → Assembly → Prop} (h : ∀ change ∈ l, Agree R change.run change.run) :
    Agree R (runAll l) (runAll l) := by
  induction l with
  | nil => exact .pure ()
  | cons change rest ih =>
      obtain ⟨hfirst, hrest⟩ := List.forall_mem_cons.mp h
      exact hfirst.bind fun _ => ih hrest

theorem runAll_reported {d : Diagnostic} (h : .report d ∈ l) :
    Ends (runAll l) a (fun _ b => b.errors.hasErrors = true) (fun _ _ => True) := by
  obtain ⟨before, rest, rfl⟩ := List.append_of_mem h
  rw [runAll_append, ends_bind]
  refine (Action.ends_after _ a).mono (fun _ b _ => ?_) fun _ _ _ => trivial
  refine Ends.bind (Q := fun _ b => b.errors.hasErrors = true) ?_ fun _ c hc => ?_
  · exact Change.run_ends (fun _ => hasErrors_add _ d) fun _ _ => trivial
  · exact runAll_ends (fun change _ _ => change.hasErrors_effect) (fun _ _ _ _ _ _ => trivial) hc

/-! ## Reports and warnings -/

def reportChanges (line : Int) (d : Diagnostic) : List Change :=
  [.note .error (lineMessage line d.text), .report d]

def warnChanges (line : Int) (message : String) : List Change :=
  [.note .warning (lineMessage line message), .warn (lineMessage line message)]

theorem note_report_eq (message : String) (d : Diagnostic) :
    (do note .error message; report d) = runAll [.note .error message, .report d] := by
  simp only [runAll, Change.run, bind_pure_unit]
  rfl

theorem reportLine_eq (line : Int) (d : Diagnostic) : reportLine line d = runAll (reportChanges line d) :=
  note_report_eq _ d

theorem forall_mem_reportChanges {P : Change → Prop} {line : Int} {d : Diagnostic}
    (hnote : ∀ level message, P (.note level message)) (hreport : P (.report d)) :
    ∀ change ∈ reportChanges line d, P change := by
  simp [reportChanges, hnote, hreport]

theorem forall_mem_warnChanges {P : Change → Prop} {line : Int} {message : String}
    (hnote : ∀ level message, P (.note level message)) (hwarn : ∀ message, P (.warn message)) :
    ∀ change ∈ warnChanges line message, P change := by
  simp [warnChanges, hnote, hwarn]

/-! ## Statements -/

/-- What defining a name changes. -/
def defineChanges (a : Assembly) (name : String) (address line : Int) : List Change :=
  match a.symbols.find? name with
  | some first =>
    reportChanges line
      { cause := .duplicateSymbol name (some first.line)
        location := some ⟨a.file, line, labelColumn⟩ }
  | none => [.define ⟨name, address, line⟩]

def labelChanges (a : Assembly) (s : Statement) : List Change :=
  if s.label.isEmpty then [] else defineChanges a s.label s.offset s.line

def operandChanges (a : Assembly) (s : Statement) (i : Instruction) : List Change :=
  match i.mismatch with
  | none => []
  | some shape =>
    if a.settings.strictOperands then
      [.note .error (lineMessage s.line shape),
        .report { cause := .operandMismatch shape, location := some ⟨a.file, s.line, operandColumn⟩ }]
    else
      warnChanges s.line shape

/-- Changes that need the size of a statement. -/
def sizedChanges (s : Statement) (changes : Nat → List Change) : List Change :=
  match s.size with
  | .ok size => changes size
  | .error fault => [.fail fault]

def directiveChanges (s : Statement) (d : Directive) : List Change :=
  if d.isReserve then
    sizedChanges s fun size =>
      [.note .debug (lineMessage s.line (d.name ++ " reserves " ++ Text.decimal size ++ " bytes"))]
  else
    match s.operands with
    | .symbol name :: _ =>
      if d.isData then
        warnChanges s.line (d.name ++ " " ++ name ++ " emitted as zero bytes")
      else
        []
    | _ => []

def advanceChanges (s : Statement) : List Change :=
  sizedChanges s fun size => [.advance size]

/-- What a statement changes once it is placed. -/
def bookChanges (a : Assembly) (s : Statement) : List Change :=
  match s.body with
  | .remark => []
  | .directive .start value => .origin s.label value :: defineChanges a s.label value s.line
  | .directive d _ => labelChanges a s ++ (directiveChanges s d ++ advanceChanges s)
  | .instruction i => labelChanges a s ++ (operandChanges a s i ++ advanceChanges s)

def placeChanges (a : Assembly) (s : Statement) : List Change :=
  .place s :: bookChanges a s

theorem define_eq (name : String) (address line : Int) (a : Assembly) :
    define name address line a = runAll (defineChanges a name address line) a := by
  unfold define defineChanges
  rw [bind_run, Action.get_run]
  dsimp only
  cases a.symbols.find? name with
  | some first => exact congrFun (reportLine_eq _ _) a
  | none => rfl

theorem defineLabel_eq (s : Statement) (a : Assembly) : defineLabel s a = runAll (labelChanges a s) a := by
  unfold defineLabel labelChanges
  split
  · rfl
  · exact define_eq _ _ _ a

theorem checkOperands_eq (s : Statement) (i : Instruction) (a : Assembly) :
    checkOperands s i a = runAll (operandChanges a s i) a := by
  unfold checkOperands operandChanges
  rw [bind_run, Action.get_run]
  dsimp only
  cases i.mismatch with
  | none => rfl
  | some shape =>
      cases a.settings.strictOperands with
      | true => exact congrFun (note_report_eq _ _) a
      | false => rfl

theorem orFault_size_bind (s : Statement) {f : Nat → Action Unit} {changes : Nat → List Change}
    (h : ∀ size, f size = runAll (changes size)) :
    (do f (← Action.orFault s.size)) = runAll (sizedChanges s changes) := by
  unfold sizedChanges
  cases s.size with
  | ok size => exact h size
  | error fault => rfl

theorem checkDirective_eq (s : Statement) (d : Directive) :
    checkDirective s d = runAll (directiveChanges s d) := by
  unfold checkDirective directiveChanges
  split
  · exact orFault_size_bind s fun _ => rfl
  · cases s.operands with
    | nil => rfl
    | cons operand rest =>
        cases operand with
        | symbol name => cases d.isData <;> rfl
        | _ => rfl

theorem advance_eq (s : Statement) : advance s = runAll (advanceChanges s) :=
  orFault_size_bind s fun _ => rfl

/-- File and settings are the same all the way, so it does not matter when they are read. -/
theorem runAll_kept (h : runAll l a = .ok () b) : b.file = a.file ∧ b.settings = a.settings := by
  refine (runAll_ends (I := fun b => b.file = a.file ∧ b.settings = a.settings) (E := fun _ _ => True)
    (fun change _ b hb => ?_) (fun _ _ _ _ _ _ => trivial) ⟨rfl, rfl⟩).of_ok h
  rwa [change.file_effect, change.settings_effect]

theorem operandChanges_congr {s : Statement} {i : Instruction} (hfile : b.file = a.file)
    (hsettings : b.settings = a.settings) : operandChanges b s i = operandChanges a s i := by
  unfold operandChanges
  rw [hfile, hsettings]

theorem place_eq (s : Statement) (a : Assembly) : place s a = runAll (placeChanges a s) a := by
  refine bind_eq_runAll (l := [.place s]) rfl fun b hb => ?_
  cases hb
  cases hbody : s.body with
  | remark => rfl
  | directive d value =>
      have hother : (do defineLabel s; checkDirective s d; advance s) (Change.effect a (.place s)) =
          runAll (labelChanges a s ++ (directiveChanges s d ++ advanceChanges s)) (Change.effect a (.place s)) := by
        refine bind_eq_runAll (defineLabel_eq s _) fun b hb => ?_
        exact bind_eq_runAll (by rw [checkDirective_eq]) fun c _ => by rw [advance_eq]
      cases d with
      | start =>
          refine bind_eq_runAll (l := [.origin s.label value]) rfl fun b hb => ?_
          cases hb
          exact define_eq _ _ _ _
      | _ => exact hother
  | instruction i =>
      refine bind_eq_runAll (defineLabel_eq s _) fun b hb => ?_
      obtain ⟨hfile, hsettings⟩ := runAll_kept hb
      refine bind_eq_runAll ?_ fun c _ => by rw [advance_eq]
      rw [checkOperands_eq, operandChanges_congr hfile hsettings]
      rfl

/-! ## Lines -/

/-- What a line changes. -/
def lineChanges (a : Assembly) (number : Nat) (text : String) : List Change :=
  match Statement.parse a.file text number a.pc with
  | .ok s => placeChanges a s
  | .error (.diagnostic d) => reportChanges number d
  | .error (.fault _) => []

/-- What becomes of a line. -/
def lineResult (a : Assembly) (number : Nat) (text : String) : Except Fault LineResult :=
  match Statement.parse a.file text number a.pc with
  | .ok s => .ok { line := number, outcome := .ok s }
  | .error (.diagnostic d) => .ok { line := number, outcome := .error d }
  | .error (.fault fault) => .error fault

theorem placeLine_eq (number : Nat) (text : String) : placeLine number text = (do
    let a ← get
    runAll (lineChanges a number text)
    Action.orFault (lineResult a number text)) := by
  funext a
  unfold placeLine lineChanges lineResult
  rw [bind_run, bind_run, Action.get_run]
  dsimp only
  cases Statement.parse a.file text number a.pc with
  | ok s =>
      dsimp only
      rw [bind_run, bind_run, place_eq]
      rfl
  | error failure =>
      cases failure with
      | diagnostic d =>
          dsimp only
          rw [reportLine_eq]
          rfl
      | fault fault => rfl

theorem placeLines_blank {text : String} (number : Nat) (rest : List String)
    (hv : Text.isBlankText text.toList = true) :
    placeLines number (text :: rest) = placeLines (number + 1) rest := by
  rw [placeLines, if_pos hv]

theorem placeLines_visible {text : String} (number : Nat) (rest : List String)
    (hv : Text.isBlankText text.toList = false) : placeLines number (text :: rest) = (do
      let result ← placeLine number text
      let results ← placeLines (number + 1) rest
      return result :: results) := by
  rw [placeLines, if_neg (by simp [hv])]

theorem lineResult_error {number : Nat} {text : String} {fault : Fault}
    (h : lineResult a number text = .error fault) :
    Statement.parse a.file text number a.pc = .error (.fault fault) ∧ lineChanges a number text = [] := by
  unfold lineResult at h
  split at h <;> cases h
  rename_i hparse
  exact ⟨hparse, by rw [lineChanges, hparse]⟩

theorem placeLine_invariant {number : Nat} {text : String} {P : Assembly → Prop} {E : Failure → Assembly → Prop}
    (h : Ends (runAll (lineChanges a number text)) a (fun _ => P) E)
    (hfault : ∀ fault, lineResult a number text = .error fault → E (.fault fault) a) :
    Ends (placeLine number text) a (fun _ => P) E := by
  rw [placeLine_eq, ends_bind, ends_get]
  cases hresult : lineResult a number text with
  | ok result => exact h.bind fun _ b hb => hb
  | error fault =>
      rw [(lineResult_error hresult).2]
      exact hfault fault hresult

/-- What every line keeps is kept by all of them. -/
theorem placeLines_invariant {I : Assembly → Prop} {E : Failure → Assembly → Prop}
    (hline : ∀ number text a, I a → Ends (placeLine number text) a (fun _ => I) E) (number : Nat)
    (lines : List String) (h : I a) : Ends (placeLines number lines) a (fun _ => I) E := by
  induction lines generalizing number a with
  | nil => exact h
  | cons text rest ih =>
      cases hv : Text.isBlankText text.toList with
      | true =>
          rw [placeLines_blank number rest hv]
          exact ih (number + 1) h
      | false =>
          rw [placeLines_visible number rest hv]
          exact (hline number text a h).bind fun _ b hb => (ih (number + 1) hb).bind fun _ c hc => hc

/-! ## The second pass -/

def reportAllChanges (errors : List Diagnostic) : List Change :=
  errors.flatMap fun d => reportChanges (d.line.getD 0) d

def commitChanges (place : Nat) : List Revision → List Change
  | [] => []
  | r :: rest =>
    .revise place r.statement ::
      match r.problem with
      | none => commitChanges (place + 1) rest
      | some (.diagnostic d) => reportChanges r.statement.line d ++ commitChanges (place + 1) rest
      | some (.fault fault) => [.fail fault]

/-- The revisions of all statements, each with its symbols resolved. -/
def plan (a : Assembly) : List Revision :=
  revisions a.symbols a.file none (a.statements.map (·.resolve a.symbols))

/-- What the second pass changes before its warnings. -/
def resolveChanges (a : Assembly) : List Change :=
  .rewrite (a.statements.map (·.resolve a.symbols)) ::
    (reportAllChanges (a.statements.flatMap (·.unresolvedErrors a.symbols)) ++
      if a.settings.relativeAddressing then commitChanges 0 a.plan else [])

def truncationChanges (statements : List Statement) : List Change :=
  statements.flatMap fun s =>
    match truncation? s with
    | some message => warnChanges s.line message
    | none => []

theorem forall_mem_reportAllChanges {P : Change → Prop} {errors : List Diagnostic}
    (hnote : ∀ level message, P (.note level message)) (hreport : ∀ d, P (.report d)) :
    ∀ change ∈ reportAllChanges errors, P change := by
  intro change h
  obtain ⟨d, -, hd⟩ := List.mem_flatMap.mp h
  exact forall_mem_reportChanges hnote (hreport d) change hd

theorem forall_mem_truncationChanges {P : Change → Prop} {statements : List Statement}
    (hnote : ∀ level message, P (.note level message)) (hwarn : ∀ message, P (.warn message)) :
    ∀ change ∈ truncationChanges statements, P change := by
  intro change h
  obtain ⟨s, -, hs⟩ := List.mem_flatMap.mp h
  split at hs
  · exact forall_mem_warnChanges hnote hwarn change hs
  · cases hs

theorem reportAll_eq (errors : List Diagnostic) : reportAll errors = runAll (reportAllChanges errors) := by
  induction errors with
  | nil => rfl
  | cons d rest ih => rw [reportAll, ih, reportLine_eq, ← runAll_append]; rfl

theorem commit_eq (place : Nat) (rs : List Revision) : commit place rs = runAll (commitChanges place rs) := by
  induction rs generalizing place with
  | nil => rfl
  | cons r rest ih =>
      unfold commit commitChanges
      cases r.problem with
      | none => rw [ih]; rfl
      | some failure =>
          cases failure with
          | diagnostic d =>
              dsimp only
              rw [ih, reportLine_eq, ← runAll_append]
              rfl
          | fault fault => rfl

theorem warnTruncations_eq (statements : List Statement) :
    warnTruncations statements = runAll (truncationChanges statements) := by
  induction statements with
  | nil => rfl
  | cons s rest ih =>
      have hcons : truncationChanges (s :: rest) =
          (match truncation? s with
            | some message => warnChanges s.line message
            | none => []) ++ truncationChanges rest := rfl
      rw [warnTruncations, ih, hcons]
      cases truncation? s with
      | some message => rw [runAll_append]; rfl
      | none => rfl

/-- Reports change nothing but the log and the journal. -/
theorem runAll_reportAllChanges {errors : List Diagnostic} (h : runAll (reportAllChanges errors) a = .ok () b) :
    b.symbols = a.symbols ∧ b.file = a.file ∧ b.statements = a.statements := by
  let I (b : Assembly) : Prop := b.symbols = a.symbols ∧ b.file = a.file ∧ b.statements = a.statements
  have hkeep : Ends (runAll (reportAllChanges errors)) a (fun _ => I) (fun _ _ => True) :=
    runAll_ends (forall_mem_reportAllChanges (fun _ _ _ hb => hb) fun _ _ hb => hb) (fun _ _ _ _ _ _ => trivial)
      ⟨rfl, rfl, rfl⟩
  exact hkeep.of_ok h

/-- The second pass goes on with the resolved statements. -/
theorem resolveAll_split (a : Assembly) : resolveAll a =
    (reportAll (a.statements.flatMap (·.unresolvedErrors a.symbols)) >>= fun _ =>
      if a.settings.relativeAddressing then selectDisplacements else pure ())
      { a with statements := a.statements.map (·.resolve a.symbols) } :=
  rfl

/-- The plan is made of what the pass starts with. -/
theorem resolveAll_run (a : Assembly) : resolveAll a =
    (reportAll (a.statements.flatMap (·.unresolvedErrors a.symbols)) >>= fun _ =>
      if a.settings.relativeAddressing then commit 0 a.plan else pure ())
      { a with statements := a.statements.map (·.resolve a.symbols) } := by
  rw [resolveAll_split]
  refine bind_eq_of_ok fun b hb => ?_
  rw [reportAll_eq] at hb
  obtain ⟨hsymbols, hfile, hstatements⟩ := runAll_reportAllChanges hb
  cases a.settings.relativeAddressing with
  | false => rfl
  | true =>
      change commit 0 (revisions b.symbols b.file none b.statements) b = commit 0 a.plan b
      rw [hsymbols, hfile, hstatements]
      rfl

theorem resolveAll_eq : resolveAll = (do let a ← get; runAll (resolveChanges a)) := by
  funext a
  rw [resolveAll_run]
  refine bind_eq_runAll (congrFun (reportAll_eq _) _) fun b _ => ?_
  cases a.settings.relativeAddressing with
  | false => rfl
  | true => exact congrFun (commit_eq 0 a.plan) b

/-! ## What can be among the changes -/

/-- An error about a statement that is placed all the same: its label is defined again, or its operands do
not suit it. -/
inductive Complaint (file : String) (s : Statement) : Diagnostic → Prop
  | redefined (first : Int) : Complaint file s
      { cause := .duplicateSymbol s.label (some first), location := some ⟨file, s.line, labelColumn⟩ }
  | mismatch {i : Instruction} {shape : String} : s.body = .instruction i → i.mismatch = some shape →
      Complaint file s
        { cause := .operandMismatch shape, location := some ⟨file, s.line, operandColumn⟩ }

theorem Complaint.line {file : String} {s : Statement} {d : Diagnostic} (h : Complaint file s d) :
    d.line = some s.line := by
  cases h <;> rfl

/-- A change that a statement of `file` can make once it is placed. -/
inductive Booking (file : String) (s : Statement) : Change → Prop
  | note (level : Level) (message : String) : Booking file s (.note level message)
  | warn (message : String) : Booking file s (.warn message)
  | report {d : Diagnostic} : Complaint file s d → Booking file s (.report d)
  | define (address : Int) : Booking file s (.define ⟨s.label, address, s.line⟩)
  | origin {value : Nat} : s.body = .directive .start value → Booking file s (.origin s.label value)
  | advance {size : Nat} : s.size = .ok size → Booking file s (.advance size)
  | fail {fault : Fault} : s.size = .error fault → Booking file s (.fail fault)

variable {s : Statement}

theorem Booking.statements {file : String} (h : Booking file s change) (a : Assembly) :
    (change.effect a).statements = a.statements := by
  cases h <;> rfl

theorem booking_define (address : Int) : ∀ change ∈ defineChanges a s.label address s.line,
    Booking a.file s change := by
  unfold defineChanges
  split
  · exact forall_mem_reportChanges .note (.report (.redefined _))
  · simpa using .define address

theorem booking_label : ∀ change ∈ labelChanges a s, Booking a.file s change := by
  unfold labelChanges
  split
  · simp
  · exact booking_define _

theorem booking_operand {i : Instruction} (hb : s.body = .instruction i) :
    ∀ change ∈ operandChanges a s i, Booking a.file s change := by
  unfold operandChanges
  split
  · simp
  · rename_i shape hm
    split
    · simpa using ⟨.note _ _, .report (.mismatch hb hm)⟩
    · exact forall_mem_warnChanges .note .warn

theorem booking_sized {file : String} {changes : Nat → List Change}
    (h : ∀ size, s.size = .ok size → ∀ change ∈ changes size, Booking file s change) :
    ∀ change ∈ sizedChanges s changes, Booking file s change := by
  unfold sizedChanges
  split
  · rename_i size hs; exact h size hs
  · rename_i fault hs; simpa using .fail hs

theorem booking_directive {file : String} (d : Directive) :
    ∀ change ∈ directiveChanges s d, Booking file s change := by
  unfold directiveChanges
  split
  · exact booking_sized fun _ _ => by simpa using .note _ _
  · split
    · split
      · exact forall_mem_warnChanges .note .warn
      · simp
    · simp

theorem booking_advance {file : String} : ∀ change ∈ advanceChanges s, Booking file s change :=
  booking_sized fun _ hs => by simpa using .advance hs

theorem booking_of_mem : ∀ change ∈ bookChanges a s, Booking a.file s change := by
  unfold bookChanges
  split
  · simp
  · rename_i hb
    exact List.forall_mem_cons.mpr ⟨.origin hb, booking_define _⟩
  · exact List.forall_mem_append.mpr
      ⟨booking_label, List.forall_mem_append.mpr ⟨booking_directive _, booking_advance⟩⟩
  · rename_i hb
    exact List.forall_mem_append.mpr
      ⟨booking_label, List.forall_mem_append.mpr ⟨booking_operand hb, booking_advance⟩⟩

/-- A line places a statement, or it is reported. -/
theorem forall_mem_lineChanges {P : Change → Prop} {number : Nat} {text : String}
    (hplace : ∀ s, Statement.parse a.file text number a.pc = .ok s → P (.place s))
    (hbook : ∀ s, Statement.parse a.file text number a.pc = .ok s → ∀ change, Booking a.file s change → P change)
    (hnote : ∀ level message, P (.note level message))
    (hreport : ∀ d, Statement.parse a.file text number a.pc = .error (.diagnostic d) → P (.report d)) :
    ∀ change ∈ lineChanges a number text, P change := by
  unfold lineChanges
  split
  · rename_i s hparse
    refine List.forall_mem_cons.mpr ⟨hplace s hparse, fun change h => ?_⟩
    exact hbook s hparse change (booking_of_mem change h)
  · rename_i d hparse
    exact forall_mem_reportChanges hnote (hreport d hparse)
  · simp

theorem forall_mem_commitChanges {P : Change → Prop} {place : Nat} {rs : List Revision}
    (hrevise : ∀ k r, rs[k]? = some r → P (.revise (place + k) r.statement))
    (hnote : ∀ level message, P (.note level message)) (hreport : ∀ d, P (.report d))
    (hfail : ∀ fault, P (.fail fault)) : ∀ change ∈ commitChanges place rs, P change := by
  induction rs generalizing place with
  | nil => simp [commitChanges]
  | cons r rest ih =>
      have hrest : ∀ change ∈ commitChanges (place + 1) rest, P change := ih fun k r' hk => by
        rw [Nat.add_right_comm]
        exact hrevise (k + 1) r' hk
      refine List.forall_mem_cons.mpr ⟨hrevise 0 r rfl, ?_⟩
      split
      · exact hrest
      · exact List.forall_mem_append.mpr ⟨forall_mem_reportChanges hnote (hreport _), hrest⟩
      · simpa using hfail _

theorem forall_mem_resolveChanges {P : Change → Prop}
    (hrewrite : P (.rewrite (a.statements.map (·.resolve a.symbols))))
    (hrevise : ∀ (k : Nat) r, a.plan[k]? = some r → P (.revise k r.statement))
    (hnote : ∀ level message, P (.note level message)) (hreport : ∀ d, P (.report d))
    (hfail : ∀ fault, P (.fail fault)) : ∀ change ∈ resolveChanges a, P change := by
  refine List.forall_mem_cons.mpr
    ⟨hrewrite, List.forall_mem_append.mpr ⟨forall_mem_reportAllChanges hnote hreport, ?_⟩⟩
  split
  · exact forall_mem_commitChanges (fun k r hk => by simpa using hrevise k r hk) hnote hreport hfail
  · simp

end TwoPass.Assembly
