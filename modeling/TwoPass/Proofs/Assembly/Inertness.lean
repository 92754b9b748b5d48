import Mathlib.Data.List.DropRight
import TwoPass.Proofs.Assembly.Retuning
import TwoPass.Proofs.Assembly.Scope
import TwoPass.Proofs.Statement.Numbering

/-!
Blank lines and remarks have no effect. Both passes and the object program come out the same whether or not such
lines stand in the source, and wherever: what is different are the numbers of the lines and the remarks
themselves. Assemblies are compared by what is left of them without these, and each step of the passes takes
assemblies that compare equal to assemblies that compare equal.
-/

namespace TwoPass

open TwoPass.Action (Agree Ends bind_run discard_run ends_bind ends_get)

/-! ## Assemblies without numbers -/

/-- A warning without the number of its line. -/
def unnumberedWarning (warning : String) : String :=
  String.ofList (warning.toList.dropWhile (· ≠ ':'))

def ErrorLog.unnumbered (log : ErrorLog Diagnostic) : ErrorLog Diagnostic :=
  { log with
    errors := log.errors.map Diagnostic.unnumbered
    warnings := log.warnings.map unnumberedWarning }

theorem Text.colon_notMem_decimal (n : Int) : ':' ∉ decimalChars n := by
  have hdigits (k : Nat) : ':' ∉ Nat.toDigits 10 k := by
    intro h
    have hdigit := Nat.isDigit_of_mem_toDigits (by decide) (by decide) h
    revert hdigit
    decide
  cases n with
  | ofNat k => exact hdigits k
  | negSucc k => simpa [decimalChars] using hdigits (k + 1)

theorem unnumberedWarning_lineMessage (line : Int) (message : String) :
    unnumberedWarning (Assembly.lineMessage line message) = ": " ++ message := by
  have hword : ':' ∉ "line ".toList := by decide
  have hplace : ∀ c ∈ "line ".toList ++ Text.decimalChars line, decide (c ≠ ':') = true := by
    intro c hc
    rcases List.mem_append.mp hc with hc | hc
    · exact decide_eq_true fun h => hword (h ▸ hc)
    · exact decide_eq_true fun h => Text.colon_notMem_decimal line (h ▸ hc)
  have htext : (Assembly.lineMessage line message).toList =
      ("line ".toList ++ Text.decimalChars line) ++ (": " ++ message).toList := by
    simp [Assembly.lineMessage, Text.decimal]
  have hrest : (": " ++ message).toList = ':' :: ' ' :: message.toList := by simp
  rw [unnumberedWarning, htext, List.dropWhile_append_of_pos hplace, hrest, List.dropWhile_cons_of_neg (by simp),
    ← hrest, String.ofList_toList]

theorem unnumberedWarning_unnumberedWarning (warning : String) :
    unnumberedWarning (unnumberedWarning warning) = unnumberedWarning warning := by
  simp [unnumberedWarning, List.dropWhile_idempotent]

theorem bareStatements_unnumbered (s : Statement) : bareStatements [s.unnumbered] = bareStatements [s] := by
  cases h : s.isRemark with
  | true => rw [bareStatements_remark h, bareStatements_remark (show s.unnumbered.isRemark = true from h)]
  | false =>
      rw [bareStatements_cons h, bareStatements_cons (show s.unnumbered.isRemark = false from h)]
      rfl

theorem SymbolTable.unnumbered_unnumbered (table : SymbolTable) : table.unnumbered.unnumbered = table.unnumbered := by
  rw [unnumbered, unnumbered, List.map_map]
  rfl

namespace ErrorLog

variable (log : ErrorLog Diagnostic)

theorem unnumbered_add (d : Diagnostic) : (log.add d).unnumbered = log.unnumbered.add d.unnumbered := by
  simp [unnumbered, add]

theorem unnumbered_warn (message : String) :
    (log.warn message).unnumbered = log.unnumbered.warn (unnumberedWarning message) := by
  simp [unnumbered, warn]

theorem unnumbered_unnumbered : log.unnumbered.unnumbered = log.unnumbered := by
  simp [unnumbered, Function.comp_def, Diagnostic.unnumbered_unnumbered, unnumberedWarning_unnumberedWarning]

theorem isFull_unnumbered : log.unnumbered.isFull = log.isFull := by
  simp [unnumbered, isFull]

theorem hasErrors_unnumbered : log.unnumbered.hasErrors = log.hasErrors := by
  simp [unnumbered, hasErrors]

end ErrorLog

namespace Assembly

/-- What is left without remarks, numbers of lines, and notes on the progress. -/
def bare (a : Assembly) : Assembly :=
  { a with
    statements := bareStatements a.statements
    symbols := a.symbols.unnumbered
    errors := a.errors.unnumbered
    journal := [] }

abbrev Similar (a b : Assembly) : Prop :=
  a.bare = b.bare

theorem bare_bare (a : Assembly) : a.bare.bare = a.bare := by
  simp only [bare, bareStatements_bareStatements, SymbolTable.unnumbered_unnumbered,
    ErrorLog.unnumbered_unnumbered]

theorem Similar.errors {a b : Assembly} (h : Similar a b) : a.errors.unnumbered = b.errors.unnumbered :=
  congrArg Assembly.errors h

theorem Similar.hasErrors {a b : Assembly} (h : Similar a b) : a.errors.hasErrors = b.errors.hasErrors := by
  rw [← ErrorLog.hasErrors_unnumbered, h.errors, ErrorLog.hasErrors_unnumbered]

theorem Similar.file {a b : Assembly} (h : Similar a b) : a.file = b.file :=
  congrArg (·.file) h

theorem Similar.phase {a b : Assembly} (h : Similar a b) : a.phase = b.phase :=
  congrArg (·.phase) h

theorem Similar.settings {a b : Assembly} (h : Similar a b) : a.settings = b.settings :=
  congrArg (·.settings) h

/-! ## Single changes -/

/-- A change without numbers of lines and without the text of a note. -/
def Change.bare : Change → Change
  | .note level _ => .note level ""
  | .warn message => .warn (unnumberedWarning message)
  | .report d => .report d.unnumbered
  | .place s => .place s.unnumbered
  | .define symbol => .define symbol.unnumbered
  | .rewrite statements => .rewrite (bareStatements statements)
  | change => change

/-- The change is to a place in the list of statements, and without remarks that is another place. -/
def Change.isRevision : Change → Bool
  | .revise _ _ => true
  | _ => false

theorem isRevision_bare (change : Change) : change.bare.isRevision = change.isRevision := by
  cases change <;> rfl

theorem bare_effect {change : Change} (h : change.isRevision = false) (a : Assembly) :
    (change.effect a).bare = (change.bare.effect a.bare).bare := by
  cases change with
  | revise place s => cases h
  | define symbol =>
      simp [Change.effect, Change.bare, bare, bareStatements_bareStatements, SymbolTable.unnumbered,
        Symbol.unnumbered, ErrorLog.unnumbered_unnumbered]
  | _ =>
      simp only [Change.effect, Change.bare, bare, bareStatements_append, bareStatements_bareStatements,
        bareStatements_unnumbered, SymbolTable.unnumbered_unnumbered, ErrorLog.unnumbered_add,
        ErrorLog.unnumbered_warn, ErrorLog.unnumbered_unnumbered, Diagnostic.unnumbered_unnumbered,
        unnumberedWarning_unnumberedWarning]

theorem failure?_bare (change : Change) (a : Assembly) :
    change.failure? (change.effect a) = change.bare.failure? (change.bare.effect a.bare) := by
  cases change with
  | report d =>
      have hfull : (a.errors.unnumbered.add d.unnumbered).isFull = (a.errors.add d).isFull := by
        rw [← ErrorLog.unnumbered_add, ErrorLog.isFull_unnumbered]
      simp only [Change.failure?, Change.effect, Change.bare, bare, hfull]
      rfl
  | _ => rfl

theorem similar_run {change change' : Change} (h : change.bare = change'.bare) (hc : change.isRevision = false) :
    Agree Similar change.run change'.run := by
  have hc' : change'.isRevision = false := by rw [← isRevision_bare, ← h, isRevision_bare, hc]
  refine Change.agree_run (fun a b hab => ?_) fun a b hab => ?_
  · rw [Similar, bare_effect hc, bare_effect hc', h, hab]
  · rw [failure?_bare change, failure?_bare change', h, hab]

/-- Rows that are the same without numbers. -/
theorem similar_runAll {l m : List Change} (h : l.map Change.bare = m.map Change.bare)
    (hl : ∀ change ∈ l, change.isRevision = false) : Agree Similar (runAll l) (runAll m) := by
  induction l generalizing m with
  | nil =>
      rw [List.map_eq_nil_iff.mp h.symm]
      exact .pure ()
  | cons change rest ih =>
      obtain ⟨hfirst, hrest⟩ := List.forall_mem_cons.mp hl
      obtain ⟨change', rest', rfl, hchange, hsame⟩ := List.map_eq_cons_iff.mp h.symm
      exact (similar_run hchange.symm hfirst).bind fun _ => ih hsame.symm hrest

theorem similar_note (level : Level) (message message' : String) :
    Agree Similar (note level message) (note level message') :=
  have hsame : (Change.note level message).bare = (Change.note level message').bare := rfl
  similar_run hsame rfl

/-- Actions that look the same without numbers. -/
theorem similar_modify {f : Assembly → Assembly} (h : ∀ a, (f a).bare = (f a.bare).bare) :
    Agree Similar (modify f) (modify f) := by
  refine .modify fun a b hab => ?_
  rw [Similar, h, hab, ← h]

theorem similar_enter (phase : Phase) : Agree Similar (enter phase) (enter phase) :=
  similar_modify fun a => congrArg ({ · with phase }) a.bare_bare.symm

theorem similar_close (phase : Phase) (summary summary' : Assembly → String) :
    Agree Similar (close phase summary) (close phase summary') := by
  refine (similar_enter phase).bind fun _ => .get_bind fun a b hab => ?_
  rw [hab.hasErrors]
  exact (similar_note _ _ _).bind fun _ => .pure _

/-! ## The first pass -/

theorem bare_reportChanges {d d' : Diagnostic} (line line' : Int) (h : d.unnumbered = d'.unnumbered) :
    (reportChanges line d).map Change.bare = (reportChanges line' d').map Change.bare := by
  simp [reportChanges, Change.bare, h]

theorem bare_warnChanges (line line' : Int) (message : String) :
    (warnChanges line message).map Change.bare = (warnChanges line' message).map Change.bare := by
  simp [warnChanges, Change.bare, unnumberedWarning_lineMessage]

section

variable {a b : Assembly}

theorem bare_defineChanges (hab : Similar a b) (name : String) (address line line' : Int) :
    (defineChanges a name address line).map Change.bare = (defineChanges b name address line').map Change.bare := by
  have hfind : (a.symbols.find? name).map Symbol.unnumbered = (b.symbols.find? name).map Symbol.unnumbered := by
    rw [← SymbolTable.find?_unnumbered, ← SymbolTable.find?_unnumbered]
    exact congrArg (·.symbols.find? name) hab
  unfold defineChanges
  rw [hab.file]
  cases ha : a.symbols.find? name with
  | none =>
      rw [ha] at hfind
      rw [Option.map_eq_none_iff.mp hfind.symm]
      rfl
  | some first =>
      rw [ha] at hfind
      obtain ⟨first', hb, -⟩ := Option.map_eq_some_iff.mp hfind.symm
      rw [hb]
      exact bare_reportChanges line line' rfl

theorem bare_labelChanges (hab : Similar a b) (s : Statement) (number : Int) :
    (labelChanges a s).map Change.bare = (labelChanges b (s.atLine number)).map Change.bare := by
  unfold labelChanges
  rw [show (s.atLine number).label = s.label from rfl]
  split
  · rfl
  · exact bare_defineChanges hab _ _ _ _

theorem bare_operandChanges (hab : Similar a b) (s : Statement) (number : Int) (i : Instruction) :
    (operandChanges a s i).map Change.bare = (operandChanges b (s.atLine number) i).map Change.bare := by
  unfold operandChanges
  rw [hab.settings, hab.file]
  split
  · rfl
  · split
    · rfl
    · exact bare_warnChanges _ _ _

theorem bare_directiveChanges (s : Statement) (number : Int) (d : Directive) :
    (directiveChanges s d).map Change.bare = (directiveChanges (s.atLine number) d).map Change.bare := by
  unfold directiveChanges sizedChanges
  rw [show (s.atLine number).operands = s.operands from rfl, show (s.atLine number).size = s.size from rfl]
  split
  · split <;> rfl
  · split
    · split
      · exact bare_warnChanges _ _ _
      · rfl
    · rfl

theorem bare_bookChanges (hab : Similar a b) (s : Statement) (number : Int) :
    (bookChanges a s).map Change.bare = (bookChanges b (s.atLine number)).map Change.bare := by
  unfold bookChanges
  rw [show (s.atLine number).body = s.body from rfl]
  split
  · rfl
  · exact congrArg (_ :: ·) (bare_defineChanges hab _ _ _ _)
  · simp only [List.map_append, bare_labelChanges hab s number, bare_directiveChanges s number]
    rfl
  · simp only [List.map_append, bare_labelChanges hab s number, bare_operandChanges hab s number]
    rfl

end

/-- A line makes the same changes under another number, up to that number. -/
theorem bare_lineChanges {a b : Assembly} (hab : Similar a b) (number number' : Nat) (text : String) :
    (lineChanges a number text).map Change.bare = (lineChanges b number' text).map Change.bare ∧
      (lineResult a number text).map (fun _ => ()) = (lineResult b number' text).map fun _ => () := by
  have hpc : a.pc = b.pc := congrArg (·.pc) hab
  have hparse := Statement.parse_renumber b.file text number number' b.pc
  unfold lineChanges lineResult
  rw [hparse, hab.file, hpc]
  cases Statement.parse b.file text number b.pc with
  | ok s => exact ⟨congrArg (_ :: ·) (bare_bookChanges hab s number'), rfl⟩
  | error failure =>
      cases failure with
      | diagnostic d => exact ⟨bare_reportChanges _ _ (d.unnumbered_atLine number').symm, rfl⟩
      | fault fault => exact ⟨rfl, rfl⟩

theorem discard_placeLine (number : Nat) (text : String) : discard (placeLine number text) = (do
    let a ← get
    runAll (lineChanges a number text)
    Action.orFault ((lineResult a number text).map fun _ => ())) := by
  funext a
  rw [placeLine_eq, discard_run, bind_run, bind_run, Action.get_run]
  dsimp only
  rw [bind_run, bind_run]
  cases runAll (lineChanges a number text) a with
  | ok _ b => cases lineResult a number text <;> rfl
  | error failure b => rfl

theorem similar_placeLine (number number' : Nat) (text : String) :
    Agree Similar (discard (placeLine number text)) (discard (placeLine number' text)) := by
  rw [discard_placeLine, discard_placeLine]
  refine .get_bind fun a b hab => ?_
  obtain ⟨hchanges, hresult⟩ := bare_lineChanges hab number number' text
  rw [hresult]
  refine (similar_runAll hchanges ?_).bind fun _ => .orFault _
  exact forall_mem_lineChanges (fun _ _ => rfl) (fun _ _ change h => by cases h <;> rfl) (fun _ _ => rfl)
    fun _ _ => rfl

theorem placeLines_run {text : String} (number : Nat) (rest : List String)
    (hv : Text.isBlankText text.toList = false) : discard (placeLines number (text :: rest)) = (do
      discard (placeLine number text)
      discard (placeLines (number + 1) rest)) := by
  funext a
  rw [placeLines_visible number rest hv, discard_run, bind_run, bind_run, discard_run]
  cases placeLine number text a with
  | ok result b =>
      dsimp only
      rw [bind_run, discard_run]
      cases placeLines (number + 1) rest b <;> rfl
  | error failure b => rfl

theorem placeLine_remark {text : String} (number : Nat)
    (h : SourceLine.isRemark (SourceLine.expand text) = true) (a : Assembly) :
    Ends (discard (placeLine number text)) a (fun _ b => Similar b a) (fun _ _ => False) := by
  obtain ⟨s, hparse, hbody⟩ := Statement.parse_remark a.file number a.pc h
  have hchanges : lineChanges a number text = [.place s] := by
    simp only [lineChanges, hparse, placeChanges, bookChanges, hbody]
  have hresult : lineResult a number text = .ok { line := number, outcome := .ok s } := by
    simp only [lineResult, hparse]
  have hadded : bareStatements (a.statements ++ [s]) = bareStatements a.statements := by
    rw [bareStatements_append, bareStatements_remark (Statement.isRemark_iff.mpr hbody)]
    exact List.append_nil _
  rw [discard_placeLine, ends_bind, ends_get, hchanges, hresult]
  change bare { a with statements := a.statements ++ [s] } = a.bare
  simp only [bare, hadded]

/-- Lines without code may be left out. -/
theorem similar_placeLines (number number' : Nat) (lines : List String) :
    Agree Similar (discard (placeLines number lines))
      (discard (placeLines number' (lines.filter (!SourceLine.isInert ·)))) := by
  induction lines generalizing number number' with
  | nil => exact .pure ()
  | cons text rest ih =>
      cases hv : Text.isBlankText text.toList with
      | true =>
          have hinert := (SourceLine.isInert_iff text).mpr (.inl hv)
          rw [placeLines_blank number rest hv, List.filter_cons_of_neg (by simp [hinert])]
          exact ih (number + 1) number'
      | false =>
          rw [placeLines_run number rest hv]
          cases hr : SourceLine.isRemark (SourceLine.expand text) with
          | true =>
              have hinert := (SourceLine.isInert_iff text).mpr (.inr hr)
              rw [List.filter_cons_of_neg (by simp [hinert])]
              refine .skip (fun a b hab => ?_) (ih (number + 1) number')
              exact (placeLine_remark number hr a).imp fun _ _ h => h.trans hab
          | false =>
              have hinert : SourceLine.isInert text = false := by
                rw [Bool.eq_false_iff, Ne, SourceLine.isInert_iff, hv, hr]
                simp
              rw [List.filter_cons_of_pos (by simp [hinert]), placeLines_run number' _ hv]
              exact (similar_placeLine number number' text).bind fun _ => ih (number + 1) (number' + 1)

theorem similar_pass1 (lines : List String) :
    Agree Similar (pass1 lines) (pass1 (lines.filter (!SourceLine.isInert ·))) := by
  have hlines := agree_untilFull (fun message => similar_note .error message message) (similar_placeLines 1 1 lines)
  refine .get_bind fun a b hab => ?_
  rw [hab.phase]
  split
  · exact .throw _
  · exact (similar_enter _).bind fun _ => hlines.bind fun _ => similar_close _ _ _

/-! ## The second pass -/

theorem similar_reportLine {d d' : Diagnostic} (line line' : Int) (h : d.unnumbered = d'.unnumbered) :
    Agree Similar (reportLine line d) (reportLine line' d') := by
  rw [reportLine_eq, reportLine_eq]
  exact similar_runAll (bare_reportChanges line line' h) (forall_mem_reportChanges (fun _ _ => rfl) rfl)

theorem bare_reportAllChanges (ds : List Diagnostic) : (reportAllChanges ds).map Change.bare =
    (ds.map Diagnostic.unnumbered).flatMap fun d => [.note .error "", .report d] := by
  rw [reportAllChanges, List.map_flatMap, List.flatMap_map]
  rfl

theorem similar_reportAll {ds ds' : List Diagnostic}
    (h : ds.map Diagnostic.unnumbered = ds'.map Diagnostic.unnumbered) :
    Agree Similar (reportAll ds) (reportAll ds') := by
  rw [reportAll_eq, reportAll_eq]
  refine similar_runAll ?_ (forall_mem_reportAllChanges (fun _ _ => rfl) fun _ => rfl)
  rw [bare_reportAllChanges, bare_reportAllChanges, h]

theorem reportLine_statements (line : Int) (d : Diagnostic) (a : Assembly) :
    Ends (reportLine line d) a (fun _ b => b.statements = a.statements) (fun _ _ => True) :=
  Ends.imp_error (report_ends fun _ => rfl) fun _ _ _ => trivial

/-- A scan has come to `old`, and one without remarks and numbers has come to the same place. -/
structure Abreast (old done done' : List Statement) (a b : Assembly) : Prop where
  similar : Similar a b
  scanned : bareStatements done = bareStatements done'
  left : a.statements = done ++ old
  right : b.statements = done' ++ bareStatements old

section

variable {table : SymbolTable} {file : String} {s : Statement} {old done done' : List Statement} {a b : Assembly}

theorem Abreast.remark (h : Abreast (s :: old) done done' a b) (hs : s.isRemark = true) :
    Abreast old (done ++ [s]) done' a b where
  similar := h.similar
  scanned := by
    rw [bareStatements_append, bareStatements_remark hs, ← h.scanned]
    exact List.append_nil _
  left := by simp [h.left]
  right := by rw [h.right, bareStatements_remark hs]

theorem Abreast.revised (h : Abreast (s :: old) done done' a b) (hs : s.isRemark = false) {t : Statement}
    (ht : t.isRemark = false) :
    Abreast old (done ++ [t]) (done' ++ [t.unnumbered])
      { a with statements := a.statements.set done.length t }
      { b with statements := b.statements.set done'.length t.unnumbered } := by
  have hleft : a.statements.set done.length t = (done ++ [t]) ++ old := by simp [h.left]
  have hright : b.statements.set done'.length t.unnumbered = (done' ++ [t.unnumbered]) ++ bareStatements old := by
    simp [h.right, bareStatements_cons hs]
  have hscanned : bareStatements (done ++ [t]) = bareStatements (done' ++ [t.unnumbered]) := by
    rw [bareStatements_append, bareStatements_append, h.scanned, bareStatements_cons ht,
      bareStatements_cons (show t.unnumbered.isRemark = false from ht)]
    rfl
  have hsame : bareStatements (a.statements.set done.length t) =
      bareStatements (b.statements.set done'.length t.unnumbered) := by
    rw [hleft, hright, bareStatements_append, hscanned, bareStatements_append _ (bareStatements old),
      bareStatements_bareStatements]
  refine ⟨?_, hscanned, hleft, hright⟩
  calc bare { a with statements := a.statements.set done.length t }
      = { a.bare with statements := bareStatements (a.statements.set done.length t) } := rfl
    _ = { b.bare with statements := bareStatements (b.statements.set done'.length t.unnumbered) } := by
        rw [h.similar, hsame]

theorem Abreast.reported (h : Abreast old done done' a b) {d d' : Diagnostic} (hd : d.unnumbered = d'.unnumbered)
    (line line' : Int) {x y : Action Unit}
    (hnext : ∀ a b, Abreast old done done' a b → x.seen bare a = y.seen bare b) :
    (do reportLine line d; x).seen bare a = (do reportLine line' d'; y).seen bare b := by
  rcases (similar_reportLine line line' hd a b h.similar).cases with
    ⟨_, a', ha, b', hb, hab⟩ | ⟨failure, a', ha, b', hb, hab⟩
  · have hleft := (reportLine_statements line d a).of_ok ha
    have hright := (reportLine_statements line' d' b).of_ok hb
    rw [Action.seen_bind_ok ha, Action.seen_bind_ok hb]
    exact hnext a' b' ⟨hab, h.scanned, hleft.trans h.left, hright.trans h.right⟩
  · rw [Action.seen_bind_error ha, Action.seen_bind_error hb, hab]

/-- The scan writes by place, and the places are others without the remarks; the statements are not. -/
theorem commit_bare (base : Option Int) (h : Abreast old done done' a b) :
    (commit done.length (revisions table file base old)).seen bare a =
      (commit done'.length (revisions table.unnumbered file base (bareStatements old))).seen bare b := by
  induction old generalizing base done done' a b with
  | nil => exact congrArg (Prod.mk (Except.ok ())) h.similar
  | cons s rest ih =>
      cases hs : s.isRemark with
      | true =>
          -- A remark is put back where it stands, and only the first scan comes to it.
          have hput : a.statements.set done.length s = a.statements := by simp [h.left]
          have hrun : commit done.length (revisions table file base (s :: rest)) a =
              commit (done ++ [s]).length (revisions table file base rest) a := by
            rw [revisions, Statement.revise_remark table file base hs, commit, bind_run, Action.modify_run, hput,
              List.length_append]
            rfl
          rw [Action.seen, hrun, bareStatements_remark hs]
          exact ih base (h.remark hs)
      | false =>
          have hrevise := Statement.revise_unnumbered table file base s
          have hkept := (Statement.isRemark_revise table file base s).trans hs
          rw [bareStatements_cons hs, revisions, revisions, Statement.revise_table, hrevise]
          generalize s.revise table file base = revised at hkept ⊢
          obtain ⟨⟨t, problem⟩, next⟩ := revised
          have habreast := h.revised hs hkept
          have hnext (a b : Assembly) (h : Abreast rest (done ++ [t]) (done' ++ [t.unnumbered]) a b) :
              (commit (done.length + 1) (revisions table file next rest)).seen bare a =
                (commit (done'.length + 1)
                  (revisions table.unnumbered file next (bareStatements rest))).seen bare b := by
            simpa only [List.length_append, List.length_singleton] using ih next h
          rw [commit, commit, Action.seen_bind_ok (Action.modify_run _ _),
            Action.seen_bind_ok (Action.modify_run _ _)]
          cases problem with
          | none => exact hnext _ _ habreast
          | some failure =>
              cases failure with
              | fault fault => exact congrArg (Prod.mk (Except.error (Failure.fault fault))) habreast.similar
              | diagnostic d => exact habreast.reported d.unnumbered_unnumbered.symm _ _ hnext

theorem similar_selectDisplacements : Agree Similar selectDisplacements selectDisplacements := by
  refine Action.agree_of_view fun a => ?_
  have hstart : Abreast a.statements [] [] a a.bare := ⟨a.bare_bare.symm, rfl, rfl, rfl⟩
  exact commit_bare none hstart

theorem similar_resolveAll : Agree Similar resolveAll resolveAll := by
  refine Action.agree_iff_seen.mpr fun a b (hab : Similar a b) => ?_
  have hsymbols : a.symbols.unnumbered = b.symbols.unnumbered := congrArg (·.symbols) hab
  have hstatements : bareStatements a.statements = bareStatements b.statements := congrArg (·.statements) hab
  have herrors : (a.statements.flatMap (·.unresolvedErrors a.symbols)).map Diagnostic.unnumbered =
      (b.statements.flatMap (·.unresolvedErrors b.symbols)).map Diagnostic.unnumbered := by
    rw [← unresolvedErrors_bareStatements, ← unresolvedErrors_bareStatements, hstatements]
    simp only [← Statement.unresolvedErrors_table a.symbols, ← Statement.unresolvedErrors_table b.symbols, hsymbols]
  have hresolved : bareStatements (a.statements.map (·.resolve a.symbols)) =
      bareStatements (b.statements.map (·.resolve b.symbols)) := by
    rw [bareStatements_resolve, bareStatements_resolve, hstatements]
    simp only [← Statement.resolve_table a.symbols, ← Statement.resolve_table b.symbols, hsymbols]
  have hnext : Similar { a with statements := a.statements.map (·.resolve a.symbols) }
      { b with statements := b.statements.map (·.resolve b.symbols) } := by
    calc bare { a with statements := a.statements.map (·.resolve a.symbols) }
        = { a.bare with statements := bareStatements (a.statements.map (·.resolve a.symbols)) } := rfl
      _ = { b.bare with statements := bareStatements (b.statements.map (·.resolve b.symbols)) } := by
          rw [hab, hresolved]
  have hrelative : a.settings.relativeAddressing = b.settings.relativeAddressing := by rw [hab.settings]
  rw [Action.seen, Action.seen, resolveAll_split, resolveAll_split, hrelative]
  refine Action.agree_iff_seen.mp ((similar_reportAll herrors).bind fun _ => ?_) _ _ hnext
  split
  · exact similar_selectDisplacements
  · exact .pure ()

theorem bare_truncationChanges (l : List Statement) :
    (truncationChanges l).map Change.bare = (truncationChanges (bareStatements l)).map Change.bare := by
  induction l with
  | nil => rfl
  | cons s rest ih =>
      cases hs : s.isRemark with
      | true =>
          have hnone : truncation? s = none := by simp only [truncation?, Statement.isRemark_iff.mp hs]
          rw [bareStatements_remark hs, ← ih, truncationChanges, List.flatMap_cons, hnone]
          rfl
      | false =>
          have htext : truncation? s.unnumbered = truncation? s := rfl
          rw [bareStatements_cons hs, truncationChanges, truncationChanges, List.flatMap_cons, List.flatMap_cons, htext,
            List.map_append, List.map_append]
          refine congr (congrArg _ ?_) ih
          split
          · exact bare_warnChanges _ _ _
          · rfl

theorem similar_warnTruncations {l l' : List Statement} (h : bareStatements l = bareStatements l') :
    Agree Similar (warnTruncations l) (warnTruncations l') := by
  rw [warnTruncations_eq, warnTruncations_eq]
  refine similar_runAll ?_ (forall_mem_truncationChanges (fun _ _ => rfl) fun _ => rfl)
  rw [bare_truncationChanges, h, ← bare_truncationChanges]

theorem similar_pass2 : Agree Similar pass2 pass2 := by
  have hresolve := agree_untilFull (fun message => similar_note .error message message) similar_resolveAll
  refine .get_bind fun a b hab => ?_
  rw [hab.phase, hab.hasErrors]
  split
  · exact .throw _
  · split
    · exact (similar_note _ _ _).bind fun _ => .pure _
    · refine (similar_enter _).bind fun _ => hresolve.bind fun _ => .get_bind fun a b hab => ?_
      rw [hab.hasErrors]
      split
      · exact similar_close _ _ _
      · exact (similar_warnTruncations (congrArg (·.statements) hab)).bind fun _ => similar_close _ _ _

theorem build_bareStatements (limit : RecordLimit) (l : List Statement) (name : String) (start length : Int) :
    ObjectProgram.build limit (bareStatements l) name start length =
      ObjectProgram.build limit l name start length := by
  simp only [ObjectProgram.build, addAll_bareStatements]

theorem similar_generateObject : Agree Similar generateObject generateObject := by
  refine .get_bind fun a b hab => ?_
  have hready : a.isResolved = b.isResolved := congrArg (·.isResolved) hab
  have hbuild : ObjectProgram.build a.limit a.statements a.name a.start a.length =
      ObjectProgram.build b.limit b.statements b.name b.start b.length := by
    rw [← build_bareStatements a.limit, ← build_bareStatements b.limit]
    exact congrArg (fun c => ObjectProgram.build c.limit c.statements c.name c.start c.length) hab
  rw [hab.hasErrors, hready, hab.phase, hbuild]
  split
  · exact (similar_note _ _ _).bind fun _ => .pure _
  · split
    · exact .throw _
    · refine (Agree.orFault _).bind fun p => .bind ?_ fun _ => (similar_note _ _ _).bind fun _ => .pure _
      exact similar_modify fun a =>
        congrArg ({ · with object := some p, phase := .objectGenerated }) a.bare_bare.symm

end

/-! ## Sources with the same code -/

theorem Similar.symbols {a b : Assembly} (h : Similar a b) :
    a.symbols.map (fun s => (s.name, s.address)) = b.symbols.map (fun s => (s.name, s.address)) := by
  have hmap := congrArg (·.symbols.map fun s => (s.name, s.address)) h
  simp only [bare, SymbolTable.unnumbered, List.map_map] at hmap
  exact hmap

theorem Similar.codes {a b : Assembly} (h : Similar a b) :
    a.errors.errors.map (·.code) = b.errors.errors.map (·.code) := by
  have hmap := congrArg (fun log => log.errors.map (·.code)) h.errors
  simpa only [ErrorLog.unnumbered, List.map_map, Function.comp_def, Diagnostic.code_unnumbered] using hmap

/-- Blank lines and remarks may be put anywhere or taken away: each step then ends with the same value or fails in
the same way, and leaves the same program, names, statements and errors up to the numbers of lines. -/
theorem passes_inert {lines lines' : List String}
    (h : lines.filter (!SourceLine.isInert ·) = lines'.filter (!SourceLine.isInert ·)) (a : Assembly) :
    let a₁ := (pass1 lines).after a
    let b₁ := (pass1 lines').after a
    let a₂ := pass2.after a₁
    let b₂ := pass2.after b₁
    (pass1 lines).seen bare a = (pass1 lines').seen bare a ∧
    pass2.seen bare a₁ = pass2.seen bare b₁ ∧
    generateObject.seen bare a₂ = generateObject.seen bare b₂ ∧
    ∀ c ∈ [(a₁, b₁), (a₂, b₂), (generateObject.after a₂, generateObject.after b₂)],
      c.1.symbols.map (fun s => (s.name, s.address)) = c.2.symbols.map (fun s => (s.name, s.address)) ∧
      bareStatements c.1.statements = bareStatements c.2.statements ∧
      c.1.errors.errors.map (·.code) = c.2.errors.errors.map (·.code) ∧ c.1.object = c.2.object := by
  intro a₁ b₁ a₂ b₂
  have hpass1 : (pass1 lines).seen bare a = (pass1 lines').seen bare a := by
    rw [Action.agree_iff_seen.mp (similar_pass1 lines) a a rfl, h,
      ← Action.agree_iff_seen.mp (similar_pass1 lines') a a rfl]
  have hsame₁ : Similar a₁ b₁ := Action.view_after hpass1
  have hpass2 := Action.agree_iff_seen.mp similar_pass2 a₁ b₁ hsame₁
  have hsame₂ : Similar a₂ b₂ := Action.view_after hpass2
  have hobject := Action.agree_iff_seen.mp similar_generateObject a₂ b₂ hsame₂
  refine ⟨hpass1, hpass2, hobject, ?_⟩
  have hparts {a b : Assembly} (hab : Similar a b) :
      a.symbols.map (fun s => (s.name, s.address)) = b.symbols.map (fun s => (s.name, s.address)) ∧
      bareStatements a.statements = bareStatements b.statements ∧
      a.errors.errors.map (·.code) = b.errors.errors.map (·.code) ∧ a.object = b.object :=
    ⟨hab.symbols, congrArg (·.statements) hab, hab.codes, congrArg (·.object) hab⟩
  intro c hc
  simp only [List.mem_cons, List.not_mem_nil, or_false] at hc
  rcases hc with rfl | rfl | rfl
  · exact hparts hsame₁
  · exact hparts hsame₂
  · exact hparts (Action.view_after hobject)

/-- A target out of reach, with remarks and blank lines and without. -/
theorem passes_inert_unreachable :
    let lines := ["\t. head", "P       START  1000", "", "TOP     LDA    LAST", "  ;;", "        RESB   4096",
      " \t\r", "LAST    WORD   5", ".       J      TOP"]
    let code := ["P       START  1000", "TOP     LDA    LAST", "        RESB   4096", "LAST    WORD   5"]
    ∃ a₀, create { relativeAddressing := true } "far.asm" = .ok a₀ ∧
      let a := pass2.after ((pass1 lines).after a₀)
      let b := pass2.after ((pass1 code).after a₀)
      lines.filter (!SourceLine.isInert ·) = code.filter (!SourceLine.isInert ·) ∧
      a.errors.errors.map (·.line) = [some 4] ∧ b.errors.errors.map (·.line) = [some 2] ∧
      a.errors.errors.map (·.code) = [some 11] ∧ b.errors.errors.map (·.code) = [some 11] ∧
      bareStatements a.statements = bareStatements b.statements := by
  intro lines code
  obtain ⟨a₀, h⟩ : ∃ a₀, create { relativeAddressing := true } "far.asm" = .ok a₀ := ⟨_, rfl⟩
  have hlines : lines.filter (!SourceLine.isInert ·) = code.filter (!SourceLine.isInert ·) := by decide +kernel
  obtain ⟨-, -, -, hparts⟩ := passes_inert hlines a₀
  obtain ⟨-, hstatements, hcodes, -⟩ :=
    hparts (pass2.after ((pass1 lines).after a₀), pass2.after ((pass1 code).after a₀)) (by simp)
  have hcomputed : (pass2.after ((pass1 lines).after a₀)).errors.errors.map (·.line) = [some 4] ∧
      (pass2.after ((pass1 code).after a₀)).errors.errors.map (·.line) = [some 2] ∧
      (pass2.after ((pass1 code).after a₀)).errors.errors.map (·.code) = [some 11] := by
    cases h
    decide +kernel
  exact ⟨a₀, h, hlines, hcomputed.1, hcomputed.2.1, hcodes.trans hcomputed.2.2, hcomputed.2.2, hstatements⟩

end Assembly

end TwoPass
