import TwoPass.Proofs.Assembly.Changes
import TwoPass.Proofs.Statement.Code
import TwoPass.Proofs.Statement.Failure

/-!
The scope of placing lines: which statements and errors each line may add, and with which fault it may fail.
An action that keeps within a scope adds to the end of the lists and leaves the phase alone. It reads the
error log only to see whether that is full, so it does the same again on an assembly with another log.
-/

namespace TwoPass.Assembly

open TwoPass.Action (Ends bind_run ends_bind ends_get ends_modify)

variable {α β : Type}

/-- What an action on an assembly of `file` may place, report and fail with. -/
structure Scope where
  file : String
  places : Statement → Prop
  reports : Diagnostic → Prop
  faults : Fault → Prop

/-- Each of the new errors leaves the log below its limit. -/
def HasRoom (limit : Int) (errors new : List Diagnostic) : Prop :=
  new = [] ∨ ((errors ++ new).length : Int) < limit

theorem HasRoom.left {limit : Int} {errors new more : List Diagnostic}
    (h : HasRoom limit errors (new ++ more)) : HasRoom limit errors new := by
  rcases h with h | h
  · exact .inl (List.append_eq_nil_iff.mp h).1
  · refine .inr ?_
    simp only [List.length_append] at h ⊢
    omega

theorem HasRoom.right {limit : Int} {errors new more : List Diagnostic}
    (h : HasRoom limit errors (new ++ more)) : HasRoom limit (errors ++ new) more := by
  rcases h with h | h
  · exact .inl (List.append_eq_nil_iff.mp h).2
  · exact .inr (by rwa [List.append_assoc])

theorem HasRoom.append {limit : Int} {errors new more : List Diagnostic} (h : HasRoom limit errors new)
    (h' : HasRoom limit (errors ++ new) more) : HasRoom limit errors (new ++ more) := by
  rcases h' with rfl | h'
  · rwa [List.append_nil]
  · exact .inr (by rwa [← List.append_assoc])

theorem HasRoom.of_length_le {limit : Int} {errors errors' new : List Diagnostic} (h : HasRoom limit errors new)
    (hlen : errors'.length ≤ errors.length) : HasRoom limit errors' new := by
  rcases h with h | h
  · exact .inl h
  · refine .inr ?_
    rw [List.length_append] at h ⊢
    omega

/-- The assembly with other errors and another journal. -/
def relogged (a : Assembly) (errors : List Diagnostic) (journal : List JournalEntry) : Assembly :=
  { a with errors := { a.errors with errors }, journal }

/-- `b` is `a` with more statements and errors; phase, settings and object program are as they were. -/
structure Grown (scope : Scope) (a b : Assembly) (placed : List Statement) (new : List Diagnostic) : Prop where
  kept : b = { a with
    statements := a.statements ++ placed, symbols := b.symbols, pc := b.pc, start := b.start, name := b.name
    errors := { a.errors with errors := a.errors.errors ++ new, warnings := b.errors.warnings }
    journal := b.journal }
  placed : ∀ s ∈ placed, scope.places s
  reported : ∀ d ∈ new, scope.reports d

namespace Grown

variable {scope : Scope} {a b c : Assembly} {placed more : List Statement} {new further : List Diagnostic}

theorem of_same (h : b = { a with
    symbols := b.symbols, pc := b.pc, start := b.start, name := b.name
    errors := { a.errors with warnings := b.errors.warnings }, journal := b.journal }) :
    Grown scope a b [] [] :=
  ⟨by simpa using h, by simp, by simp⟩

theorem file (h : Grown scope a b placed new) : b.file = a.file := by rw [h.kept]

theorem phase (h : Grown scope a b placed new) : b.phase = a.phase := by rw [h.kept]

theorem object (h : Grown scope a b placed new) : b.object = a.object := by rw [h.kept]

theorem statements (h : Grown scope a b placed new) : b.statements = a.statements ++ placed := by rw [h.kept]

theorem errors (h : Grown scope a b placed new) : b.errors.errors = a.errors.errors ++ new := by rw [h.kept]

theorem limit (h : Grown scope a b placed new) : b.errors.limit = a.errors.limit := by rw [h.kept]

theorem trans (h : Grown scope a b placed new) (h' : Grown scope b c more further) :
    Grown scope a c (placed ++ more) (new ++ further) := by
  refine ⟨?_, ?_, ?_⟩
  · rw [h'.kept, h.kept]
    simp only [List.append_assoc]
  · exact fun s hs => (List.mem_append.mp hs).elim (h.placed s) (h'.placed s)
  · exact fun d hd => (List.mem_append.mp hd).elim (h.reported d) (h'.reported d)

theorem mono {scope' : Scope} (h : Grown scope a b placed new) (hs : ∀ s, scope.places s → scope'.places s)
    (hd : ∀ d, scope.reports d → scope'.reports d) : Grown scope' a b placed new :=
  ⟨h.kept, fun s hm => hs s (h.placed s hm), fun d hm => hd d (h.reported d hm)⟩

end Grown

/-- The action succeeds within its scope, and would so with any other log that has room for its errors. -/
structure Succeeds (scope : Scope) (x : Action α) (a : Assembly) (value : α) (b : Assembly)
    (placed : List Statement) (new : List Diagnostic) : Prop where
  grown : Grown scope a b placed new
  room : HasRoom a.errors.limit a.errors.errors new
  again : ∀ errors journal, HasRoom a.errors.limit errors new →
    ∃ journal', x (a.relogged errors journal) = .ok value (b.relogged (errors ++ new) journal')

/-- The action fails within its scope: its last error has filled the log, or a fault has come up. -/
structure Breaks (scope : Scope) (a : Assembly) (failure : Failure) (b : Assembly)
    (placed : List Statement) (new : List Diagnostic) : Prop where
  grown : Grown scope a b placed new
  cause : (new ≠ [] ∧ b.errors.isFull = true ∧ failure = .diagnostic b.errors.overflow) ∨
    ∃ fault, scope.faults fault ∧ failure = .fault fault

def Keeps (scope : Scope) (x : Action α) : Prop :=
  ∀ a : Assembly, a.file = scope.file → Ends x a
    (fun value b => ∃ placed new, Succeeds scope x a value b placed new)
    (fun failure b => ∃ placed new, Breaks scope a failure b placed new)

/-! ## Building blocks -/

namespace Keeps

variable {scope scope' : Scope} {x : Action α} {f : α → Action β}

theorem mono (h : Keeps scope x) (hfile : scope.file = scope'.file)
    (hplaces : ∀ s, scope.places s → scope'.places s) (hreports : ∀ d, scope.reports d → scope'.reports d)
    (hfaults : ∀ fault, scope.faults fault → scope'.faults fault) : Keeps scope' x := by
  intro a ha
  refine (h a (ha.trans hfile.symm)).mono ?_ ?_
  · rintro value b ⟨placed, new, hs⟩
    exact ⟨placed, new, hs.grown.mono hplaces hreports, hs.room, hs.again⟩
  · rintro failure b ⟨placed, new, hb⟩
    refine ⟨placed, new, hb.grown.mono hplaces hreports, hb.cause.imp_right ?_⟩
    rintro ⟨fault, hfault, rfl⟩
    exact ⟨fault, hfaults fault hfault, rfl⟩

theorem pure (value : α) : Keeps scope (Pure.pure value) := fun _ _ =>
  ⟨[], [], .of_same rfl, .inl rfl, fun errors journal _ => ⟨journal, by rw [List.append_nil]; rfl⟩⟩

theorem bind (hx : Keeps scope x) (hf : ∀ value, Keeps scope (f value)) : Keeps scope (x >>= f) := by
  intro a ha
  rw [ends_bind]
  refine (hx a ha).mono ?_ fun _ _ h => h
  rintro value b ⟨placed, new, hs⟩
  refine (hf value b (hs.grown.file.trans ha)).mono ?_ ?_
  · rintro result c ⟨more, further, hs'⟩
    have hroom := hs'.room
    rw [hs.grown.limit, hs.grown.errors] at hroom
    refine ⟨_, _, hs.grown.trans hs'.grown, hs.room.append hroom, fun errors journal hfree => ?_⟩
    obtain ⟨journal₁, h₁⟩ := hs.again errors journal hfree.left
    obtain ⟨journal₂, h₂⟩ := hs'.again (errors ++ new) journal₁ (by rw [hs.grown.limit]; exact hfree.right)
    exact ⟨journal₂, by rw [bind_run, h₁, ← List.append_assoc]; exact h₂⟩
  · rintro failure c ⟨more, further, hb⟩
    refine ⟨_, _, hs.grown.trans hb.grown, hb.cause.imp_left ?_⟩
    rintro ⟨hne, hfull⟩
    exact ⟨by simp [hne], hfull⟩

/-- What is read from the state may be anything but the errors and the journal. -/
theorem get_bind {f : Assembly → Action β} (hread : ∀ a errors journal, f (relogged a errors journal) = f a)
    (hf : ∀ a : Assembly, a.file = scope.file → Keeps scope (f a)) : Keeps scope (get >>= f) := by
  intro a ha
  rw [ends_bind, ends_get]
  refine (hf a ha a ha).mono ?_ fun _ _ h => h
  rintro value b ⟨placed, new, hs⟩
  refine ⟨placed, new, hs.grown, hs.room, fun errors journal hfree => ?_⟩
  obtain ⟨journal', h⟩ := hs.again errors journal hfree
  refine ⟨journal', ?_⟩
  rw [bind_run, Action.get_run]
  dsimp only
  rw [hread]
  exact h

theorem orFault {result : Except Fault α} (h : ∀ fault, result = .error fault → scope.faults fault) :
    Keeps scope (Action.orFault result) := by
  cases result with
  | ok value => exact pure value
  | error fault => exact fun _ _ => ⟨[], [], .of_same rfl, .inr ⟨fault, h fault rfl, rfl⟩⟩

end Keeps

/-! ## Single changes -/

/-- What a scope allows. Statements that have been placed stay as they are. -/
def Scope.Allows (scope : Scope) : Change → Prop
  | .place s => scope.places s
  | .report d => scope.reports d
  | .fail fault => scope.faults fault
  | .rewrite _ | .revise _ _ => False
  | _ => True

variable {file : String} {scope : Scope} {change : Change}

theorem Keeps.report {d : Diagnostic} (hd : scope.reports d) : Keeps scope (Assembly.report d) := by
  have hgrown : ∀ a : Assembly, Grown scope a { a with errors := a.errors.add d } [] [d] := fun a =>
    ⟨by simp [ErrorLog.add], by simp, by simpa using hd⟩
  intro a _
  simp only [Assembly.report, ends_bind, ends_modify, ends_get]
  split
  · rename_i hfull
    exact ⟨[], [d], hgrown a, .inl ⟨by simp, hfull, rfl⟩⟩
  · rename_i hfree
    refine ⟨[], [d], hgrown a, .inr ?_, fun errors journal hroom => ⟨journal, ?_⟩⟩
    · simpa [ErrorLog.isFull, ErrorLog.add] using hfree
    · have hfree' : ((a.relogged errors journal).errors.add d).isFull = false := by
        rcases hroom with h | h
        · cases h
        · simpa [ErrorLog.isFull, ErrorLog.add, relogged] using h
      rw [bind_run, Action.modify_run]
      dsimp only
      rw [bind_run, Action.get_run]
      dsimp only
      rw [hfree']
      rfl

/-- A change that adds no error. -/
theorem Keeps.modify {placed : List Statement} (hrun : change.run = modify fun a => change.effect a)
    (hgrown : ∀ a : Assembly, Grown scope a (change.effect a) placed [])
    (hsame : ∀ a errors journal, ∃ journal',
      change.effect (relogged a errors journal) = (change.effect a).relogged errors journal') :
    Keeps scope change.run := by
  intro a _
  rw [hrun, ends_modify]
  refine ⟨placed, [], hgrown a, .inl rfl, fun errors journal _ => ?_⟩
  obtain ⟨journal', h⟩ := hsame a errors journal
  exact ⟨journal', by rw [Action.modify_run, h, List.append_nil]⟩

theorem Keeps.run (h : scope.Allows change) : Keeps scope change.run := by
  cases change
  case report d => exact .report h
  case fail fault => exact fun _ _ => ⟨[], [], .of_same rfl, .inr ⟨fault, h, rfl⟩⟩
  case place s =>
    have hs : scope.places s := h
    have hplaced : ∀ a : Assembly, Grown scope a { a with statements := a.statements ++ [s] } [s] [] := fun a =>
      ⟨by simp, by simpa using hs, by simp⟩
    exact .modify rfl hplaced fun _ _ journal => ⟨journal, rfl⟩
  case rewrite statements => exact h.elim
  case revise place s => exact h.elim
  case note level message => exact .modify rfl (fun _ => .of_same rfl) fun _ _ _ => ⟨_, rfl⟩
  all_goals exact .modify rfl (fun _ => .of_same rfl) fun _ _ journal => ⟨journal, rfl⟩

theorem Keeps.runAll {l : List Change} (h : ∀ change ∈ l, scope.Allows change) :
    Keeps scope (Assembly.runAll l) := by
  induction l with
  | nil => exact .pure ()
  | cons change rest ih =>
      obtain ⟨hfirst, hrest⟩ := List.forall_mem_cons.mp h
      exact (Keeps.run hfirst).bind fun _ => ih hrest

/-! ## Lines -/

/-- What one line may add: its statement and errors about that, or the error that keeps it from being
one. -/
def Scope.line (file : String) (number : Nat) (text : String) : Scope where
  file
  places s := ∃ offset, Statement.parse file text number offset = .ok s
  reports d := (∃ offset, Statement.parse file text number offset = .error (.diagnostic d)) ∨
    ∃ s offset, Statement.parse file text number offset = .ok s ∧ Complaint file s d
  faults fault := ∃ offset, Statement.parse file text number offset = .error (.fault fault)

/-- What the lines that are not blank may add, where the first line has the given number. -/
def Scope.lines (file : String) (number : Nat) (lines : List String) : Scope where
  file
  places s := ∃ k text, lines[k]? = some text ∧ Text.isBlankText text.toList = false ∧
    (line file (number + k) text).places s
  reports d := ∃ k text, lines[k]? = some text ∧ Text.isBlankText text.toList = false ∧
    (line file (number + k) text).reports d
  faults fault := ∃ k text, lines[k]? = some text ∧ Text.isBlankText text.toList = false ∧
    (line file (number + k) text).faults fault

theorem Scope.line_reports_line {number : Nat} {text : String} {d : Diagnostic}
    (h : (line file number text).reports d) : d.line = some (number : Int) := by
  rcases h with ⟨offset, h⟩ | ⟨s, offset, h, hc⟩
  · exact Statement.parse_error_line h
  · rw [hc.line, Statement.line, (Statement.parse_parsed h).location]

theorem Booking.allowed {number : Nat} {text : String} {offset : Int} {s : Statement}
    (hparse : Statement.parse file text number offset = .ok s) (h : Booking file s change) :
    (Scope.line file number text).Allows change := by
  cases h with
  | report hd => exact .inr ⟨s, offset, hparse, hd⟩
  | fail hsize =>
      -- A statement that has been parsed has a size.
      obtain ⟨size, hs⟩ := (Statement.parse_parsed hparse).wellFormed.exists_size
      cases hs.symm.trans hsize
  | _ => trivial

theorem keeps_placeLine (number : Nat) (text : String) :
    Keeps (.line file number text) (placeLine number text) := by
  rw [placeLine_eq]
  refine Keeps.get_bind (fun _ _ _ => rfl) fun a ha => ?_
  replace ha : a.file = file := ha
  subst ha
  refine (Keeps.runAll ?_).bind fun _ => .orFault fun fault hfault => ?_
  · exact forall_mem_lineChanges (fun s hs => ⟨a.pc, hs⟩) (fun s hs change h => h.allowed hs)
      (fun _ _ => trivial) fun d hd => .inl ⟨a.pc, hd⟩
  · exact ⟨a.pc, (lineResult_error hfault).1⟩

theorem Keeps.first_line {number : Nat} {text : String} {rest : List String} {x : Action α}
    (hv : Text.isBlankText text.toList = false) (h : Keeps (.line file number text) x) :
    Keeps (.lines file number (text :: rest)) x :=
  h.mono rfl (fun _ hs => ⟨0, text, rfl, hv, hs⟩) (fun _ hd => ⟨0, text, rfl, hv, hd⟩)
    fun _ hf => ⟨0, text, rfl, hv, hf⟩

theorem Keeps.other_lines {number : Nat} {text : String} {rest : List String} {x : Action α}
    (h : Keeps (.lines file (number + 1) rest) x) : Keeps (.lines file number (text :: rest)) x := by
  refine h.mono rfl ?_ ?_ ?_
  all_goals
    rintro _ ⟨k, line, hk, hv, h⟩
    exact ⟨k + 1, line, hk, hv, by rwa [Nat.add_right_comm] at h⟩

theorem keeps_placeLines : (number : Nat) → (lines : List String) →
    Keeps (.lines file number lines) (placeLines number lines)
  | _, [] => .pure []
  | number, text :: rest => by
      cases hv : Text.isBlankText text.toList with
      | true =>
          rw [placeLines_blank number rest hv]
          exact (keeps_placeLines (number + 1) rest).other_lines
      | false =>
          rw [placeLines_visible number rest hv]
          have hline : Keeps (.lines file number (text :: rest)) (placeLine number text) :=
            (keeps_placeLine number text).first_line hv
          exact hline.bind fun _ => (keeps_placeLines (number + 1) rest).other_lines.bind fun _ => .pure _

end TwoPass.Assembly
