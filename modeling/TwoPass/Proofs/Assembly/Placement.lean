import TwoPass.Proofs.Assembly.Changes
import TwoPass.Proofs.Assembly.Layout

/-!
The first pass keeps its books in step with the statements: every statement stands behind the one before
it, the symbol table holds the first definition of every label, and the error log names every further
one. The books are right after each line, also where the error limit ends the pass in the middle of one.
-/

namespace TwoPass

open TwoPass.Action (Ends ends_bind ends_discard ends_get)
open Layout

def Diagnostic.isRedefinition (d : Diagnostic) : Bool :=
  match d.cause with
  | .duplicateSymbol _ _ => true
  | _ => false

theorem SymbolTable.find?_eq_none {table : SymbolTable} {name : String} :
    table.find? name = none ↔ name ∉ table.names := by
  simp only [find?, names, List.find?_eq_none, List.mem_map, beq_iff_eq]
  constructor
  · rintro h ⟨symbol, hm, rfl⟩; exact h symbol hm rfl
  · rintro h symbol hm rfl; exact h ⟨symbol, hm, rfl⟩

theorem SymbolTable.find?_eq_some {table : SymbolTable} {name : String} {symbol : Symbol}
    (h : table.find? name = some symbol) : symbol ∈ table ∧ symbol.name = name :=
  ⟨List.mem_of_find?_eq_some h, by simpa using List.find?_some h⟩

namespace Assembly

/-! ## What the books say of a list of statements -/

/-- Statements in their places. -/
structure Laid (file : String) (l : List Statement) : Prop where
  parsed : ∀ s ∈ l, ∃ line offset, s.Parsed file line offset
  offset : ∀ pre s post, l = pre ++ s :: post → s.isStart = false → s.offset = counter pre

/-- Symbol table and error log as the labels of `l` ask for them. -/
structure Recorded (l : List Statement) (a : Assembly) : Prop where
  names : a.symbols.names = (labels l).eraseDups
  first : ∀ symbol ∈ a.symbols, ∃ s, l.find? (·.label == symbol.name) = some s ∧
    symbol.address = s.offset ∧ symbol.line = s.line
  redefined : a.errors.errors.filter (·.isRedefinition) = redefinitions a.file l

/-- The books of an assembly that began as `a₀`. -/
structure Placed (a₀ a : Assembly) : Prop where
  settings : a.settings = a₀.settings
  file : a.file = a₀.file
  laid : Laid a.file a.statements
  recorded : Recorded a.statements a

/-- The program counter is behind the last statement. -/
structure InStep (a : Assembly) : Prop where
  pc : a.pc = counter a.statements
  start : a.start = loadAddress a.statements
  extent : a.pc = a.start + ((sinceStart a.statements).map (·.room)).sum

/-- The books when the first pass is over. -/
structure Settled (a₀ a : Assembly) : Prop where
  placed : Placed a₀ a
  inStep : a.limitReached = false → InStep a

/-- Nothing but symbol table, error log and journal has changed, and these are up to date. -/
structure Booked (a a' : Assembly) : Prop where
  kept : a' = { a with symbols := a'.symbols, errors := a'.errors, journal := a'.journal }
  recorded : Recorded a.statements a'

theorem Laid.snoc {file : String} {l : List Statement} {s : Statement} {line : Int} (h : Laid file l)
    (hs : s.Parsed file line (counter l)) : Laid file (l ++ [s]) := by
  refine ⟨?_, ?_⟩
  · intro t ht
    rcases List.mem_append.mp ht with ht | ht
    · exact h.parsed t ht
    · rw [List.mem_singleton] at ht; subst ht; exact ⟨line, _, hs⟩
  · -- `t` is either the new statement or one of the old.
    intro pre t post he ht
    rcases List.eq_nil_or_concat post with rfl | ⟨post', u, rfl⟩
    · obtain ⟨rfl, hst⟩ := List.append_inj' he rfl
      cases hst
      exact hs.offset ht
    · rw [List.concat_eq_append, ← List.cons_append, ← List.append_assoc] at he
      obtain ⟨rfl, _⟩ := List.append_inj' he rfl
      exact h.offset pre t post' rfl ht

theorem Laid.wellFormed {file : String} {l : List Statement} (h : Laid file l) :
    ∀ s ∈ l, s.WellFormed := by
  intro s hs
  obtain ⟨line, offset, hparsed⟩ := h.parsed s hs
  exact hparsed.wellFormed

namespace Recorded

variable {l : List Statement} {a a' : Assembly} {s : Statement}

theorem first_snoc (h : Recorded l a) (s : Statement) {symbol : Symbol} (hm : symbol ∈ a.symbols) :
    ∃ t, (l ++ [s]).find? (·.label == symbol.name) = some t ∧ symbol.address = t.offset ∧
      symbol.line = t.line := by
  obtain ⟨t, ht, hrest⟩ := h.first symbol hm
  exact ⟨t, by rw [List.find?_append, ht, Option.some_or], hrest⟩

theorem of_same (h : Recorded l a) (hs : a'.symbols = a.symbols) (hf : a'.file = a.file)
    (he : a'.errors.errors.filter (·.isRedefinition) = a.errors.errors.filter (·.isRedefinition)) :
    Recorded l a' :=
  ⟨by rw [hs, h.names], by rw [hs]; exact h.first, by rw [he, hf, h.redefined]⟩

theorem unlabelled (h : Recorded l a) (hl : s.label = "") : Recorded (l ++ [s]) a := by
  refine ⟨by rw [labels_snoc_empty l hl, h.names], fun _ => h.first_snoc s, ?_⟩
  rw [redefinitions_snoc, h.redefined, redefinition?, if_pos hl]
  simp

theorem defined (h : Recorded l a) (hl : s.label ≠ "") (hf : a.symbols.find? s.label = none) :
    Recorded (l ++ [s]) { a with symbols := a.symbols ++ [⟨s.label, s.offset, s.line⟩] } := by
  rw [SymbolTable.find?_eq_none, h.names, List.mem_eraseDups] at hf
  have hnone : l.find? (·.label == s.label) = none := by
    cases hx : l.find? (·.label == s.label) with
    | none => rfl
    | some t => exact absurd ((mem_labels hl).mpr ⟨t, hx⟩) hf
  refine ⟨?_, ?_, ?_⟩
  · have hr : [s.label].removeAll (labels l) = [s.label] := by simp [List.removeAll, hf]
    have hn := h.names
    simp only [SymbolTable.names] at hn ⊢
    rw [labels_snoc l hl, List.eraseDups_append, hr, List.map_append, hn]
    rfl
  · intro symbol hm
    rcases List.mem_append.mp hm with hm | hm
    · exact h.first_snoc s hm
    · rw [List.mem_singleton] at hm
      subst hm
      exact ⟨s, by simp [List.find?_append, hnone], rfl, rfl⟩
  · rw [redefinitions_snoc, ← h.redefined, redefinition?, if_neg hl, hnone]
    simp

theorem again (h : Recorded l a) (hl : s.label ≠ "") {symbol : Symbol} {d : Diagnostic}
    (hf : a.symbols.find? s.label = some symbol)
    (hd : d = { cause := .duplicateSymbol s.label (some symbol.line)
                location := some ⟨a.file, s.line, labelColumn⟩ })
    (hs : a'.symbols = a.symbols) (hfile : a'.file = a.file) (he : a'.errors = a.errors.add d) :
    Recorded (l ++ [s]) a' := by
  obtain ⟨hmem, hname⟩ := SymbolTable.find?_eq_some hf
  obtain ⟨t, ht, _, hline⟩ := h.first symbol hmem
  rw [hname] at ht
  have hin : s.label ∈ labels l := (mem_labels hl).mpr ⟨t, ht⟩
  refine ⟨?_, ?_, ?_⟩
  · have hr : [s.label].removeAll (labels l) = [] := by simp [List.removeAll, hin]
    rw [labels_snoc l hl, List.eraseDups_append, hr, hs, h.names]
    simp
  · rw [hs]
    exact fun _ => h.first_snoc s
  · rw [redefinitions_snoc, hfile, ← h.redefined, redefinition?, if_neg hl, ht, he, ErrorLog.add, hd, hline]
    simp [Diagnostic.isRedefinition]

end Recorded

theorem Placed.of_same {a₀ a b : Assembly} (h : Placed a₀ a) (hset : b.settings = a.settings)
    (hfile : b.file = a.file) (hstatements : b.statements = a.statements) (hsymbols : b.symbols = a.symbols)
    (he : b.errors.errors.filter (·.isRedefinition) = a.errors.errors.filter (·.isRedefinition)) :
    Placed a₀ b := by
  refine ⟨hset.trans h.settings, hfile.trans h.file, ?_, ?_⟩
  · rw [hfile, hstatements]; exact h.laid
  · rw [hstatements]; exact h.recorded.of_same hsymbols hfile he

/-! ## Steps -/

namespace Booked

variable {a₀ a b c : Assembly}

theorem statements (h : Booked a b) : b.statements = a.statements := by rw [h.kept]

theorem pc (h : Booked a b) : b.pc = a.pc := by rw [h.kept]

theorem start (h : Booked a b) : b.start = a.start := by rw [h.kept]

theorem trans (h : Booked a b) (h' : Booked b c) : Booked a c := by
  refine ⟨?_, h.statements ▸ h'.recorded⟩
  rw [h'.kept, h.kept]

theorem placed (h : Booked a b) (hs : a.settings = a₀.settings) (hf : a.file = a₀.file)
    (hl : Laid a.file a.statements) : Placed a₀ b := by
  refine ⟨?_, ?_, ?_, h.statements ▸ h.recorded⟩ <;> rw [h.kept]
  · exact hs
  · exact hf
  · exact hl

end Booked

theorem defineChanges_ends {a : Assembly} {l : List Statement} {s : Statement} (hl : s.label ≠ "")
    (ha : a.statements = l ++ [s]) (h : Recorded l a) :
    Ends (runAll (defineChanges a s.label s.offset s.line)) a (fun _ => Booked a)
      (fun failure b => Booked a b ∧ Stopped failure b) := by
  unfold defineChanges
  cases hf : a.symbols.find? s.label with
  | some symbol =>
      dsimp only
      rw [← reportLine_eq]
      refine report_ends fun journal => ⟨rfl, ?_⟩
      rw [ha]
      exact h.again hl hf rfl rfl rfl rfl
  | none => exact ⟨rfl, ha ▸ h.defined hl hf⟩

theorem labelChanges_ends {a : Assembly} {l : List Statement} {s : Statement}
    (ha : a.statements = l ++ [s]) (h : Recorded l a) :
    Ends (runAll (labelChanges a s)) a (fun _ => Booked a)
      (fun failure b => Booked a b ∧ Stopped failure b) := by
  unfold labelChanges
  split
  · rename_i he
    exact ⟨rfl, ha ▸ h.unlabelled (String.isEmpty_iff.mp he)⟩
  · rename_i he
    exact defineChanges_ends (fun hl => he (by rw [hl]; rfl)) ha h

/-- The change is to log or journal and has nothing to do with labels. -/
def Change.isAside : Change → Bool
  | .note _ _ | .warn _ => true
  | .report d => !d.isRedefinition
  | _ => false

theorem Booked.aside {a b : Assembly} {change : Change} (h : Booked a b) (hc : change.isAside = true) :
    Booked a (change.effect b) := by
  have hb : Recorded b.statements b := h.statements ▸ h.recorded
  refine h.trans ?_
  cases change with
  | note level message => exact ⟨rfl, hb.of_same rfl rfl rfl⟩
  | warn message => exact ⟨rfl, hb.of_same rfl rfl rfl⟩
  | report d =>
      have hd : d.isRedefinition = false := by simpa [Change.isAside] using hc
      refine ⟨rfl, hb.of_same rfl rfl ?_⟩
      simp [Change.effect, ErrorLog.add, hd]
  | _ => cases hc

theorem asides_ends {a : Assembly} {l : List Change} (hl : ∀ change ∈ l, change.isAside = true)
    (h : Recorded a.statements a) :
    Ends (runAll l) a (fun _ => Booked a) (fun failure b => Booked a b ∧ Stopped failure b) := by
  refine runAll_ends (fun change hc b hb => hb.aside (hl change hc)) (fun change hc b failure hb hf => ⟨hb, ?_⟩)
    ⟨rfl, h⟩
  rcases Change.failure?_cases hf with hstopped | ⟨fault, rfl, -⟩
  · exact hstopped
  · cases hl _ hc

theorem isAside_of_mem_operandChanges {a : Assembly} {s : Statement} {i : Instruction} :
    ∀ change ∈ operandChanges a s i, change.isAside = true := by
  unfold operandChanges
  split
  · simp
  · split
    · simp [Change.isAside, Diagnostic.isRedefinition]
    · exact forall_mem_warnChanges (fun _ _ => rfl) fun _ => rfl

theorem isAside_of_mem_directiveChanges {s : Statement} {d : Directive} (hs : s.WellFormed) :
    ∀ change ∈ directiveChanges s d, change.isAside = true := by
  unfold directiveChanges
  split
  · rw [sizedChanges, hs.size_eq_room]
    simp [Change.isAside]
  · split
    · split
      · exact forall_mem_warnChanges (fun _ _ => rfl) fun _ => rfl
      · simp
    · simp

theorem InStep.advance {a b : Assembly} {s : Statement} (h : InStep a) (hs : s.isStart = false)
    (hb : b.statements = a.statements ++ [s]) (hpc : b.pc = a.pc + s.room) (hstart : b.start = a.start) :
    InStep b := by
  refine ⟨?_, ?_, ?_⟩
  · rw [hb, counter_snoc, next_of_not_start hs, hpc, h.pc]
  · rw [hb, loadAddress_snoc _ hs, hstart, h.start]
  · have he := h.extent
    rw [hb, sinceStart_snoc, hs, hpc, hstart]
    simp only [Bool.false_eq_true, ↓reduceIte, List.map_append, List.map_cons, List.map_nil,
      List.sum_append, List.sum_singleton]
    omega

theorem InStep.restart {a : Assembly} {s : Statement} {value : Nat} (l : List Statement)
    (hs : s.body = .directive .start value) (ha : a.statements = l ++ [s]) (hpc : a.pc = value)
    (hstart : a.start = value) : InStep a := by
  refine ⟨?_, ?_, ?_⟩
  · rw [ha, counter_snoc, next_start hs, hpc]
  · rw [ha, loadAddress_snoc_start l hs, hstart]
  · rw [ha, sinceStart_snoc, Statement.isStart, hs, hpc, hstart]
    simp

/-- Label, checks and counter of a statement other than `START`. -/
theorem labelled_ends {a₀ a : Assembly} {s : Statement} {l : List Change} (hp : Placed a₀ a) (hi : InStep a)
    (hl : Laid a.file (a.statements ++ [s])) (hw : s.WellFormed) (hs : s.isStart = false)
    (haside : ∀ change ∈ l, change.isAside = true) :
    Ends (runAll (labelChanges a s ++ (l ++ advanceChanges s))) { a with statements := a.statements ++ [s] }
      (fun _ b => Placed a₀ b ∧ InStep b) (fun failure b => Placed a₀ b ∧ Stopped failure b) := by
  have hr : Recorded a.statements { a with statements := a.statements ++ [s] } :=
    hp.recorded.of_same rfl rfl rfl
  have stop : ∀ failure b, Booked { a with statements := a.statements ++ [s] } b ∧ Stopped failure b →
      Placed a₀ b ∧ Stopped failure b :=
    fun failure b h => ⟨h.1.placed hp.settings hp.file hl, h.2⟩
  rw [runAll_append, runAll_append]
  refine ((labelChanges_ends rfl hr).imp_error stop).bind fun _ b hb => ?_
  have hb' : Recorded b.statements b := hb.statements ▸ hb.recorded
  refine ((asides_ends haside hb').mono (fun _ _ h => hb.trans h) ?_).bind fun _ c hc => ?_
  · exact fun failure c h => stop failure c ⟨hb.trans h.1, h.2⟩
  · rw [advanceChanges, sizedChanges, hw.size_eq_room]
    exact ⟨(hc.placed hp.settings hp.file hl).of_same rfl rfl rfl rfl rfl,
      hi.advance hs hc.statements (congrArg (· + (s.room : Int)) hc.pc) hc.start⟩

theorem placeChanges_ends {a₀ a : Assembly} {s : Statement} {line : Int} (hp : Placed a₀ a) (hi : InStep a)
    (hs : s.Parsed a.file line a.pc) :
    Ends (runAll (placeChanges a s)) a (fun _ b => Placed a₀ b ∧ InStep b)
      (fun failure b => Placed a₀ b ∧ Stopped failure b) := by
  have hl : Laid a.file (a.statements ++ [s]) := hp.laid.snoc (hi.pc ▸ hs)
  have hr := hp.recorded
  change Ends (runAll (bookChanges a s)) { a with statements := a.statements ++ [s] } _ _
  unfold bookChanges
  split
  · rename_i hb
    refine ⟨⟨hp.settings, hp.file, hl, ?_⟩, hi.advance (by rw [Statement.isStart, hb]) rfl ?_ rfl⟩
    · exact (hr.unlabelled (hs.remark hb)).of_same rfl rfl rfl
    · rw [Statement.room, Statement.size, hb]
      exact (Int.add_zero _).symm
  · -- `START` stands at its own address and starts the count anew, whatever the counter was.
    rename_i value hb
    obtain ⟨hlabel, hoff, -⟩ := hs.start value hb
    have hdefine := defineChanges_ends (a := { a with
      statements := a.statements ++ [s], name := s.label, start := value, pc := value }) hlabel rfl
      (hr.of_same rfl rfl rfl)
    rw [hoff] at hdefine
    refine Ends.mono (x := runAll (.origin s.label value :: _)) hdefine ?_ ?_
    · intro _ b h
      exact ⟨h.placed hp.settings hp.file hl, .restart a.statements hb h.statements h.pc h.start⟩
    · intro failure b h
      exact ⟨h.1.placed hp.settings hp.file hl, h.2⟩
  · rename_i d value hd hb
    refine labelled_ends hp hi hl hs.wellFormed ?_ (isAside_of_mem_directiveChanges hs.wellFormed)
    rw [Statement.isStart, hb]
    cases d with
    | start => exact absurd rfl hd
    | _ => rfl
  · rename_i i hb
    refine labelled_ends hp hi hl hs.wellFormed ?_ isAside_of_mem_operandChanges
    rw [Statement.isStart, hb]

/-! ## Runs -/

theorem isRedefinition_of_isFormError {d : Diagnostic} (h : Statement.IsFormError (.diagnostic d)) :
    d.isRedefinition = false := by
  obtain ⟨code, hc, _, hle⟩ := h d rfl
  unfold Diagnostic.isRedefinition
  split
  · rename_i hd
    rw [Diagnostic.code, hd] at hc
    cases hc
    exact absurd hle (by decide)
  · rfl

theorem placeLine_ends {a₀ a : Assembly} (number : Nat) (text : String) (hp : Placed a₀ a) (hi : InStep a) :
    Ends (placeLine number text) a (fun _ b => Placed a₀ b ∧ InStep b)
      (fun failure b => Placed a₀ b ∧ (Stopped failure b ∨ InStep b)) := by
  refine placeLine_invariant ?_ fun _ _ => ⟨hp, .inr hi⟩
  unfold lineChanges
  split
  · rename_i s hparse
    exact (placeChanges_ends hp hi (Statement.parse_parsed hparse)).imp_error fun _ _ h => ⟨h.1, .inl h.2⟩
  · rename_i d hparse
    have hd := isRedefinition_of_isFormError (Statement.parse_isFormError hparse)
    rw [← reportLine_eq]
    refine Ends.imp_error (report_ends fun journal => ?_) fun _ _ h => ⟨h.1.1, .inl h.2⟩
    refine ⟨hp.of_same rfl rfl rfl rfl ?_, hi.pc, hi.start, hi.extent⟩
    simp [ErrorLog.add, hd]
  · exact ⟨hp, hi⟩

theorem placeLines_ends {a₀ a : Assembly} (number : Nat) (lines : List String) (hp : Placed a₀ a) (hi : InStep a) :
    Ends (placeLines number lines) a (fun _ b => Placed a₀ b ∧ InStep b)
      (fun failure b => Placed a₀ b ∧ (Stopped failure b ∨ InStep b)) :=
  placeLines_invariant (I := fun b => Placed a₀ b ∧ InStep b)
    (fun number text _ h => placeLine_ends number text h.1 h.2) number lines ⟨hp, hi⟩

theorem Settled.marked {a₀ a : Assembly} (h : Settled a₀ a) (phase : Phase) (journal : List JournalEntry) :
    Settled a₀ { a with phase, journal } := by
  refine ⟨h.placed.of_same rfl rfl rfl rfl rfl, fun hl => ?_⟩
  have hi := h.inStep hl
  exact ⟨hi.pc, hi.start, hi.extent⟩

theorem pass1_ends {a₀ a : Assembly} (lines : List String) (hp : Placed a₀ a) (hi : InStep a) :
    Ends (pass1 lines) a (fun ok b => Settled a₀ b ∧ ok = !b.errors.hasErrors) (fun _ => Settled a₀) := by
  have ha : Settled a₀ a := ⟨hp, fun _ => hi⟩
  have hrun : Ends (placeLines 1 lines) { a with phase := .pass1Running }
      (fun _ => Settled a₀) (fun _ => Settled a₀) := by
    have hp' := (ha.marked .pass1Running a.journal).placed
    refine (placeLines_ends 1 lines hp' ⟨hi.pc, hi.start, hi.extent⟩).mono ?_ ?_
    · exact fun _ b h => ⟨h.1, fun _ => h.2⟩
    · rintro failure b ⟨hb, hs | hi⟩
      · exact ⟨hb, fun hn => absurd hs.reached (by simp [hn])⟩
      · exact ⟨hb, fun _ => hi⟩
  have hfull := untilFull_ends (ends_discard.mpr hrun) fun _ b journal h => h.marked b.phase journal
  simp only [pass1, ends_bind, ends_get]
  split
  · exact ha
  · exact hfull.bind fun _ b hb => ⟨hb.marked _ _, rfl⟩

theorem placed_create {settings : Settings} {file : String} {a₀ : Assembly}
    (h : create settings file = .ok a₀) :
    Placed a₀ a₀ ∧ InStep a₀ ∧ a₀.settings = settings ∧ a₀.file = file := by
  obtain ⟨limit, -, rfl⟩ := create_eq_ok_iff.mp h
  exact ⟨⟨rfl, rfl, ⟨by simp, by simp⟩, ⟨rfl, by simp, rfl⟩⟩, ⟨rfl, rfl, rfl⟩, rfl, rfl⟩

theorem pass1_settled {settings : Settings} {file : String} {a₀ : Assembly} (lines : List String)
    (h : create settings file = .ok a₀) : Settled a₀ ((pass1 lines).after a₀) := by
  obtain ⟨hp, hi, -⟩ := placed_create h
  exact ((pass1_ends lines hp hi).imp fun _ _ h => h.1).after

theorem Laid.offset_next {file : String} {before rest : List Statement} {s t : Statement}
    (h : Laid file (before ++ s :: t :: rest)) (ht : t.isStart = false) :
    if s.isStart then t.offset = s.offset else ∃ n, s.size = .ok n ∧ t.offset = s.offset + n := by
  obtain ⟨line, offset, hs⟩ := h.parsed s (by simp)
  have hoff : t.offset = next (counter before) s := by
    rw [← counter_snoc]
    exact h.offset (before ++ [s]) t rest (by simp) ht
  cases hstart : s.isStart with
  | true =>
      obtain ⟨value, hb⟩ := Statement.isStart_iff.mp hstart
      obtain ⟨-, hvalue, -⟩ := hs.start value hb
      rw [if_pos rfl, hoff, next_start hb, hvalue]
  | false =>
      rw [if_neg (by simp)]
      refine ⟨s.room, hs.wellFormed.size_eq_room, ?_⟩
      rw [hoff, next_of_not_start hstart, h.offset before s (t :: rest) rfl hstart]

theorem Recorded.address? {l : List Statement} {a : Assembly} {name : String} (h : Recorded l a)
    (hn : name ∈ labels l) :
    ∃ s, l.find? (·.label == name) = some s ∧ a.symbols.address? name = some s.offset := by
  rw [← List.mem_eraseDups, ← h.names] at hn
  cases hf : a.symbols.find? name with
  | none => exact absurd hn (SymbolTable.find?_eq_none.mp hf)
  | some symbol =>
      obtain ⟨hmem, rfl⟩ := SymbolTable.find?_eq_some hf
      obtain ⟨s, hs, haddress, -⟩ := h.first symbol hmem
      exact ⟨s, hs, by rw [SymbolTable.address?, hf, Option.map_some, haddress]⟩

/-- After the first pass, however it ends, statements, symbol table, error log and program counter
agree. -/
theorem pass1_layout {settings : Settings} {file : String} {a₀ : Assembly} (lines : List String)
    (h : create settings file = .ok a₀) :
    let a := (pass1 lines).after a₀
    (∀ s rest, a.statements = s :: rest → s.isStart = false → s.offset = 0) ∧
    (∀ before s t rest, a.statements = before ++ s :: t :: rest → t.isStart = false →
      if s.isStart then t.offset = s.offset else ∃ n, s.size = .ok n ∧ t.offset = s.offset + n) ∧
    (∀ s ∈ a.statements, s.isStart = true →
      ∃ value : Nat, Number.parseAddress s.operandText.toList = some value ∧ s.offset = value) ∧
    a.symbols.names = (labels a.statements).eraseDups ∧
    (∀ name ∈ labels a.statements, ∃ s, a.statements.find? (·.label == name) = some s ∧
      a.symbols.address? name = some s.offset) ∧
    a.errors.errors.filter (·.isRedefinition) = redefinitions file a.statements ∧
    (a.limitReached = false → a.start = loadAddress a.statements ∧
      ∃ sizes, (sinceStart a.statements).mapM (·.size) = .ok sizes ∧ a.pc - a.start = sizes.sum) := by
  obtain ⟨-, -, -, hfile⟩ := placed_create h
  intro a
  have hdone : Settled a₀ a := pass1_settled lines h
  have hlaid := hdone.placed.laid
  have hrec := hdone.placed.recorded
  refine ⟨?_, ?_, ?_, hrec.names, fun name hn => hrec.address? hn, ?_, ?_⟩
  · intro s rest hs hstart
    rw [hs] at hlaid
    exact hlaid.offset [] s rest rfl hstart
  · intro before s t rest hs ht
    rw [hs] at hlaid
    exact hlaid.offset_next ht
  · intro s hs hstart
    obtain ⟨value, hb⟩ := Statement.isStart_iff.mp hstart
    obtain ⟨line, offset, hparsed⟩ := hlaid.parsed s hs
    obtain ⟨-, hoff, haddress⟩ := hparsed.start value hb
    exact ⟨value, haddress, hoff⟩
  · rw [hrec.redefined, hdone.placed.file, hfile]
  · intro hl
    have hi := hdone.inStep hl
    refine ⟨hi.start, _, mapM_size fun s hs => ?_, ?_⟩
    · exact hlaid.wellFormed s (mem_of_mem_sinceStart hs)
    · have he := hi.extent
      omega

/-- Two statements under one label. -/
theorem pass1_layout_twice :
    ∃ a₀, create {} "copy.asm" = .ok a₀ ∧
      let a := (pass1 ["COPY    START  1000", "A       WORD   1", "A       RESB   2", "        LDA    A"]).after a₀
      a.limitReached = false ∧
      a.errors.errors.filter (·.isRedefinition) = redefinitions "copy.asm" a.statements ∧
      (redefinitions "copy.asm" a.statements).length = 1 ∧
      ∃ sizes, (sinceStart a.statements).mapM (·.size) = .ok sizes ∧ a.pc - a.start = sizes.sum := by
  obtain ⟨a₀, h⟩ : ∃ a₀, create {} "copy.asm" = .ok a₀ := ⟨_, rfl⟩
  have hall :=
    pass1_layout ["COPY    START  1000", "A       WORD   1", "A       RESB   2", "        LDA    A"] h
  obtain ⟨-, -, -, -, -, hagain, hextent⟩ := hall
  refine ⟨a₀, h, ?_, hagain, ?_, (hextent ?_).2⟩
  all_goals cases h; decide +kernel

end Assembly

end TwoPass
