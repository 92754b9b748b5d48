import TwoPass.Proofs.Assembly.Calls

/-!
Recovery from bad lines. A line that is no statement is an error in the log, and the first pass goes on with
the next one, unless the line reserves room by a count that is written in digits but not in decimal ones. Such
a line is the only one that can end the pass before its time, and it does so exactly if it is reached before
the error limit.
-/

namespace TwoPass

open TwoPass.Action (Ends bind_run ends_after ends_bind ends_get)

/-- The line reserves room by a count that is not a number. -/
structure Statement.Broken (file : String) (line : Int) (text : String) : Prop where
  visible : Text.isBlankText text.toList = false
  miscounted : ∃ fields whole, SourceLine.read file line text = .ok (.code fields whole) ∧ fields.Miscounted

theorem Statement.broken_iff {file text : String} {line : Int} (offset : Int)
    (hv : Text.isBlankText text.toList = false) :
    Broken file line text ↔ ∃ fault, parse file text line offset = .error (.fault fault) := by
  constructor
  · rintro ⟨-, fields, whole, hread, hbad⟩
    exact ⟨_, parse_fault_iff.mpr ⟨fields, whole, hread, hbad, rfl⟩⟩
  · rintro ⟨fault, h⟩
    obtain ⟨fields, whole, hread, hbad, -⟩ := parse_fault_iff.mp h
    exact ⟨hv, fields, whole, hread, hbad⟩

namespace Assembly

/-- The error limit was reached on the way from `a` to `b`. -/
def Filled (a b : Assembly) : Prop :=
  a.errors.errorCount < b.errors.errorCount ∧ b.errors.isFull = true

variable {α : Type} {a b : Assembly}

theorem Succeeds.not_filled {scope : Scope} {x : Action α} {value : α} {placed : List Statement}
    {new : List Diagnostic} (h : Succeeds scope x a value b placed new) : ¬ Filled a b := by
  rintro ⟨hmore, hfull⟩
  rw [ErrorLog.errorCount, ErrorLog.errorCount, h.grown.errors] at hmore
  rw [ErrorLog.isFull, h.grown.limit, h.grown.errors, decide_eq_true_eq] at hfull
  rcases h.room with rfl | hroom
  · simp at hmore
  · omega

theorem Breaks.filled {scope : Scope} {failure : Failure} {placed : List Statement} {new : List Diagnostic}
    (h : Breaks scope a failure b placed new) (hf : ∀ fault, failure ≠ .fault fault) : Filled a b := by
  rcases h.cause with ⟨hne, hfull, -⟩ | ⟨fault, -, rfl⟩
  · refine ⟨?_, hfull⟩
    rw [ErrorLog.errorCount, ErrorLog.errorCount, h.grown.errors, List.length_append]
    exact Nat.lt_add_of_pos_right (List.length_pos_of_ne_nil hne)
  · exact absurd rfl (hf fault)

/-! ## Lines up to one of them -/

theorem placeLines_append {rest : List String} {Q : Assembly → Prop} {E : Failure → Assembly → Prop} :
    (number : Nat) → (before : List String) → (a : Assembly) →
    Ends (placeLines number before) a
      (fun _ b => Ends (placeLines (number + before.length) rest) b (fun _ => Q) E) E →
    Ends (placeLines number (before ++ rest)) a (fun _ => Q) E
  | _, [], _, h => h
  | number, text :: before, a, h => by
      rw [List.length_cons, ← Nat.add_assoc, Nat.add_right_comm] at h
      rw [List.cons_append]
      cases hv : Text.isBlankText text.toList with
      | true =>
          rw [placeLines_blank _ _ hv] at h ⊢
          exact placeLines_append (number + 1) before a h
      | false =>
          rw [placeLines_visible _ _ hv, ends_bind] at h ⊢
          refine h.imp fun result b hb => ?_
          rw [ends_bind] at hb ⊢
          exact placeLines_append (number + 1) before b hb

theorem placeLine_fault {number : Nat} {text : String} {fault : Fault}
    (h : Statement.parse a.file text number a.pc = .error (.fault fault)) :
    placeLine number text a = .error (.fault fault) a := by
  rw [placeLine, bind_run, Action.get_run]
  dsimp only
  rw [h]
  rfl

/-- A line that is no statement adds its error and nothing else. -/
theorem placeLine_error {number : Nat} {text : String} {d : Diagnostic}
    (h : Statement.parse a.file text number a.pc = .error (.diagnostic d)) :
    Ends (placeLine number text) a
      (fun result b => result = ⟨number, .error d⟩ ∧ ∃ journal, b = a.relogged (a.errors.errors ++ [d]) journal)
      Stopped := by
  rw [placeLine, ends_bind, ends_get, h]
  refine Ends.bind (Q := fun _ b => ∃ journal, b = a.relogged (a.errors.errors ++ [d]) journal) ?_
    fun _ _ hb => ⟨rfl, hb⟩
  exact Ends.imp_error (report_ends fun journal => ⟨journal, rfl⟩) fun _ _ h => h.2

theorem placeLine_broken {number : Nat} {text : String} (h : Statement.Broken a.file number text) :
    ∃ fault, placeLine number text a = .error (.fault fault) a := by
  obtain ⟨fault, hparse⟩ := (Statement.broken_iff a.pc h.visible).mp h
  exact ⟨fault, placeLine_fault hparse⟩

theorem placeLine_unbroken {number : Nat} {text : String} (hv : Text.isBlankText text.toList = false)
    (h : ¬ Statement.Broken a.file number text) :
    Ends (placeLine number text) a (fun _ b => b.file = a.file)
      (fun failure _ => ∀ fault, failure ≠ .fault fault) := by
  refine (keeps_placeLine number text a rfl).mono ?_ ?_
  · rintro _ b ⟨placed, new, hs⟩
    exact hs.grown.file
  · rintro failure b ⟨placed, new, hb⟩ fault rfl
    rcases hb.cause with ⟨-, -, hoverflow⟩ | ⟨fault', ⟨offset, hparse⟩, -⟩
    · cases hoverflow
    · exact h ((Statement.broken_iff offset hv).mpr ⟨fault', hparse⟩)

/-- No line of the list is broken. -/
def Unbroken (file : String) (number : Nat) (lines : List String) : Prop :=
  ∀ k text, lines[k]? = some text → ¬ Statement.Broken file (number + k : Nat) text

theorem Unbroken.cons {file : String} {number : Nat} {text : String} {rest : List String}
    (h : ¬ Statement.Broken file number text) (hrest : Unbroken file (number + 1) rest) :
    Unbroken file number (text :: rest)
  | 0, _, hk => by cases hk; exact h
  | k + 1, line, hk => by
      have hline := hrest k line hk
      rwa [Nat.add_right_comm] at hline

/-- Of the lines, `b` has placed those before the first broken one. -/
def Stranded (number : Nat) (lines : List String) (a b : Assembly) : Prop :=
  ∃ before text rest, lines = before ++ text :: rest ∧ Unbroken a.file number before ∧
    Statement.Broken a.file (number + before.length : Nat) text ∧
    ∃ results, placeLines number before a = .ok results b

theorem Stranded.cons {number : Nat} {text : String} {rest : List String} {c : Assembly}
    (h : Stranded (number + 1) rest b c) (hb : b.file = a.file) (ht : ¬ Statement.Broken a.file number text)
    (hok : ∀ before results, placeLines (number + 1) before b = .ok results c →
      ∃ results', placeLines number (text :: before) a = .ok results' c) :
    Stranded number (text :: rest) a c := by
  obtain ⟨before, line, later, rfl, hun, hbroken, results, hrun⟩ := h
  rw [hb] at hun hbroken
  refine ⟨text :: before, line, later, rfl, hun.cons ht, ?_, hok before results hrun⟩
  rwa [List.length_cons, ← Nat.add_assoc, Nat.add_right_comm]

/-- A fault comes from the first broken line. -/
theorem placeLines_stranded : (number : Nat) → (lines : List String) → (a : Assembly) →
    Ends (placeLines number lines) a (fun _ _ => Unbroken a.file number lines)
      (fun failure b => ∀ fault, failure = .fault fault → Stranded number lines a b)
  | _, [], _ => nofun
  | number, text :: rest, a => by
      cases hv : Text.isBlankText text.toList with
      | true =>
          have ht : ¬ Statement.Broken a.file number text := fun h => by simp [h.visible] at hv
          rw [placeLines_blank number rest hv]
          refine (placeLines_stranded (number + 1) rest a).mono (fun _ _ h => h.cons ht) ?_
          intro failure b h fault hfault
          refine (h fault hfault).cons rfl ht fun before results hrun => ⟨results, ?_⟩
          rw [placeLines_blank number before hv, hrun]
      | false =>
          rw [placeLines_visible number rest hv, ends_bind]
          by_cases ht : Statement.Broken a.file number text
          · obtain ⟨fault, hbreak⟩ := placeLine_broken ht
            rw [Ends, hbreak]
            exact fun _ _ => ⟨[], text, rest, rfl, nofun, ht, [], rfl⟩
          · have hline := placeLine_unbroken hv ht
            cases hrun : placeLine number text a with
            | error failure b =>
                rw [Ends, hrun] at hline ⊢
                exact fun fault hfault => absurd hfault (hline fault)
            | ok result b =>
                have hfile := hline.of_ok hrun
                rw [Ends, hrun]
                dsimp only
                rw [ends_bind]
                refine (placeLines_stranded (number + 1) rest b).mono ?_ ?_
                · intro results c h
                  rw [hfile] at h
                  exact h.cons ht
                · intro failure c h fault hfault
                  refine (h fault hfault).cons hfile ht fun before results hrest => ⟨result :: results, ?_⟩
                  rw [placeLines_visible number before hv, bind_run, hrun]
                  dsimp only
                  rw [bind_run, hrest]
                  rfl

/-! ## The first pass -/

/-- The lines come to a broken one before the error limit. -/
def ReachesBroken (a : Assembly) (lines : List String) : Prop :=
  ∃ before text rest, lines = before ++ text :: rest ∧ Unbroken a.file 1 before ∧
    Statement.Broken a.file (1 + before.length : Nat) text ∧ ¬ Filled a ((parseLines before).after a)

theorem ReachesBroken.parseLines {lines : List String} (h : ReachesBroken a lines) :
    ∃ fault b, parseLines lines a = .error (.fault fault) b := by
  obtain ⟨before, text, rest, rfl, hun, hbroken, hroom⟩ := h
  have hends : Ends (placeLines 1 (before ++ text :: rest)) a (fun _ _ => False)
      (fun failure _ => ∃ fault, failure = .fault fault) := by
    have hbefore := (ends_after (placeLines 1 before) a).and (keeps_placeLines 1 before a rfl)
    refine placeLines_append 1 before a (hbefore.mono ?_ ?_)
    · rintro results b ⟨-, placed, new, hs⟩
      rw [← hs.grown.file] at hbroken
      obtain ⟨fault, hline⟩ := placeLine_broken hbroken
      rw [placeLines_visible _ _ hbroken.visible, Ends, bind_run, hline]
      exact ⟨fault, rfl⟩
    · -- A line before it that is broken would do as well; only the error limit is in the way.
      rintro failure b ⟨rfl, placed, new, hb⟩
      by_contra hfault
      exact hroom (hb.filled fun fault hf => hfault ⟨fault, hf⟩)
  rcases hends.cases with ⟨_, _, -, hfalse⟩ | ⟨_, b, hrun, fault, rfl⟩
  · exact hfalse.elim
  · exact ⟨fault, b, hrun⟩

theorem reachesBroken_of_fault {lines : List String} {fault : Fault}
    (h : parseLines lines a = .error (.fault fault) b) : ReachesBroken a lines := by
  obtain ⟨before, text, rest, hlines, hun, hbroken, results, hrun⟩ :=
    (placeLines_stranded 1 lines a).of_error h fault rfl
  obtain ⟨placed, new, hs⟩ := (keeps_placeLines 1 before a rfl).of_ok hrun
  have hafter : (parseLines before).after a = b := by
    rw [Action.after, show parseLines before a = _ from hrun]
  exact ⟨before, text, rest, hlines, hun, hbroken, hafter ▸ hs.not_filled⟩

theorem pass1_of_fault {lines : List String} {fault : Fault} (ha : a.phase = .fresh)
    (h : parseLines lines { a with phase := .pass1Running } = .error (.fault fault) b) :
    pass1 lines a = .error (.fault fault) b := by
  rcases (pass1_parseLines lines ha).cases with ⟨ok, _, hrun, -, c, journal, -, hc⟩ | ⟨failure, c, hrun, hc, -⟩
  · rw [h] at hc
    rcases hc with ⟨results, hc⟩ | ⟨failure, hc, hstopped⟩
    · cases hc
    · cases hc
      cases hstopped.overflow
  · rw [h] at hc
    cases hc
    exact hrun

/-- Which lines recovery cannot deal with, and what becomes of the first pass then. -/
theorem pass1_recovers (file text : String) (line offset : Int) (lines : List String) (ha : a.phase = .fresh) :
    ((∃ fault, Statement.parse file text line offset = .error (.fault fault)) ↔
      ∃ fields whole, SourceLine.read file line text = .ok (.code fields whole) ∧ fields.Miscounted) ∧
    (∀ d, Statement.parse file text line offset = .error (.diagnostic d) →
      ∃ code, d.code = some code ∧ 0 ≤ code ∧ code ≤ 7) ∧
    (∀ fields whole opcode, SourceLine.read file line text = .ok (.code fields whole) →
      Opcode.ofName? (String.ofList (fields.operator.toList.dropWhile (· = '+'))) = some opcode →
      (fields.operator.toList.head? = some '+' → opcode.isExtendable = true) →
      ∃ s, Statement.parse file text line offset = .ok s) ∧
    (∀ (number : Nat) d, Statement.parse a.file text number a.pc = .error (.diagnostic d) →
      Ends (placeLine number text) a
        (fun result b => result = ⟨number, .error d⟩ ∧ ∃ journal, b = a.relogged (a.errors.errors ++ [d]) journal)
        Stopped) ∧
    (ReachesBroken { a with phase := .pass1Running } lines →
      ∃ fault b, pass1 lines a = .error (.fault fault) b ∧ b.phase = .pass1Running) ∧
    (¬ ReachesBroken { a with phase := .pass1Running } lines →
      ∃ ok b, pass1 lines a = .ok ok b ∧ b.phase = .pass1Done) := by
  refine ⟨?_, fun d h => Statement.parse_isFormError h d rfl,
    fun fields whole opcode hread hop hext => Statement.parse_instruction offset hread hop hext,
    fun number d h => placeLine_error h, fun hreach => ?_, fun hreach => ?_⟩
  · constructor
    · rintro ⟨fault, h⟩
      obtain ⟨fields, whole, hread, hbad, -⟩ := Statement.parse_fault_iff.mp h
      exact ⟨fields, whole, hread, hbad⟩
    · rintro ⟨fields, whole, hread, hbad⟩
      exact ⟨_, Statement.parse_fault_iff.mpr ⟨fields, whole, hread, hbad, rfl⟩⟩
  · obtain ⟨fault, b, hlines⟩ := hreach.parseLines
    have hrun := pass1_of_fault ha hlines
    obtain ⟨⟨placed, new, hg⟩, -⟩ := (pass1_fresh lines ha).of_error hrun
    exact ⟨fault, b, hrun, hg.phase⟩
  · rcases (pass1_parseLines lines ha).cases with
      ⟨ok, _, hrun, -, c, journal, rfl, -⟩ | ⟨_, b, -, hlines, fault, rfl⟩
    · exact ⟨ok, _, hrun, rfl⟩
    · exact absurd (reachesBroken_of_fault hlines) hreach

/-- A raised digit after an unknown operator and a blank line. -/
theorem pass1_recovers_raised :
    let text := "A       RESW   1²"
    let lines := ["        BOGUS", "", text, "        LDA    1"]
    ∃ a₀ fault b, create {} "raised.asm" = .ok a₀ ∧ a₀.phase = .fresh ∧
      ReachesBroken { a₀ with phase := .pass1Running } lines ∧
      pass1 lines a₀ = .error (.fault fault) b ∧ b.phase = .pass1Running ∧
      ∃ fields whole, SourceLine.read "raised.asm" 3 text = .ok (.code fields whole) ∧ fields.Miscounted := by
  intro text lines
  obtain ⟨a₀, h⟩ : ∃ a₀, create {} "raised.asm" = .ok a₀ := ⟨_, rfl⟩
  have hfresh := (create_fresh h).1
  obtain ⟨hbroken, -, -, -, hbad, hgood⟩ := pass1_recovers "raised.asm" text 3 0 lines hfresh
  have hnone : (pass1 lines).value? a₀ = none := by cases h; decide +kernel
  have hreach : ReachesBroken { a₀ with phase := .pass1Running } lines := by
    by_contra hreach
    obtain ⟨ok, b, hrun, -⟩ := hgood hreach
    rw [Action.value?, hrun] at hnone
    cases hnone
  obtain ⟨fault, b, hrun, hphase⟩ := hbad hreach
  refine ⟨a₀, fault, b, h, hfresh, hreach, hrun, hphase, hbroken.mp ⟨.notCount "1²", ?_⟩⟩
  decide +kernel

end Assembly

end TwoPass
