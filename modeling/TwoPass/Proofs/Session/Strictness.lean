import TwoPass.Proofs.Assembly.Blanking
import TwoPass.Proofs.Assembly.Retuning
import TwoPass.Proofs.Session.Resolution

/-!
Strict settings refuse what they name and change nothing else: a text is assembled under them exactly if it is
under lenient ones and all its instructions have operands that suit them, and the object program is the same.
-/

namespace TwoPass

open TwoPass.Action (Agree Ends bind_run ends_bind ends_get value?_eq_some_iff)

/-! ## Operands that suit an instruction -/

/-- An instruction has as many operands as its opcode declares, each accepted in its position. -/
def Statement.Suited (s : Statement) : Prop :=
  ∀ i, s.body = .instruction i → List.Forall₂ (fun arg o => arg.accepts o = true) i.opcode.args s.operands

theorem Instruction.mismatch?_eq_none_iff {opcode : Opcode} {operands : List Operand} :
    mismatch? opcode operands = none ↔
      List.Forall₂ (fun arg o => arg.accepts o = true) opcode.args operands := by
  rw [List.forall₂_iff_zip]
  unfold mismatch?
  split
  · rename_i h
    simp only [Bool.and_eq_true, decide_eq_true_eq, List.all_eq_true] at h
    exact ⟨fun _ => ⟨h.1, fun hm => h.2 _ hm⟩, fun _ => rfl⟩
  · rename_i h
    refine ⟨nofun, fun ⟨hlength, hall⟩ => absurd ?_ h⟩
    simp only [Bool.and_eq_true, decide_eq_true_eq, List.all_eq_true]
    exact ⟨hlength, fun pair hm => hall hm⟩

namespace Statement

variable {file text : String} {line offset : Int} {s : Statement}

/-- What is noted of the operands of an instruction. -/
theorem parse_mismatch {i : Instruction} (h : parse file text line offset = .ok s) (hb : s.body = .instruction i) :
    i.mismatch = Instruction.mismatch? i.opcode s.operands := by
  rcases parse_cases h with ⟨hremark, -⟩ | ⟨fields, whole, -, -, -, -, hinstruction⟩
  · rw [hb] at hremark
    cases hremark
  · exact (hinstruction i hb).2.1

/-- The address of a line has no part in what the statement is. -/
theorem map_body_parse (offset offset' : Int) :
    (parse file text line offset).map (·.body) = (parse file text line offset').map (·.body) := by
  unfold parse
  split
  · rfl
  · rfl
  · split
    · simp only [parseInstruction]
      split
      · rfl
      · split <;> rfl
    · split
      · rename_i fields whole _ _ _ _ d _
        unfold parseDirective
        cases setup file line fields whole d <;> rfl
      · rfl

theorem body_parse {s' : Statement} {offset' : Int} (h : parse file text line offset = .ok s)
    (h' : parse file text line offset' = .ok s') : s'.body = s.body := by
  have hbody : (parse file text line offset).map (·.body) = (parse file text line offset').map (·.body) :=
    map_body_parse offset offset'
  rw [h, h'] at hbody
  exact (Except.ok.inj hbody).symm

theorem suited_iff (h : parse file text line offset = .ok s) :
    s.Suited ↔ ∀ i, s.body = .instruction i → i.mismatch = none := by
  refine forall_congr' fun i => forall_congr' fun hb => ?_
  rw [parse_mismatch h hb, Instruction.mismatch?_eq_none_iff]

end Statement

namespace Assembly

variable {file : String} {s : Statement} {a : Assembly}

/-! ## Strict settings -/

theorem place_mismatched {i : Instruction} {shape : String} (ha : a.settings.strictOperands = true)
    (hb : s.body = .instruction i) (hm : i.mismatch = some shape) :
    Ends (place s) a (fun _ b => b.errors.hasErrors = true) (fun _ _ => True) := by
  have hreport : .report { cause := .operandMismatch shape, location := some ⟨a.file, s.line, operandColumn⟩ } ∈
      placeChanges a s := by
    simp [placeChanges, bookChanges, hb, operandChanges, hm, ha]
  rw [Ends, place_eq]
  exact runAll_reported hreport

theorem Grown.clean {scope : Scope} {b : Assembly} {placed : List Statement} {new : List Diagnostic}
    (h : Grown scope a b placed new) (hb : b.errors.hasErrors = false) : a.errors.hasErrors = false := by
  simp only [ErrorLog.hasErrors, h.errors] at hb ⊢
  simp_all

/-- A line that leaves the log empty is a statement, and one that suits its operator. -/
theorem placeLine_suited {number : Nat} {text : String} (ha : a.settings.strictOperands = true) :
    Ends (placeLine number text) a (fun _ b => b.errors.hasErrors = false →
      ∃ s, Statement.parse a.file text number a.pc = .ok s ∧ s.Suited) (fun _ _ => True) := by
  cases hparse : Statement.parse a.file text number a.pc with
  | ok s =>
      rw [placeLine, ends_bind, ends_get, hparse]
      dsimp only
      rw [ends_bind]
      by_cases hs : s.Suited
      · exact (Action.ends_after _ a).mono (fun _ _ _ _ => ⟨s, rfl, hs⟩) fun _ _ _ => trivial
      · rw [Statement.suited_iff hparse] at hs
        push Not at hs
        obtain ⟨i, hb, hne⟩ := hs
        obtain ⟨shape, hm⟩ := Option.ne_none_iff_exists'.mp hne
        refine (place_mismatched ha hb hm).mono ?_ fun _ _ _ => trivial
        intro _ b herrors hclean
        rw [herrors] at hclean
        cases hclean
  | error failure =>
      cases failure with
      | fault fault =>
          rw [Ends, placeLine_fault hparse]
          trivial
      | diagnostic d =>
          refine (placeLine_error hparse).mono ?_ fun _ _ _ => trivial
          rintro _ _ ⟨-, journal, rfl⟩ hclean
          simp [relogged, ErrorLog.hasErrors] at hclean

/-- Every statement among the lines that are not blank suits its operator; the first line has the number. -/
def AllSuited (file : String) (number : Nat) (lines : List String) : Prop :=
  ∀ k text offset s, lines[k]? = some text → Text.isBlankText text.toList = false →
    Statement.parse file text (number + k : Nat) offset = .ok s → s.Suited

theorem AllSuited.cons {number : Nat} {text : String} {rest : List String}
    (h : ∀ offset s, Text.isBlankText text.toList = false → Statement.parse file text number offset = .ok s →
      s.Suited) (hrest : AllSuited file (number + 1) rest) : AllSuited file number (text :: rest) := by
  intro k line offset s hk hv hs
  cases k with
  | zero =>
      cases hk
      exact h offset s hv hs
  | succ k => exact hrest k line offset s hk hv (by rwa [Nat.add_right_comm])

theorem placeLines_suited (number : Nat) (lines : List String) (ha : a.settings.strictOperands = true) :
    Ends (placeLines number lines) a (fun _ b => b.errors.hasErrors = false → AllSuited a.file number lines)
      (fun _ _ => True) := by
  induction lines generalizing number a with
  | nil => exact fun _ k _ _ _ hk => nomatch hk
  | cons text rest ih =>
      cases hv : Text.isBlankText text.toList with
      | true =>
          rw [placeLines_blank number rest hv]
          refine (ih (number + 1) ha).imp fun _ b h hclean => (h hclean).cons fun _ _ hv' => ?_
          rw [hv] at hv'
          cases hv'
      | false =>
          rw [placeLines_visible number rest hv, ends_bind]
          refine ((keeps_placeLine number text a rfl).and (placeLine_suited ha)).mono ?_ fun _ _ _ => trivial
          rintro result b ⟨⟨placed, new, hs⟩, hline⟩
          have hb : b.settings.strictOperands = true := by
            rw [hs.grown.kept]
            exact ha
          have hfile : b.file = a.file := hs.grown.file
          rw [ends_bind]
          refine ((keeps_placeLines (number + 1) rest b rfl).and (ih (number + 1) hb)).mono ?_ fun _ _ _ => trivial
          rintro results c ⟨⟨_, _, hs'⟩, hrest⟩ hclean
          -- The log only grows, so it was empty after the first line as well.
          obtain ⟨s₀, hparse, hsuited⟩ := hline (hs'.grown.clean hclean)
          refine (hfile ▸ hrest hclean).cons fun offset s _ hs => ?_
          rw [Statement.suited_iff hs, Statement.body_parse hparse hs, ← Statement.suited_iff hparse]
          exact hsuited

theorem pass1_suited {lines : List String} {ok : Bool} {b : Assembly} (hfresh : a.phase = .fresh)
    (ha : a.settings.strictOperands = true) (h : pass1 lines a = .ok ok b) (hb : b.errors.hasErrors = false) :
    AllSuited a.file 1 lines := by
  have hlimit : b.limitReached = false := by rw [limitReached, hb]; rfl
  obtain ⟨results, c, journal, hc, rfl⟩ := exists_parseLines hfresh h hlimit
  exact (placeLines_suited 1 lines (a := { a with phase := .pass1Running }) ha).of_ok hc hb

end Assembly

/-! ## Sessions -/

namespace Session

variable {tune : Settings → Settings} {file : String}

/-- Sessions at work on the same assembly, under other settings. -/
def Alike (tune : Settings → Settings) (file : String) (s t : Session) : Prop :=
  Assembly.Retuned tune file s.assembly t.assembly

theorem agree_note (message message' : String) : Agree (Alike tune file) (note message) (note message') :=
  .get_bind fun _ _ _ => .modify fun _ _ h => h

theorem agree_onAssembly {α : Type} {x : Assembly.Action α} (h : Agree (Assembly.Retuned tune file) x x) :
    Agree (Alike tune file) (onAssembly x) (onAssembly x) := by
  refine h.onPart (fun _ _ h => h) ?_
  rintro s t u _ - ⟨hfile, rfl⟩
  exact ⟨hfile, rfl⟩

theorem restart_run {s : Session} {a : Assembly} (h : Assembly.create s.settings file = .ok a) :
    restart file s = .ok () { s with assembly := a } := by
  rw [restart, bind_run, Action.get_run]
  dsimp only
  rw [h]
  rfl

/-- Sessions that start with the same assembly under other settings go on alike, if the passes do. -/
theorem assembleText_alike {s t : Session} {source : String} {a b : Assembly}
    (ha : Assembly.create s.settings file = .ok a) (hb : Assembly.create t.settings file = .ok b)
    (hab : Assembly.Retuned tune file a b)
    (h₁ : Agree (Assembly.Retuned tune file) (Assembly.pass1 (sourceLines source))
      (Assembly.pass1 (sourceLines source)))
    (h₂ : Agree (Assembly.Retuned tune file) Assembly.pass2 Assembly.pass2) :
    Ends (assembleText source file) s
      (fun result s' => ∃ t', assembleText source file t = .ok result t' ∧ Alike tune file s' t')
      (fun failure s' => ∃ t', assembleText source file t = .error failure t' ∧ Alike tune file s' t') := by
  have hstart : Alike tune file { s with assembly := a } { t with assembly := b } := hab
  simp only [assembleText, Ends, bind_run (restart file), restart_run ha, restart_run hb]
  refine (?_ : Agree (Alike tune file) _ _) _ _ hstart
  refine (agree_note _ _).bind fun _ => (agree_onAssembly h₁).bind fun _ => .get_bind fun u v huv => ?_
  refine (agree_note _ _).bind fun _ => (agree_onAssembly h₂).bind fun resolved => ?_
  cases resolved with
  | false => exact .pure none
  | true =>
      refine (agree_onAssembly Assembly.agree_generateObject).bind fun result => ?_
      cases result with
      | none => exact .pure none
      | some p => exact (agree_note _ _).bind fun _ => .pure _

theorem exists_pass1 {session session' : Session} {source text : String}
    (h : assembleText source file session = .ok (some text) session') :
    ∃ a₀ ok a, Assembly.create session.settings file = .ok a₀ ∧
      Assembly.pass1 (sourceLines source) a₀ = .ok ok a ∧ a.errors.hasErrors = false := by
  obtain ⟨a₀, ok, a, b, hcreate, hfirst, hsecond, -⟩ := exists_passes h
  exact ⟨a₀, ok, a, hcreate, hfirst, (((Assembly.pass2_passed _).of_ok hsecond).resolved rfl).1⟩

theorem value?_of_suited {s t : Session} {source : String} {a : Assembly} (strict : Bool)
    (h : Assembly.AllSuited file 1 (sourceLines source))
    (ht : t.settings = { s.settings with strictOperands := strict })
    (ha : Assembly.create s.settings file = .ok a) :
    (assembleText source file).value? s = (assembleText source file).value? t := by
  obtain ⟨b, hb, hab⟩ := Assembly.create_retuned ({ · with strictOperands := strict }) ha rfl rfl
  have hfirst : Agree (Assembly.Retuned ({ · with strictOperands := strict }) file)
      (Assembly.pass1 (sourceLines source)) (Assembly.pass1 (sourceLines source)) :=
    Assembly.agree_pass1 _ fun k text offset u hk hv hu =>
      Assembly.checksAlike_of_mismatch ((Statement.suited_iff hu).mp (h k text offset u hk hv hu))
  have halike := assembleText_alike ha (ht ▸ hb) hab hfirst (Assembly.agree_pass2 fun _ => rfl)
  rcases halike.cases with ⟨_, _, hs, _, ht', -⟩ | ⟨_, _, hs, _, ht', -⟩
  · rw [Action.value?, Action.value?, hs, ht']
  · rw [Action.value?, Action.value?, hs, ht']

/-- Under settings that differ only in strictness, and whatever else the two sessions have done, the strict one
answers with an object program exactly if the lenient one answers with the same and all instructions of the
source suit their operators. -/
theorem assembleText_strict_iff {strict lenient : Session} (settings : Settings) (source file text : String)
    (hstrict : strict.settings = { settings with strictOperands := true })
    (hlenient : lenient.settings = { settings with strictOperands := false }) :
    (∃ s, assembleText source file strict = .ok (some text) s) ↔
      (∃ s, assembleText source file lenient = .ok (some text) s) ∧
        Assembly.AllSuited file 1 (sourceLines source) := by
  rw [← value?_eq_some_iff, ← value?_eq_some_iff]
  constructor
  · intro h
    obtain ⟨s, hs⟩ := value?_eq_some_iff.mp h
    obtain ⟨a₀, ok, a, hcreate, hpass, hclean⟩ := exists_pass1 hs
    obtain ⟨-, -, hsettings, hfile⟩ := Assembly.placed_create hcreate
    have ha₀ : a₀.settings.strictOperands = true := by rw [hsettings, hstrict]
    have hall := Assembly.pass1_suited (Assembly.create_fresh hcreate).1 ha₀ hpass hclean
    rw [hfile] at hall
    have hsame := value?_of_suited (t := lenient) false hall (by rw [hstrict, hlenient]) hcreate
    exact ⟨hsame ▸ h, hall⟩
  · rintro ⟨h, hall⟩
    obtain ⟨s, hs⟩ := value?_eq_some_iff.mp h
    obtain ⟨a₀, -, -, hcreate, -⟩ := exists_pass1 hs
    have hsame := value?_of_suited (t := strict) true hall (by rw [hstrict, hlenient]) hcreate
    exact hsame ▸ h

/-- A register is missing in a line that also has a label: the lenient session assembles it all the same. -/
theorem assembleText_strict_iff_refused :
    let source := "P       START  1000\nTOP     ADDR   A\n        J      TOP"
    ∃ (strict lenient : Session) (text : String),
      create { strictOperands := true } false {} = .ok strict ∧ create {} true {} = .ok lenient ∧
      (∃ s, assembleText source "top.asm" lenient = .ok (some text) s) ∧
      (¬ ∃ s, assembleText source "top.asm" strict = .ok (some text) s) ∧
      ¬ Assembly.AllSuited "top.asm" 1 (sourceLines source) := by
  intro source
  obtain ⟨strict, hstrict⟩ : ∃ strict, create { strictOperands := true } false {} = .ok strict := ⟨_, rfl⟩
  obtain ⟨lenient, hlenient⟩ : ∃ lenient, create {} true {} = .ok lenient := ⟨_, rfl⟩
  have hsettings : strict.settings = { strictOperands := true } ∧ lenient.settings = {} := by
    cases hstrict; cases hlenient; exact ⟨rfl, rfl⟩
  have hrun : ((assembleText source "top.asm").value? lenient).join.isSome = true ∧
      (assembleText source "top.asm").value? strict = some none := by
    cases hstrict; cases hlenient
    decide +kernel
  obtain ⟨text, htext⟩ := exists_text hrun.1
  have hrefused : ¬ ∃ s, assembleText source "top.asm" strict = .ok (some text) s := by
    rw [← value?_eq_some_iff, hrun.2]
    nofun
  have hiff := assembleText_strict_iff {} source "top.asm" text hsettings.1 hsettings.2
  exact ⟨strict, lenient, text, hstrict, hlenient, ⟨_, htext⟩, hrefused,
    fun hall => hrefused (hiff.mpr ⟨⟨_, htext⟩, hall⟩)⟩

end Session

end TwoPass
