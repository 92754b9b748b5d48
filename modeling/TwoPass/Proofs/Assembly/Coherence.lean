import TwoPass.Proofs.Assembly.Constants
import TwoPass.Proofs.Assembly.ObjectFile

/-!
Coherence of instructions. Operator, format, flags, operands and displacement of an instruction are kept apart and
changed apart, but they always fit together: behind each line of the first pass, and behind every call, also where
the call fails or is stopped by the error limit. So an instruction never lacks a size or a code.
-/

namespace TwoPass

open TwoPass.Action (Ends ends_bind ends_get ends_modify ends_pure)

/-! ## Instructions -/

/-- A displacement counts from the program counter or from the base register, as the flags say, and is in its range.
Only three-byte instructions under relative addressing have one. -/
structure Instruction.Displaced (relative : Bool) (i : Instruction) : Prop where
  exclusive : ¬ (i.flags.pcRelative = true ∧ i.flags.baseRelative = true)
  present : i.displacement.isSome = true ↔ i.flags.pcRelative = true ∨ i.flags.baseRelative = true
  allowed : i.displacement.isSome = true → i.format = 3 ∧ relative = true
  pcRange : ∀ d, i.displacement = some d → i.flags.pcRelative = true → -2048 ≤ d ∧ d ≤ 2047
  baseRange : ∀ d, i.displacement = some d → i.flags.baseRelative = true → 0 ≤ d ∧ d ≤ 4095

/-- All parts of an instruction fit together and fit its operator. -/
structure Instruction.Coherent (relative : Bool) (operator : String) (operands : List Operand)
    (i : Instruction) : Prop extends i.WellFormed operands where
  marked : i.format = 4 ↔ operator.toList.head? = some '+'
  baseMachine : i.flags.baseMachine = true ↔ i.opcode.isBase = true
  displaced : i.Displaced relative

namespace Instruction

variable {relative : Bool} {operator : String} {operands : List Operand} {i i' : Instruction}

theorem IsPlain.displaced (h : i.IsPlain) (relative : Bool) : i.Displaced relative := by
  obtain ⟨hd, hp, hb⟩ := h
  refine ⟨by simp [hp], by simp [hd, hp, hb], by simp [hd], ?_, ?_⟩ <;> simp [hd]

/-- Whichever way to the target is chosen, the displacement is in the range of that way. -/
theorem Selected.displaced {next target : Int} {base : Option Int} (h : i.Selected next base target i')
    (hf : i'.format = 3) : i'.Displaced true := by
  refine ⟨?_, ?_, fun _ => ⟨hf, rfl⟩, fun d hd hp => ?_, fun d hd hb => ?_⟩
  · rintro ⟨hp, hb⟩
    exact (h.baseRelative.mp hb).1 (h.pcRelative.mp hp)
  · rw [h.pcRelative, h.baseRelative, Option.isSome_iff_exists]
    constructor
    · rintro ⟨d, hd⟩
      rcases (h.displacement d).mp hd with ⟨hnear, -⟩ | ⟨hfar, b, hb, rfl, hmin, hmax⟩
      · exact .inl hnear
      · exact .inr ⟨hfar, b, hb, hmin, hmax⟩
    · rintro (hnear | ⟨hfar, b, hb, hmin, hmax⟩)
      · exact ⟨_, (h.displacement _).mpr (.inl ⟨hnear, rfl⟩)⟩
      · exact ⟨_, (h.displacement _).mpr (.inr ⟨hfar, b, hb, rfl, hmin, hmax⟩)⟩
  · rcases (h.displacement d).mp hd with ⟨hnear, rfl⟩ | ⟨hfar, -⟩
    · exact hnear
    · exact absurd (h.pcRelative.mp hp) hfar
  · rcases (h.displacement d).mp hd with ⟨hnear, -⟩ | ⟨-, b, -, -, hmin, hmax⟩
    · exact absurd hnear (h.baseRelative.mp hb).1
    · exact ⟨hmin, hmax⟩

/-- Nothing but the displacement and its flags is different. -/
theorem Coherent.of_unplaced (h : i.Coherent relative operator operands) (hkept : i'.unplaced = i.unplaced)
    (hd : i'.Displaced relative) : i'.Coherent relative operator operands := by
  have hopcode : i'.opcode = i.opcode := congrArg (·.opcode) hkept
  have hformat : i'.format = i.format := congrArg (·.format) hkept
  have hextended : i'.flags.extended = i.flags.extended := congrArg (·.flags.extended) hkept
  have hbase : i'.flags.baseMachine = i.flags.baseMachine := congrArg (·.flags.baseMachine) hkept
  refine ⟨⟨hopcode ▸ h.opcode, ?_, ?_, h.operands⟩, ?_, ?_, hd⟩
  · rw [hformat, hopcode]
    exact h.format
  · rw [hextended, hformat]
    exact h.extended
  · rw [hformat]
    exact h.marked
  · rw [hbase, hopcode]
    exact h.baseMachine

end Instruction

/-! ## Statements -/

namespace Statement

def Coherent (relative : Bool) (s : Statement) : Prop :=
  ∀ i, s.body = .instruction i → i.Coherent relative s.operator s.operands

variable {relative : Bool} {s : Statement}

theorem parse_coherent {file text : String} {line offset : Int} (h : parse file text line offset = .ok s)
    (relative : Bool) : s.Coherent relative := by
  intro i hi
  have hparsed := parse_parsed h
  have hw := hparsed.wellFormed
  simp only [WellFormed, hi] at hw
  rcases parse_cases h with ⟨hremark, -⟩ | ⟨fields, whole, -, -, hoperator, -, hinstruction⟩
  · rw [hi] at hremark
    cases hremark
  · obtain ⟨-, -, hoperands, hformat⟩ := hinstruction i hi
    obtain ⟨-, hflags⟩ := Instruction.parseOperands_spec hoperands
    have hbase : i.flags.baseMachine = i.opcode.isBase := congrArg Flags.baseMachine hflags
    have hplain : i.IsPlain := (hparsed.instruction i hi).2
    refine ⟨hw, ?_, by rw [hbase], hplain.displaced relative⟩
    obtain ⟨-, hne⟩ := Instruction.plainFormat_mem hw.opcode
    rw [hoperator, hformat]
    split <;> simp_all

theorem Coherent.resolve (h : s.Coherent relative) (table : SymbolTable) : (s.resolve table).Coherent relative := by
  intro i hi
  rw [resolve_body] at hi
  have hcoherent := h i hi
  simp only [Statement.resolve, hi]
  refine ⟨⟨hcoherent.opcode, hcoherent.format, hcoherent.extended, fun o ho => ?_⟩, hcoherent.marked,
    hcoherent.baseMachine, hcoherent.displaced⟩
  obtain ⟨o', ho', rfl⟩ := List.mem_map.mp ho
  exact (hcoherent.operands o' ho').resolve table

/-- Also where no displacement is found: then the instruction is left without one. -/
theorem Coherent.relocate (h : s.Coherent true) (hr : s.isRelocatable = true) (base : Option Int) :
    (s.relocate base).statement.Coherent true := by
  cases hb : s.body with
  | instruction i =>
      have hcoherent := h i hb
      have hf : i.format = 3 := by
        unfold isRelocatable at hr
        split at hr
        · rename_i heq _
          cases hb.symm.trans heq
          simp_all
        · cases hr
      have hunplaced : i.unplaced.Coherent true s.operator s.operands :=
        hcoherent.of_unplaced rfl (Instruction.IsPlain.displaced ⟨rfl, rfl, rfl⟩ true)
      unfold Statement.relocate
      simp only [hb]
      split
      · rintro _ ⟨⟩
        exact hunplaced
      · rintro _ ⟨⟩
        exact hunplaced
      · rename_i size target _ _
        rintro _ ⟨⟩
        have hselected := i.withReach_selected (s.offset + size) base target
        have hkept : (i.withReach _).format = i.format := congrArg (·.format) hselected.kept
        exact hcoherent.of_unplaced hselected.kept (hselected.displaced (hkept.trans hf))
  | _ => simp [isRelocatable, hb] at hr

theorem Coherent.revise (h : s.Coherent true) (table : SymbolTable) (file : String) (base : Option Int) :
    (s.revise table file base).1.statement.Coherent true := by
  unfold Statement.revise
  split
  · split <;> exact h
  · exact h
  · dsimp only
    split
    · rename_i hr
      exact h.relocate hr base
    · exact h

end Statement

namespace Assembly

variable {settings : Settings} {a b : Assembly}

/-! ## Calls -/

/-- The statements are well formed and the instructions among them coherent under the settings. -/
structure Sound (settings : Settings) (a : Assembly) : Prop where
  kept : a.settings = settings
  statements : ∀ s ∈ a.statements, s.WellFormed ∧ s.Coherent settings.relativeAddressing

theorem Sound.of_same (h : Sound settings a) (hsettings : b.settings = a.settings)
    (hstatements : b.statements = a.statements) : Sound settings b :=
  ⟨hsettings.trans h.kept, hstatements ▸ h.statements⟩

theorem Sound.grown {scope : Scope} {placed : List Statement} {new : List Diagnostic} (h : Sound settings a)
    (hg : Grown scope a b placed new)
    (hscope : ∀ s, scope.places s → ∃ file text line offset, Statement.parse file text line offset = .ok s) :
    Sound settings b := by
  have hsettings : b.settings = a.settings := by rw [hg.kept]
  refine ⟨hsettings.trans h.kept, ?_⟩
  rw [hg.statements, List.forall_mem_append]
  refine ⟨h.statements, fun s hs => ?_⟩
  obtain ⟨file, text, line, offset, hparse⟩ := hscope s (hg.placed s hs)
  exact ⟨(Statement.parse_parsed hparse).wellFormed, Statement.parse_coherent hparse _⟩

theorem Scope.lines_parsed {file : String} {number : Nat} {lines : List String} (s : Statement)
    (h : (Scope.lines file number lines).places s) :
    ∃ file text line offset, Statement.parse file text line offset = .ok s := by
  obtain ⟨k, text, -, -, offset, hparse⟩ := h
  exact ⟨_, _, _, _, hparse⟩

theorem mem_scanned {n : Nat} {s' : Statement} (h : s' ∈ a.scanned n) :
    ∃ s ∈ a.statements, s' = s.resolve a.symbols ∨
      0 < n ∧ ∃ base, s' = ((s.resolve a.symbols).revise a.symbols a.file base).1.statement := by
  obtain ⟨k, hk⟩ := List.mem_iff_getElem?.mp h
  have hlength : (a.scanned n).length = a.statements.length := by
    rw [scanned, List.length_append, List.length_map, List.length_take, List.length_drop, List.length_map, length_plan]
    omega
  have hlt : k < a.statements.length := hlength ▸ (List.getElem?_eq_some_iff.mp hk).1
  have hs : a.statements[k]? = some a.statements[k] := List.getElem?_eq_getElem hlt
  rw [getElem?_scanned n hs, Option.some.injEq] at hk
  refine ⟨_, List.getElem_mem hlt, ?_⟩
  split at hk
  · exact .inr ⟨by omega, _, hk.symm⟩
  · exact .inl hk.symm

theorem Sound.scanned {n : Nat} (h : Sound settings a) (hn : 0 < n → a.settings.relativeAddressing = true)
    (hsettings : b.settings = a.settings) (hb : b.statements = a.scanned n) : Sound settings b := by
  refine ⟨hsettings.trans h.kept, fun s' hs' => ?_⟩
  rw [hb] at hs'
  obtain ⟨s, hs, rfl | ⟨hpos, base, rfl⟩⟩ := mem_scanned hs'
  · obtain ⟨hw, hcoherent⟩ := h.statements s hs
    exact ⟨(Statement.Revised.resolve s a.symbols).wellFormed hw, hcoherent.resolve a.symbols⟩
  · obtain ⟨hw, hcoherent⟩ := h.statements s hs
    have hrevised := (Statement.Revised.resolve s a.symbols).trans (.revise _ a.symbols a.file base)
    rw [← h.kept, hn hpos] at hcoherent ⊢
    exact ⟨hrevised.wellFormed hw, (hcoherent.resolve a.symbols).revise a.symbols a.file base⟩

/-- Without relative addressing no statement is revised, whether or not the error limit is reached. -/
theorem resolveAll_plain (hrel : a.settings.relativeAddressing = false) :
    (resolveAll.after a).statements = a.scanned 0 := by
  refine Ends.after (P := fun b : Assembly => b.statements = a.scanned 0) ?_
  simp only [resolveAll, resolveWith, resolveSymbols, ends_bind, ends_get, ends_modify, ends_pure, hrel]
  exact (reportAll_ends _ _).mono (fun _ _ h => h.2.1) fun _ _ h => h.2.1

/-- The second pass leaves the statements where its work has left them. -/
theorem pass2_after_statements (ha : a.phase = .pass1Done) (hclean : a.errors.hasErrors = false) :
    (pass2.after a).statements = (resolveAll.after { a with phase := .pass2Running }).statements := by
  rcases (pass2_runs ha hclean).cases with ⟨ok, b, hrun, -, warnings, journal, rfl⟩ | ⟨failure, b, hrun, hb, -⟩
  · rw [Action.after, hrun]
  · rw [Action.after, hrun, Action.after, hb]

theorem Sound.pass2 (h : Sound settings a) : Sound settings (pass2.after a) := by
  have hreworked : Reworked a (Assembly.pass2.after a) := ((pass2_ends a).imp fun _ _ h => h.1).after
  have hsettings : (Assembly.pass2.after a).settings = a.settings := by rw [hreworked.kept]
  by_cases hran : a.phase = .pass1Done ∧ a.errors.hasErrors = false
  · cases hrel : a.settings.relativeAddressing with
    | true =>
        obtain ⟨n, hn, -⟩ := pass2_scans hran.1 hran.2 hrel fun s hs => (h.statements s hs).1
        exact h.scanned (fun _ => hrel) hsettings hn
    | false =>
        have hplain := (pass2_after_statements hran.1 hran.2).trans (resolveAll_plain hrel)
        exact h.scanned (n := 0) (fun hpos => absurd hpos (Nat.lt_irrefl 0)) hsettings hplain
  · rw [Classical.not_and_iff_not_or_not, Bool.not_eq_false] at hran
    exact h.of_same hsettings (pass2_idle hran)

theorem Sound.after (h : Sound settings a) (c : Call) : Sound settings (c.after a) := by
  cases c with
  | parseLines lines =>
      obtain ⟨placed, new, hg⟩ := ((parseLines_grown lines a).imp_error fun _ _ h => h.1).after
      exact h.grown hg Scope.lines_parsed
  | pass1 lines =>
      by_cases hfresh : a.phase = .fresh
      · obtain ⟨phase, placed, new, hg⟩ := pass1_grown lines hfresh
        have hentered : Sound settings { a with phase } := h.of_same rfl rfl
        exact hentered.grown hg Scope.lines_parsed
      · rw [Call.after, Action.after, pass1_refused lines hfresh]
        exact h
  | pass2 => exact h.pass2
  | generateObject =>
      have hstep := Call.step a .generateObject
      generalize Call.after a .generateObject = b at hstep ⊢
      cases hstep with
      | refused _ journal => exact h.of_same rfl rfl
      | made journal => exact h.of_same rfl rfl

theorem Sound.run (h : Sound settings a) (calls : List Call) : Sound settings (run calls a) := by
  induction calls generalizing a with
  | nil => exact h
  | cons c calls ih => exact ih (h.after c)

/-! ## Lines -/

/-- The course of placing lines: the assembly at the start and behind each line, up to a line that fails. -/
def course (number : Nat) : List String → Assembly → List Assembly
  | [], a => [a]
  | text :: rest, a =>
    if Text.isBlankText text.toList then
      a :: course (number + 1) rest a
    else
      match placeLine number text a with
      | .ok _ b => a :: course (number + 1) rest b
      | .error _ b => [a, b]

/-- The course ends where the lines are placed. -/
theorem getLast?_course (number : Nat) (lines : List String) (a : Assembly) :
    (course number lines a).getLast? = some ((placeLines number lines).after a) := by
  fun_induction course number lines a with
  | case1 => rfl
  | case2 number text rest a hv ih => rw [List.getLast?_cons, ih, placeLines_blank _ _ hv, Option.getD_some]
  | case3 number text rest a hv result b hline ih =>
      rw [Bool.not_eq_true] at hv
      rw [List.getLast?_cons, ih, placeLines_visible _ _ hv, Option.getD_some]
      simp only [Action.after, Action.bind_run, hline]
      cases placeLines (number + 1) rest b <;> rfl
  | case4 number text rest a hv failure b hline =>
      rw [Bool.not_eq_true] at hv
      rw [placeLines_visible _ _ hv]
      simp only [Action.after, Action.bind_run, hline]
      rfl

theorem Sound.placeLine (h : Sound settings a) (number : Nat) (text : String) :
    Ends (placeLine number text) a (fun _ => Sound settings) (fun _ => Sound settings) := by
  have hscope : ∀ s, (Scope.line a.file number text).places s →
      ∃ file text line offset, Statement.parse file text line offset = .ok s := by
    rintro s ⟨offset, hparse⟩
    exact ⟨_, _, _, _, hparse⟩
  refine (keeps_placeLine number text a rfl).mono ?_ ?_
  · rintro _ b ⟨placed, new, hs⟩
    exact h.grown hs.grown hscope
  · rintro _ b ⟨placed, new, hb⟩
    exact h.grown hb.grown hscope

theorem Sound.course (h : Sound settings a) (number : Nat) (lines : List String) :
    ∀ b ∈ course number lines a, Sound settings b := by
  fun_induction Assembly.course number lines a with
  | case1 => simpa using h
  | case2 number text rest a hv ih => exact List.forall_mem_cons.mpr ⟨h, ih h⟩
  | case3 number text rest a hv result b hline ih =>
      exact List.forall_mem_cons.mpr ⟨h, ih ((h.placeLine number text).of_ok hline)⟩
  | case4 number text rest a hv failure b hline =>
      simpa using ⟨h, (h.placeLine number text).of_error hline⟩

/-! ## Encoding -/

/-- Every instruction is coherent under the settings and has a size and a code. -/
def Encodable (settings : Settings) (a : Assembly) : Prop :=
  ∀ s ∈ a.statements, ∀ i, s.body = .instruction i →
    i.Coherent settings.relativeAddressing s.operator s.operands ∧ ∃ n code, s.size = .ok n ∧ s.code = .ok code

theorem Sound.encodable (h : Sound settings a) : Encodable settings a := by
  intro s hs i hi
  obtain ⟨hw, hcoherent⟩ := h.statements s hs
  obtain ⟨n, code, hsize, hcode, -⟩ := Statement.size_code hw
  exact ⟨hcoherent i hi, n, code, hsize, hcode⟩

theorem sound_create {file : String} {a₀ : Assembly} (h : create settings file = .ok a₀) : Sound settings a₀ := by
  obtain ⟨limit, -, rfl⟩ := create_eq_ok_iff.mp h
  exact ⟨rfl, by simp⟩

/-- Whatever the source and the settings are, all instructions are encodable behind each line of the first pass and
behind any calls, whether these succeed or fail. -/
theorem run_encodable {settings : Settings} {file : String} {a₀ : Assembly} (h : create settings file = .ok a₀) :
    (∀ lines, let a := { a₀ with phase := .pass1Running }
      (course 1 lines a).getLast? = some ((parseLines lines).after a) ∧
        ∀ b ∈ course 1 lines a, Encodable settings b) ∧
    ∀ calls, Encodable settings (run calls a₀) := by
  have hsound := sound_create h
  refine ⟨fun lines => ⟨getLast?_course 1 lines _, fun b hb => ?_⟩, fun calls => (hsound.run calls).encodable⟩
  have hentered : Sound settings { a₀ with phase := .pass1Running } := hsound.of_same rfl rfl
  exact (hentered.course 1 lines b hb).encodable

/-- Both kinds of displacement, an instruction that cannot reach its target, and a register in the place of one. -/
theorem run_encodable_mixed :
    let lines := ["P       START  1000", "        BASE   FAR", "LOOP    LDA    FAR", "        +JSUB  LOOP,X",
      "        ADD    X,A", "        J      LOOP", "        RESB   4096", "FAR     NOBASE", "        STA    LOOP"]
    ∃ a₀, create { relativeAddressing := true } "mixed.asm" = .ok a₀ ∧
      let b := run [.pass1 lines, .pass2, .generateObject] a₀
      Encodable { relativeAddressing := true } b ∧ b.errors.errorCount = 1 ∧
      b.statements.filterMap (·.instruction?.bind (·.displacement)) = [0, -13] ∧
      (course 1 lines { a₀ with phase := .pass1Running }).map (·.statements.length)
        = [0, 1, 2, 3, 4, 5, 6, 7, 8, 9] := by
  intro lines
  obtain ⟨a₀, h⟩ : ∃ a₀, create { relativeAddressing := true } "mixed.asm" = .ok a₀ := ⟨_, rfl⟩
  obtain ⟨-, hcalls⟩ := run_encodable h
  refine ⟨a₀, h, hcalls _, ?_⟩
  cases h
  decide +kernel

end Assembly

end TwoPass
