import TwoPass.Proofs.Assembly.Calls
import TwoPass.Proofs.Assembly.Retuning
import TwoPass.Proofs.Machine.Decode
import TwoPass.Proofs.Object.Shape

/-!
Relative addressing against plain. Choosing displacements touches the two addressing bits, the bits `b` and `p`
and the address field of three-byte instructions that refer to symbols. Whatever is assembled with relative
addressing is therefore assembled without it, into text records at the same addresses and of the same lengths.
-/

namespace TwoPass

open TwoPass.Action (Agree Ends bind_eq_ok bind_run ends_bind ends_get ends_modify)

namespace Fetched

/-- The six high bits of the first byte. -/
def opcodeBits (f : Fetched) : Nat :=
  f.operation / 4

def isIndexed (f : Fetched) : Bool :=
  f.field.testBit 15

def isExtended (f : Fetched) : Bool :=
  f.field.testBit 12

end Fetched

theorem Instruction.fetched_kept {i : Instruction} {operands : List Operand} {address : Int}
    (hop : i.opcode ∈ opcodes) (hf : i.format = 3) (ha : i.address? operands = some address) :
    ∃ code f, i.code operands = .ok code ∧ Fetched.ofBytes? (byteDigits code) = some f ∧
      f.opcodeBits = i.opcode.code / 4 ∧ f.isIndexed = i.flags.indexed ∧ f.isExtended = i.flags.extended := by
  obtain ⟨code, hcode, hbytes⟩ := ofBytes?_code hop hf ha
  have hx := Bool.toNat_le i.flags.indexed
  have hb := Bool.toNat_le i.flags.baseRelative
  have hp := Bool.toNat_le i.flags.pcRelative
  have he := Bool.toNat_le i.flags.extended
  have hn : (address % 4096).toNat < 4096 := by omega
  refine ⟨code, _, hcode, hbytes, i.opcodeByte_div, testBit_of_div ?_, testBit_of_div ?_⟩
  · simp only [addressFlags]
    omega
  · simp only [addressFlags]
    omega

/-! ## Statements -/

namespace Statement

/-- A three-byte instruction with a symbol among its operands as written. -/
def isShortReference (s : Statement) : Bool :=
  match s.body with
  | .instruction i => i.format = 3 && !i.references.isEmpty
  | _ => false

/-- `s'` is `s`, or a reference like `s` that may reach its target in another way. -/
inductive Rerouted (s : Statement) : Statement → Prop
  | same : Rerouted s s
  | reference {i : Instruction} (reach : Reach) : s.body = .instruction i → i.format = 3 →
      i.references.isEmpty = false → Rerouted s { s with body := .instruction (i.withReach reach) }

theorem rerouted_relocate {s : Statement} (base : Option Int) (h : s.isRelocatable = true) :
    s.Rerouted (s.relocate base).statement := by
  rcases s.relocate_cases base with he | ⟨i, reach, hb, he⟩
  · rw [he]
    exact .same
  · rw [he]
    simp only [isRelocatable, hb] at h
    split at h
    · rename_i hi _
      cases hi
      simp only [Bool.and_eq_true, decide_eq_true_eq, Bool.not_eq_true'] at h
      exact .reference reach hb h.1 h.2
    · cases h

theorem rerouted_revise (s : Statement) (table : SymbolTable) (file : String) (base : Option Int) :
    s.Rerouted (s.revise table file base).1.statement := by
  unfold revise
  split
  · split
    · exact .same
    · exact .same
  · exact .same
  · dsimp only
    split
    · rename_i h
      exact rerouted_relocate base h
    · exact .same

/-- What relative addressing leaves alone: a reference keeps its opcode and the bits `x` and `e`, and any other
statement keeps its code. -/
structure Comparable (s s' : Statement) : Prop where
  offset : s'.offset = s.offset
  other : s.isShortReference = false → s'.code = s.code
  reference : s.isShortReference = true → ∃ code code' f f', s.code = .ok code ∧ s'.code = .ok code' ∧
    Fetched.ofBytes? (byteDigits code) = some f ∧ Fetched.ofBytes? (byteDigits code') = some f' ∧
    f'.opcodeBits = f.opcodeBits ∧ f'.isIndexed = f.isIndexed ∧ f'.isExtended = f.isExtended

theorem withReach_kept (i : Instruction) (reach : Reach) :
    (i.withReach reach).opcode = i.opcode ∧ (i.withReach reach).format = i.format ∧
      (i.withReach reach).flags.indexed = i.flags.indexed ∧
      (i.withReach reach).flags.extended = i.flags.extended := by
  cases reach <;> exact ⟨rfl, rfl, rfl, rfl⟩

variable {s s' : Statement}

theorem Rerouted.reaches {i : Instruction} (h : s.Rerouted s') (hb : s.body = .instruction i) :
    s'.operands = s.operands ∧ ∃ i', s'.body = .instruction i' ∧ i'.opcode = i.opcode ∧ i'.format = i.format ∧
      i'.flags.indexed = i.flags.indexed ∧ i'.flags.extended = i.flags.extended := by
  cases h with
  | same => exact ⟨rfl, i, hb, rfl, rfl, rfl, rfl⟩
  | reference reach hi hf href =>
      cases hb.symm.trans hi
      exact ⟨rfl, _, rfl, withReach_kept i reach⟩

theorem Rerouted.comparable (h : s.Rerouted s') (hw : s.WellFormed) : s.Comparable s' := by
  refine ⟨by cases h <;> rfl, fun hs => ?_, fun hs => ?_⟩
  · cases h with
    | same => rfl
    | reference reach hb hf href => simp [isShortReference, hb, hf, href] at hs
  · cases hb : s.body with
    | instruction i =>
        simp only [isShortReference, hb, Bool.and_eq_true, decide_eq_true_eq] at hs
        simp only [WellFormed, hb] at hw
        obtain ⟨hoperands, i', hb', hop, hf, hx, he⟩ := h.reaches hb
        have hcode : s.code = i.code s.operands := by rw [Statement.code, hb]
        have hcode' : s'.code = i'.code s.operands := by rw [Statement.code, hb', hoperands]
        obtain ⟨address, ha⟩ := i.address?_spec hw.operands
        obtain ⟨address', ha'⟩ := i'.address?_spec hw.operands
        obtain ⟨code, f, h₁, hfetch, hbits, hxf, hef⟩ := Instruction.fetched_kept hw.opcode hs.1 ha
        obtain ⟨code', f', h₁', hfetch', hbits', hxf', hef'⟩ :=
          Instruction.fetched_kept (hop ▸ hw.opcode) (hf.trans hs.1) ha'
        refine ⟨code, code', f, f', hcode.trans h₁, hcode'.trans h₁', hfetch, hfetch', ?_, ?_, ?_⟩
        · rw [hbits', hbits, hop]
        · rw [hxf', hxf, hx]
        · rw [hef', hef, he]
    | _ => simp [isShortReference, hb] at hs

theorem Rerouted.revised (h : s.Rerouted s') : Revised s s' := by
  cases h with
  | same => exact .refl s
  | reference reach hb _ _ => exact .withReach hb reach

theorem Rerouted.packsLike (h : s.Rerouted s') (hw : s.WellFormed) : s'.PacksLike s := by
  obtain ⟨n, code, hn, hcode, hhex⟩ := size_code hw
  obtain ⟨n', code', hn', hcode', hhex'⟩ := size_code (h.revised.wellFormed hw)
  have hsize : n' = n := by
    rw [h.revised.size, hn] at hn'
    exact (Except.ok.inj hn').symm
  rw [h.revised.isEmitted, hsize] at hhex'
  refine ⟨h.revised.offset.symm, ?_, code', code, hcode', hcode, ?_⟩
  · cases h with
    | same => rfl
    | reference reach hb _ _ => simp [isReservation, hb]
  · split at hhex
    · rename_i hemitted
      rw [if_pos hemitted] at hhex'
      rw [hhex.length, hhex'.length]
    · rename_i hemitted
      rw [if_neg hemitted] at hhex'
      rw [hhex, hhex']

end Statement

theorem revisions_rerouted (table : SymbolTable) (file : String) (base : Option Int) (l : List Statement) :
    List.Forall₂ Statement.Rerouted l ((revisions table file base l).map (·.statement)) := by
  induction l generalizing base with
  | nil => exact .nil
  | cons s rest ih => exact .cons (s.rerouted_revise table file base) (ih _)

/-! ## Assemblies -/

namespace Assembly

variable {a b : Assembly} {p : ObjectProgram}

/-- Symbols are all that can be wrong in a second pass without relative addressing. -/
theorem pass2_plain (ha : a.phase = .pass1Done) (hclean : a.errors.hasErrors = false)
    (hrel : a.settings.relativeAddressing = false)
    (hu : ∀ s ∈ a.statements, s.unresolvedErrors a.symbols = []) :
    ∃ b, pass2 a = .ok true b ∧ b =
      { a with phase := .pass2Done, statements := a.statements.map (·.resolve a.symbols)
               errors := { a.errors with warnings := b.errors.warnings }, journal := b.journal } := by
  have hall : resolveAll { a with phase := .pass2Running } = .ok ()
      { a with phase := .pass2Running, statements := a.statements.map (·.resolve a.symbols) } := by
    have hnone : a.statements.flatMap (·.unresolvedErrors a.symbols) = [] := List.flatMap_eq_nil_iff.mpr hu
    simp only [resolveAll, resolveWith, resolveSymbols, bind_run, Action.get_run, Action.modify_run,
      Action.pure_run, hnone, reportAll, hrel]
    rfl
  have hends : Ends pass2 a
      (fun ok b => ok = true ∧ b =
        { a with phase := .pass2Done, statements := a.statements.map (·.resolve a.symbols)
                 errors := { a.errors with warnings := b.errors.warnings }, journal := b.journal })
      (fun _ _ => False) := by
    simp only [pass2, ends_bind, ends_get]
    rw [if_neg (by simp [ha]), if_neg (by simp [hclean]), ends_bind, enter, ends_modify, ends_bind]
    rw [Ends, untilFull, hall]
    dsimp only
    rw [ends_bind, ends_get, if_neg (by simp [hclean])]
    refine (warnTruncations_ends _).bind fun _ c hc => ?_
    unfold Warned at hc
    rw [hc]
    exact ⟨by rw [ErrorLog.hasErrors] at hclean ⊢; simp [hclean], rfl⟩
  rcases hends.cases with ⟨_, b, hrun, rfl, hb⟩ | ⟨_, _, -, hfalse⟩
  · exact ⟨b, hrun, hb⟩
  · exact hfalse.elim

theorem assemble_some {lines : List String} {a₀ : Assembly} (ha₀ : a₀.phase = .fresh)
    (h : assemble lines a₀ = .ok (some p) b) :
    ∃ ok a₁ a₂, pass1 lines a₀ = .ok ok a₁ ∧ a₁.phase = .pass1Done ∧ a₁.settings = a₀.settings ∧
      a₁.errors.hasErrors = false ∧ Reworked a₁ a₂ ∧ Resolved a₁ a₂ ∧ Made a₂ p b := by
  obtain ⟨ok, a₁, h₁, h⟩ := bind_eq_ok h
  obtain ⟨ok', a₂, h₂, h₃⟩ := bind_eq_ok h
  obtain ⟨placed, new, hg⟩ := (pass1_fresh lines ha₀).of_ok h₁
  have hclean := (generateObject_some h₃).1
  have hpassed := (pass2_passed a₁).of_ok h₂
  obtain ⟨hfirst, hresolved⟩ := hpassed.resolved (by rw [hpassed.answer, hclean]; rfl)
  have hsettings : a₁.settings = a₀.settings := by rw [hg.kept]
  exact ⟨ok, a₁, a₂, h₁, hg.phase, hsettings, hfirst, hpassed.reworked, hresolved,
    ((generateObject_made a₂).of_ok h₃).2 p rfl⟩

theorem pass1_plain {settings : Settings} {file : String} {a₀ b₀ : Assembly} (lines : List String)
    (ha : create { settings with relativeAddressing := true } file = .ok a₀)
    (hb : create { settings with relativeAddressing := false } file = .ok b₀) :
    Ends (pass1 lines) a₀
      (fun ok a => pass1 lines b₀ = .ok ok { a with settings := b₀.settings })
      (fun failure a => pass1 lines b₀ = .error failure { a with settings := b₀.settings }) := by
  obtain ⟨b, hcreate, hab⟩ := create_retuned ({ · with relativeAddressing := false }) ha rfl rfl
  cases hcreate.symm.trans hb
  have hagree : Agree (Retuned ({ · with relativeAddressing := false }) file) (pass1 lines) (pass1 lines) :=
    agree_pass1 lines fun _ _ _ _ _ _ _ => checksAlike_of_strict fun _ => rfl
  have hsettings : b₀.settings = { a₀.settings with relativeAddressing := false } := by rw [hab.same]
  refine ((hagree a₀ b₀ hab).and (pass1_fresh lines (create_fresh ha).1)).mono ?_ ?_
  · rintro ok a ⟨⟨b, hrun, hr⟩, placed, new, hg⟩
    rw [hrun, hr.same, hsettings, hg.kept]
  · rintro failure a ⟨⟨b, hrun, hr⟩, ⟨placed, new, hg⟩, -⟩
    rw [hrun, hr.same, hsettings, hg.kept]

theorem Resolved.rerouted (h : Resolved a b) (hrel : a.settings.relativeAddressing = true) :
    List.Forall₂ Statement.Rerouted (a.statements.map (·.resolve a.symbols)) b.statements := by
  rw [(h.plan hrel).1]
  exact revisions_rerouted a.symbols a.file none _

/-- The first pass does not look at the mode. What relative addressing assembles is assembled without it as well,
with the same symbols, header and end, and the same records up to their digits. -/
theorem relative_comparable (settings : Settings) {file : String} {a₀ b₀ : Assembly} (lines : List String)
    (ha : create { settings with relativeAddressing := true } file = .ok a₀)
    (hb : create { settings with relativeAddressing := false } file = .ok b₀) :
    Ends (pass1 lines) a₀
      (fun ok a => pass1 lines b₀ = .ok ok { a with settings := b₀.settings })
      (fun failure a => pass1 lines b₀ = .error failure { a with settings := b₀.settings }) ∧
    ∀ p a, assemble lines a₀ = .ok (some p) a → ∃ p' b, assemble lines b₀ = .ok (some p') b ∧
      b.symbols = a.symbols ∧ p' = { p with texts := p'.texts } ∧ p'.shape = p.shape ∧
      List.Forall₂ Statement.Comparable b.statements a.statements := by
  have hfirst := pass1_plain lines ha hb
  refine ⟨hfirst, fun p a h => ?_⟩
  obtain ⟨-, -, hsa, -⟩ := placed_create ha
  obtain ⟨-, -, hsb, -⟩ := placed_create hb
  obtain ⟨ok, a₁, a₂, h₁, hphase, hsettings, hclean, hreworked, hresolved, hmade⟩ :=
    assemble_some (create_fresh ha).1 h
  have hplain := hfirst.of_ok h₁
  obtain ⟨b₂, h₂, hb₂⟩ := pass2_plain (a := { a₁ with settings := b₀.settings }) hphase hclean
    (by rw [hsb]) hresolved.unresolved
  have hroutes : List.Forall₂ Statement.Rerouted b₂.statements a₂.statements := by
    rw [hb₂]
    exact hresolved.rerouted (by rw [hsettings, hsa])
  have hwell : ∀ s ∈ b₂.statements, s.WellFormed := by
    have hlaid := (pass1_settled lines ha).placed.laid.wellFormed
    rw [Action.after, h₁] at hlaid
    rw [hb₂]
    exact Statement.wellFormed_of_revised (resolved_revised a₁) hlaid
  have hboth := (List.forall₂_and_left _ _).mpr ⟨hwell, hroutes⟩
  have hpacks : List.Forall₂ Statement.PacksLike a₂.statements b₂.statements :=
    List.Forall₂.flip (hboth.imp fun _ _ hs => hs.2.packsLike hs.1)
  obtain ⟨p', hp', hsame, hshape⟩ := ObjectProgram.build_shape hpacks hmade.build
  -- All that the object program is made of besides the statements comes from the first pass.
  have hbuild : ObjectProgram.build b₂.limit b₂.statements b₂.name b₂.start b₂.length = .ok p' := by
    rw [hreworked.kept] at hp'
    rw [hb₂] at hp' ⊢
    exact hp'
  have hready := generateObject_ready (a := b₂) (by rw [hb₂]; exact hclean) (by rw [hb₂]; rfl)
  rw [hbuild] at hready
  obtain ⟨journal, h₃⟩ := hready
  refine ⟨p', { b₂ with object := some p', phase := .objectGenerated, journal }, ?_, ?_, hsame, hshape, ?_⟩
  · rw [assemble, bind_run, hplain]
    dsimp only
    rw [bind_run, h₂]
    exact h₃
  · rw [hmade.kept, hb₂, hreworked.kept]
  · rw [hmade.kept]
    exact hboth.imp fun _ _ hs => hs.2.comparable hs.1

/-- An indexed reference, one in four bytes, an immediate number, and data behind a gap. -/
theorem relative_comparable_indexed :
    let lines := ["P       START  1000", "        LDA    NEXT,X", "        +J     P", "        LDA    #7",
      "        RESB   3", "NEXT    WORD   5"]
    ∃ (a₀ b₀ a b : Assembly) (p p' : ObjectProgram),
      create { relativeAddressing := true } "modes.asm" = .ok a₀ ∧ create {} "modes.asm" = .ok b₀ ∧
      assemble lines a₀ = .ok (some p) a ∧ assemble lines b₀ = .ok (some p') b ∧
      p'.shape = p.shape ∧ p' ≠ p ∧ List.Forall₂ Statement.Comparable b.statements a.statements ∧
      b.statements.map (·.isShortReference) = [false, true, false, false, false, false] := by
  intro lines
  obtain ⟨a₀, ha⟩ : ∃ a₀, create { relativeAddressing := true } "modes.asm" = .ok a₀ := ⟨_, rfl⟩
  obtain ⟨b₀, hb⟩ : ∃ b₀, create {} "modes.asm" = .ok b₀ := ⟨_, rfl⟩
  have hrun : ((assemble lines).value? a₀).join.isSome = true ∧
      (assemble lines).value? a₀ ≠ (assemble lines).value? b₀ ∧
      ((assemble lines).after b₀).statements.map (·.isShortReference) =
        [false, true, false, false, false, false] := by
    cases ha; cases hb
    decide +kernel
  obtain ⟨hsome, hne, hshort⟩ := hrun
  obtain ⟨p, hp⟩ := Option.isSome_iff_exists.mp hsome
  have hvalue := Option.join_eq_some_iff.mp hp
  have h := Action.eq_ok_of_value? hvalue
  obtain ⟨-, hall⟩ := relative_comparable {} lines ha hb
  obtain ⟨p', b, h', -, -, hshape, hcomparable⟩ := hall p _ h
  have hvalue' : (assemble lines).value? b₀ = some (some p') := by rw [Action.value?, h']
  have hb' : (assemble lines).after b₀ = b := by rw [Action.after, h']
  refine ⟨a₀, b₀, _, b, p, p', ha, hb, h, h', hshape, ?_, hcomparable, hb' ▸ hshort⟩
  rintro rfl
  exact hne (hvalue.trans hvalue'.symm)

end Assembly

end TwoPass
