import TwoPass.Proofs.Assembly.Warnings
import TwoPass.Proofs.Machine.Decode

/-!
Operands and the width of their fields. Formats of two and four bytes cut an operand to its field without a word, so
a run without warnings has kept an operand whole exactly if it has room: shift counts and the number of a service
call in four bits, the address of an extended instruction in twenty.
-/

namespace TwoPass

/-! ## What a decoder finds -/

namespace Decoded

/-- Twenty bits in two's complement. -/
def signedAddress (n : Nat) : Int :=
  if n < 524288 then n else n - 1048576

/-- The operands stand whole behind the opcode: numbers in the two halves of the second byte, the target in the
address of an extended instruction, with or without a sign. -/
def Parts.Holds (operands : List Operand) : Parts → Prop
  | .registers first second =>
    (∀ value : Int, operands[0]? = some (Operand.integer value) → value = first) ∧
      ∀ value : Int, operands[1]? = some (Operand.integer value) → value = second
  | .memory _ _ _ _ true address =>
    ∃ target, Instruction.target? operands = some target ∧ (target = address ∨ target = signedAddress address)
  | _ => True

end Decoded

namespace Instruction

/-- Where an operand is a number that goes into a field of its own width, it has room there. -/
structure InWidth (i : Instruction) (operands : List Operand) : Prop where
  shift : i.opcode.mnemonic = "SHIFTL" ∨ i.opcode.mnemonic = "SHIFTR" →
    ∀ value : Int, operands[1]? = some (Operand.integer value) → 0 ≤ value ∧ value ≤ 15
  service : i.opcode.mnemonic = "SVC" →
    ∀ value : Int, operands[0]? = some (Operand.integer value) → 0 ≤ value ∧ value ≤ 15
  extended : i.format = 4 →
    ∀ value : Int, operands[0]? = some (Operand.integer value) → -524288 ≤ value ∧ value ≤ 1048575

variable {i : Instruction} {operands : List Operand}

theorem nibbles_integer {first second : Nat} (h : nibbles operands = .ok (first, second)) :
    (∀ value : Int, operands[0]? = some (Operand.integer value) → first = (value % 16).toNat) ∧
      ∀ value : Int, operands[1]? = some (Operand.integer value) → second = (value % 16).toNat := by
  unfold nibbles at h
  split at h
  · simp
  · rename_i o
    cases hn : nibble .upperHalf o with
    | error fault => rw [hn] at h; cases h
    | ok n =>
        rw [hn] at h
        cases h
        refine ⟨?_, by simp⟩
        rintro value ⟨⟩
        cases hn
        rfl
  · rename_i o o' rest
    cases hn : nibble .upperHalf o with
    | error fault => rw [hn] at h; cases h
    | ok n =>
        cases hn' : nibble .lowerHalf o' with
        | error fault => rw [hn, hn'] at h; cases h
        | ok n' =>
            rw [hn, hn'] at h
            cases h
            constructor
            · rintro value ⟨⟩
              cases hn
              rfl
            · rintro value ⟨⟩
              cases hn'
              rfl

theorem target?_cases (h : ∀ o ∈ operands, o.IsAddress) :
    (∃ value, operands[0]? = some (Operand.integer value) ∧ target? operands = some value) ∨
      (∀ value : Int, operands[0]? ≠ some (Operand.integer value)) ∧
        ∃ number : Nat, number < 16 ∧ target? operands = some (number : Int) := by
  unfold target?
  split
  · exact .inl ⟨_, rfl, rfl⟩
  · rename_i name rest
    have hname := h (.register name) (by simp)
    simp only [Operand.IsAddress] at hname
    obtain ⟨number, hnumber⟩ := Option.isSome_iff_exists.mp hname
    exact .inr ⟨by simp, number, registerNumber?_lt hnumber, by rw [hnumber]; rfl⟩
  · rename_i hinteger hregister
    refine .inr ⟨fun value hv => ?_, 0, by decide, rfl⟩
    cases operands with
    | nil => cases hv
    | cons o rest =>
        cases hv
        exact hinteger value rest rfl

theorem holds_registers_iff {first second : Nat} (h : nibbles operands = .ok (first, second)) :
    (Decoded.Parts.registers first second).Holds operands ↔
      (∀ value : Int, operands[0]? = some (Operand.integer value) → 0 ≤ value ∧ value ≤ 15) ∧
        ∀ value : Int, operands[1]? = some (Operand.integer value) → 0 ≤ value ∧ value ≤ 15 := by
  obtain ⟨hfirst, hsecond⟩ := nibbles_integer h
  have hfits (value : Int) : value = ((value % 16).toNat : Int) ↔ 0 ≤ value ∧ value ≤ 15 := by omega
  simp only [Decoded.Parts.Holds]
  refine and_congr (forall_congr' fun value => forall_congr' fun hv => ?_)
    (forall_congr' fun value => forall_congr' fun hv => ?_)
  · rw [hfirst value hv, hfits]
  · rw [hsecond value hv, hfits]

theorem holds_extended_iff {n : Nat} {x b p : Bool} {target : Int} (ho : ∀ o ∈ operands, o.IsAddress)
    (ht : target? operands = some target) :
    (Decoded.Parts.memory n x b p true (target % 1048576).toNat).Holds operands ↔
      ∀ value : Int, operands[0]? = some (Operand.integer value) → -524288 ≤ value ∧ value ≤ 1048575 := by
  have hfits : (target = ((target % 1048576).toNat : Int) ∨
      target = Decoded.signedAddress (target % 1048576).toNat) ↔ -524288 ≤ target ∧ target ≤ 1048575 := by
    unfold Decoded.signedAddress
    split <;> omega
  simp only [Decoded.Parts.Holds, ht, Option.some.injEq, exists_eq_left', hfits]
  rcases target?_cases ho with ⟨value, hv, hvalue⟩ | ⟨hnone, number, hlt, hnumber⟩
  · rw [ht] at hvalue
    cases hvalue
    simp [hv]
  · rw [ht] at hnumber
    cases hnumber
    exact iff_of_true (by omega) fun value hv => absurd hv (hnone value)

/-- Of the two-byte instructions only a service call and the shifts take numbers. -/
theorem numeric_arg (hop : i.opcode ∈ opcodes) (hf : 2 ∈ i.opcode.formats) {k : Nat} {arg : ArgKind}
    (hk : i.opcode.args[k]? = some arg) (hr : arg ≠ .register) :
    k = 0 ∧ i.opcode.mnemonic = "SVC" ∨
      k = 1 ∧ (i.opcode.mnemonic = "SHIFTL" ∨ i.opcode.mnemonic = "SHIFTR") := by
  have hall : ∀ op ∈ opcodes, 2 ∈ op.formats → op.args.length ≤ 2 ∧
      (op.args[0]? = some .register ∨ op.mnemonic = "SVC") ∧
      (op.args[1]? = none ∨ op.args[1]? = some .register ∨ op.mnemonic = "SHIFTL" ∨ op.mnemonic = "SHIFTR") := by
    decide
  obtain ⟨hlength, hfirst, hsecond⟩ := hall i.opcode hop hf
  have hlt : k < i.opcode.args.length := (List.getElem?_eq_some_iff.mp hk).1
  have hcases : k = 0 ∨ k = 1 := by omega
  rcases hcases with rfl | rfl
  · refine .inl ⟨rfl, hfirst.resolve_left fun hregister => ?_⟩
    rw [hregister] at hk
    exact hr (Option.some.inj hk).symm
  · rcases hsecond with hnone | hregister | hname
    · rw [hnone] at hk
      cases hk
    · rw [hregister] at hk
      exact absurd (Option.some.inj hk).symm hr
    · exact .inr ⟨rfl, hname⟩

theorem format_eq_two (hop : i.opcode ∈ opcodes) (hf : i.format ∈ i.opcode.formats)
    (h : i.opcode.mnemonic = "SHIFTL" ∨ i.opcode.mnemonic = "SHIFTR" ∨ i.opcode.mnemonic = "SVC") :
    i.format = 2 := by
  have hall : ∀ op ∈ opcodes, op.mnemonic = "SHIFTL" ∨ op.mnemonic = "SHIFTR" ∨ op.mnemonic = "SVC" →
      op.formats = [2] := by decide
  rw [hall i.opcode hop h] at hf
  simpa using hf

/-- What a decoder finds are the operands, exactly if they have room. -/
theorem holds_iff_inWidth {parts : Decoded.Parts} (hw : i.WellFormed operands)
    (hd : i.format = 4 → i.displacement = none)
    (hargs : ∀ (k : Nat) (value : Int), operands[k]? = some (Operand.integer value) →
      ∃ arg, i.opcode.args[k]? = some arg ∧ arg ≠ .register)
    (hp : i.parts? operands = some parts) : parts.Holds operands ↔ i.InWidth operands := by
  have hwide (h₂ : i.format ≠ 2) (h₄ : i.format ≠ 4) : i.InWidth operands :=
    ⟨fun hm => absurd (format_eq_two hw.opcode hw.format (hm.imp_right .inl)) h₂,
      fun hm => absurd (format_eq_two hw.opcode hw.format (.inr (.inr hm))) h₂, fun hf => absurd hf h₄⟩
  rcases Opcode.format_cases hw.opcode hw.format with hf | hf | hf | hf
  · simp only [parts?, hf] at hp
    cases hp
    exact iff_of_true trivial (hwide (by simp [hf]) (by simp [hf]))
  · obtain ⟨first, second, hn, -⟩ := nibbles_spec hw.operands
    simp only [parts?, hf, hn, Except.toOption, Option.map_some, Option.some.injEq] at hp
    subst hp
    have htwo : 2 ∈ i.opcode.formats := hf ▸ hw.format
    rw [holds_registers_iff hn]
    constructor
    · rintro ⟨hfirst, hsecond⟩
      exact ⟨fun _ => hsecond, fun _ => hfirst, fun h => by simp [hf] at h⟩
    · intro h
      refine ⟨fun value hv => ?_, fun value hv => ?_⟩
      · obtain ⟨arg, hk, hr⟩ := hargs 0 value hv
        rcases numeric_arg hw.opcode htwo hk hr with ⟨-, hname⟩ | ⟨hk, -⟩
        · exact h.service hname value hv
        · cases hk
      · obtain ⟨arg, hk, hr⟩ := hargs 1 value hv
        rcases numeric_arg hw.opcode htwo hk hr with ⟨hk, -⟩ | ⟨-, hname⟩
        · cases hk
        · exact h.shift hname value hv
  · obtain ⟨address, ha⟩ := i.address?_spec hw.operands
    have he : i.flags.extended = false := by simpa [hf] using hw.extended
    simp only [parts?, hf, ha, Option.map_some, memoryParts, he, Option.some.injEq] at hp
    subst hp
    exact iff_of_true trivial (hwide (by simp [hf]) (by simp [hf]))
  · obtain ⟨target, ht⟩ := i.address?_spec hw.operands
    have he : i.flags.extended = true := hw.extended.mpr hf
    simp only [parts?, hf, ht, Option.map_some, memoryParts, he, addressRange, if_true, Option.some.injEq] at hp
    rw [address?, hd hf] at ht
    subst hp
    refine (holds_extended_iff hw.operands ht).trans ?_
    refine ⟨fun h => ⟨fun hm => ?_, fun hm => ?_, fun _ => h⟩, fun h => h.extended hf⟩
    · have := format_eq_two hw.opcode hw.format (hm.imp_right .inl)
      omega
    · have := format_eq_two hw.opcode hw.format (.inr (.inr hm))
      omega

theorem exists_arg {args : List ArgKind} (table : SymbolTable)
    (h : List.Forall₂ (fun arg o => ArgKind.accepts arg o = true) args operands) {k : Nat} {value : Int}
    (hk : (operands.map (·.resolve table))[k]? = some (Operand.integer value)) :
    ∃ arg, args[k]? = some arg ∧ arg ≠ .register := by
  induction h generalizing k with
  | nil => simp at hk
  | @cons arg o args operands harg _ ih =>
      cases k with
      | zero =>
          refine ⟨arg, rfl, ?_⟩
          rintro rfl
          cases o with
          | register name => cases hk
          | _ => simp [ArgKind.accepts, Operand.kind] at harg
      | succ k => exact ih (by simpa using hk)

end Instruction

/-- An instruction was one before, with the same opcode, and its symbols have been looked up. -/
theorem Statement.Completed.exists_instruction {table : SymbolTable} {s s' : Statement} {i : Instruction}
    (h : s.Completed table s') (hb : s'.body = .instruction i) :
    ∃ i₀, s.body = .instruction i₀ ∧ i.opcode = i₀.opcode ∧ s'.operands = s.operands.map (·.resolve table) := by
  obtain ⟨i₀, hb₀, hop⟩ : ∃ i₀, s.body = .instruction i₀ ∧ i.opcode = i₀.opcode := by
    rcases h.body with hsame | ⟨i₀, reach, hb₀, hreach⟩
    · exact ⟨i, hsame ▸ hb, rfl⟩
    · rw [hreach] at hb
      cases hb
      exact ⟨i₀, hb₀, by cases reach <;> rfl⟩
  refine ⟨i₀, hb₀, hop, ?_⟩
  rw [h.operands, Statement.resolve, hb₀]

/-- The numbers of an instruction whose operands suited it stand where no register is asked for. -/
theorem Statement.Completed.exists_arg {table : SymbolTable} {s s' : Statement} {i : Instruction} {k : Nat}
    {value : Int} (h : s.Completed table s') (hs : s.Suited) (hb : s'.body = .instruction i)
    (hk : s'.operands[k]? = some (Operand.integer value)) :
    ∃ arg, i.opcode.args[k]? = some arg ∧ arg ≠ .register := by
  obtain ⟨i₀, hb₀, hop, hoperands⟩ := h.exists_instruction hb
  rw [hoperands] at hk
  rw [hop]
  exact Instruction.exists_arg table (hs i₀ hb₀) hk

/-! ## Runs without warnings -/

namespace Assembly

variable {a b : Assembly}

theorem suited_of_warnings {settings : Settings} {file : String} {lines : List String} {a₀ : Assembly} {ok : Bool}
    (h₀ : create settings file = .ok a₀) (h₁ : pass1 lines a₀ = .ok ok a) (hclean : a.errors.hasErrors = false)
    (hquiet : a.errors.warnings = []) : ∀ s ∈ a.statements, s.Suited := by
  have hnone : cautions a.statements = [] := by rw [← pass1_warnings h₀ h₁ hclean, hquiet]
  intro s hs
  obtain ⟨text, line, offset, hparse⟩ := parsed_of_pass1 h₀ h₁ hs
  rw [Statement.suited_iff hparse]
  intro i hb
  have hcaution := List.filterMap_eq_nil_iff.mp hnone s hs
  simpa [Statement.caution?, hb] using hcaution

/-- Each statement behind the second pass is one of the first, completed. -/
theorem Resolved.exists_completed (h : Resolved a b) :
    ∀ s' ∈ b.statements, ∃ s ∈ a.statements, Statement.Completed a.symbols s s' :=
  Statement.forall_mem_of_forall₂ h.completed (fun _ hs => hs) fun s _ hs hc => ⟨s, hs, hc⟩

end Assembly

namespace Session

/-- In a run without warnings the bytes of an instruction tell its operands whole, exactly if these have room. -/
theorem assembleText_lossless_iff {session session' : Session} {source file text : String} {s : Statement}
    {i : Instruction} (h : assembleText source file session = .ok (some text) session')
    (hquiet : session'.assembly.errors.warnings = []) (hs : s ∈ session'.assembly.statements)
    (hb : s.body = .instruction i) :
    ∃ code bytes d, s.code = .ok code ∧ bytes? code = some bytes ∧ decodeOne opcodes bytes = some (d, []) ∧
      d.mnemonic = i.opcode.mnemonic ∧ d.format = i.format ∧
      (d.parts.Holds s.operands ↔ i.InWidth s.operands) := by
  obtain ⟨a₀, ok, a, b, h₀, h₁, h₂, hstatements, -, herrors⟩ := exists_passes h
  have hpassed := (Assembly.pass2_passed _).of_ok h₂
  obtain ⟨hclean, hresolved⟩ := hpassed.resolved rfl
  have hlaid := (Assembly.placed_of_pass1 h₀ h₁).laid
  rw [herrors, (Assembly.pass2_warnings _).of_ok h₂ rfl, List.append_eq_nil_iff] at hquiet
  rw [hstatements] at hs
  have hw := hpassed.reworked.wellFormed hlaid.wellFormed s hs
  simp only [Statement.WellFormed, hb] at hw
  have hd : i.format = 4 → i.displacement = none := by
    intro hf
    rcases hresolved.inField hlaid s hs i hb with hplain | ⟨hthree, -⟩
    · exact hplain.1
    · omega
  obtain ⟨s₀, hs₀, hcompleted⟩ := hresolved.exists_completed s hs
  have hsuited := Assembly.suited_of_warnings h₀ h₁ hclean hquiet.1 s₀ hs₀
  obtain ⟨code, bytes, parts, hcode, hparts, hlegible⟩ := hw.legible
  have hdecoded := hlegible.decoded []
  rw [List.append_nil] at hdecoded
  refine ⟨code, bytes, _, by rw [Statement.code, hb]; exact hcode, hlegible.spelled, hdecoded, rfl, rfl, ?_⟩
  exact Instruction.holds_iff_inWidth hw hd (fun k value hk => hcompleted.exists_arg hsuited hb hk) hparts

/-- A shift by more than four bits can say, and a negative number that twenty bits can. -/
theorem assembleText_lossless_iff_two :
    let source := "P       START  0\n        SHIFTL A,20\n        +LDA   -1\n"
    ∃ (session session' : Session) (text : String) (s s' : Statement) (d d' : Decoded),
      create {} false {} = .ok session ∧ assembleText source "two.asm" session = .ok (some text) session' ∧
      session'.assembly.errors.warnings = [] ∧ s ∈ session'.assembly.statements ∧
      s' ∈ session'.assembly.statements ∧ s.operands = [.register "A", .integer 20] ∧
      s'.operands = [.integer (-1)] ∧ d.mnemonic = "SHIFTL" ∧ d'.mnemonic = "LDA" ∧
      (∃ code bytes, s.code = .ok code ∧ bytes? code = some bytes ∧ decodeOne opcodes bytes = some (d, [])) ∧
      (∃ code bytes, s'.code = .ok code ∧ bytes? code = some bytes ∧ decodeOne opcodes bytes = some (d', [])) ∧
      ¬ d.parts.Holds s.operands ∧ d'.parts.Holds s'.operands := by
  intro source
  obtain ⟨session, hcreate⟩ : ∃ session, create {} false {} = .ok session := ⟨_, rfl⟩
  have hrun :
      let final : Assembly := ((assembleText source "two.asm").after session).assembly
      ((assembleText source "two.asm").value? session).join.isSome = true ∧ final.errors.warnings = [] ∧
      (∃ s ∈ final.statements, ∃ i ∈ s.instruction?, i.opcode.mnemonic = "SHIFTL" ∧
        s.operands = [.register "A", .integer 20]) ∧
      ∃ s ∈ final.statements, ∃ i ∈ s.instruction?, i.opcode.mnemonic = "LDA" ∧ s.operands = [.integer (-1)] := by
    cases hcreate
    decide +kernel
  obtain ⟨hsome, hquiet, ⟨s, hs, i, hi, hname, ho⟩, s', hs', i', hi', hname', ho'⟩ := hrun
  obtain ⟨text, h⟩ := exists_text hsome
  obtain ⟨code, bytes, d, hcode, hbytes, hd, hm, -, hiff⟩ :=
    assembleText_lossless_iff h hquiet hs (Statement.instruction?_eq_some.mp hi)
  obtain ⟨code', bytes', d', hcode', hbytes', hd', hm', -, hiff'⟩ :=
    assembleText_lossless_iff h hquiet hs' (Statement.instruction?_eq_some.mp hi')
  refine ⟨session, _, text, s, s', d, d', hcreate, h, hquiet, hs, hs', ho, ho', hm.trans hname, hm'.trans hname',
    ⟨code, bytes, hcode, hbytes, hd⟩, ⟨code', bytes', hcode', hbytes', hd'⟩, fun hholds => ?_, hiff'.mpr ?_⟩
  · have hlimit := (hiff.mp hholds).shift (.inl hname) 20 (by rw [ho]; rfl)
    omega
  · refine ⟨fun hshift => by simp [hname'] at hshift, fun hservice => by simp [hname'] at hservice, ?_⟩
    intro _ value hvalue
    rw [ho'] at hvalue
    cases hvalue
    decide

/-- A shift count and an extended address are cut to their fields, and nothing warns of it. -/
theorem exists_lost_operand :
    let source := "P       START  0\n        SHIFTL A,20\n        +LDA   1048576\n"
    ∃ session session', create {} false {} = .ok session ∧
      assembleText source "<string>" session =
        .ok (some "HP     000000000006\nT00000006A40400100000\nE000000\n") session' ∧
      session'.assembly.errors.warnings = [] ∧
      (∃ s ∈ session'.assembly.statements, s.operands = [.register "A", .integer 20] ∧
        s.code = .ok "A404".toList) ∧
      (∃ s ∈ session'.assembly.statements, s.operands = [.integer 1048576] ∧ s.code = .ok "00100000".toList) ∧
      decodeOne opcodes [0xA4, 0x04] = some (⟨"SHIFTL", 2, .registers 0 4⟩, []) ∧
      decodeOne opcodes [0x00, 0x10, 0x00, 0x00] =
        some (⟨"LDA", 4, .memory 0 false false false true 0⟩, []) := by
  intro source
  obtain ⟨session, hcreate⟩ : ∃ session, create {} false {} = .ok session := ⟨_, rfl⟩
  have hrun :
      let final : Assembly := ((assembleText source "<string>").after session).assembly
      (assembleText source "<string>").value? session =
        some (some "HP     000000000006\nT00000006A40400100000\nE000000\n") ∧ final.errors.warnings = [] ∧
      (∃ s ∈ final.statements, s.operands = [.register "A", .integer 20] ∧ s.code = .ok "A404".toList) ∧
      ∃ s ∈ final.statements, s.operands = [.integer 1048576] ∧ s.code = .ok "00100000".toList := by
    cases hcreate
    decide +kernel
  obtain ⟨htext, hquiet, hshift, hload⟩ := hrun
  exact ⟨session, _, hcreate, Action.eq_ok_of_value? htext, hquiet, hshift, hload, by decide +kernel,
    by decide +kernel⟩

end Session

end TwoPass
