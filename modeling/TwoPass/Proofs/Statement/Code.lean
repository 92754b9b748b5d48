import TwoPass.Proofs.Statement.WellFormed
import TwoPass.Proofs.Text.Hexadecimal

/-!
Size and object code agree: a well-formed statement has both, and the code is as long as the size says.
The size comes from tables and kinds of operand, the code from fields and masks, so each field is shown to
keep its width whatever value goes into it.
-/

namespace TwoPass

open Text (IsHex isHex_hexNat)

/-! ## Fields of an instruction -/

theorem Opcode.code_lt {op : Opcode} (h : op ∈ opcodes) : op.code < 256 := by
  have hall : ∀ op ∈ opcodes, op.code < 256 := by decide
  exact hall op h

theorem Opcode.format_cases {op : Opcode} {format : Int} (h : op ∈ opcodes) (hf : format ∈ op.formats) :
    format = 1 ∨ format = 2 ∨ format = 3 ∨ format = 4 := by
  have hall : ∀ op ∈ opcodes, ∀ format ∈ op.formats,
      format = 1 ∨ format = 2 ∨ format = 3 ∨ format = 4 := by decide
  exact hall op h format hf

theorem registerNumber?_lt {name : String} {n : Nat} (h : registerNumber? name = some n) : n < 16 := by
  have hall : ∀ entry ∈ registers, entry.2 < 16 := by decide
  obtain ⟨l₁, l₂, hl, _⟩ := List.lookup_eq_some_iff.mp h
  exact hall (Text.upper name, n) (by rw [hl]; simp)

namespace Instruction

theorem addressingBits_lt (i : Instruction) : i.addressingBits < 4 := by
  unfold addressingBits
  split
  · decide
  · split
    · decide
    · split <;> decide

theorem opcodeByte_lt {i : Instruction} (h : i.opcode ∈ opcodes) : i.opcodeByte < 256 := by
  have hc := Opcode.code_lt h
  have hb := i.addressingBits_lt
  unfold opcodeByte
  omega

theorem addressFlags_lt (i : Instruction) : i.addressFlags < 16 := by
  have h (b : Bool) : b.toNat ≤ 1 := Bool.toNat_le b
  have hx := h i.flags.indexed
  have hb := h i.flags.baseRelative
  have hp := h i.flags.pcRelative
  have he := h i.flags.extended
  unfold addressFlags
  omega

theorem nibble_spec (use : RegisterUse) {o : Operand} (h : o.IsAddress) :
    ∃ n, nibble use o = .ok n ∧ n < 16 := by
  cases o with
  | integer value => exact ⟨_, rfl, by have := Int.emod_lt_of_pos value (b := 16) (by decide); omega⟩
  | symbol name => exact ⟨0, rfl, by decide⟩
  | register name =>
      obtain ⟨n, hn⟩ := Option.isSome_iff_exists.mp h
      exact ⟨n, by simp only [nibble, hn], registerNumber?_lt hn⟩
  | characters bytes => exact h.elim
  | hexadecimal value => exact h.elim

theorem nibbles_spec {operands : List Operand} (h : ∀ o ∈ operands, o.IsAddress) :
    ∃ m n, nibbles operands = .ok (m, n) ∧ m < 16 ∧ n < 16 := by
  match operands with
  | [] => exact ⟨0, 0, rfl, by decide, by decide⟩
  | [first] =>
      obtain ⟨m, hm, hlt⟩ := nibble_spec .upperHalf (h first (by simp))
      exact ⟨m, 0, by simp only [nibbles, hm]; rfl, hlt, by decide⟩
  | first :: second :: rest =>
      obtain ⟨m, hm, hlt⟩ := nibble_spec .upperHalf (h first (by simp))
      obtain ⟨n, hn, hlt'⟩ := nibble_spec .lowerHalf (h second (by simp))
      exact ⟨m, n, by simp only [nibbles, hm, hn]; rfl, hlt, hlt'⟩

theorem address?_spec (i : Instruction) {operands : List Operand} (h : ∀ o ∈ operands, o.IsAddress) :
    ∃ address, i.address? operands = some address := by
  unfold address?
  split
  · exact ⟨_, rfl⟩
  · match operands with
    | [] => exact ⟨0, rfl⟩
    | .integer value :: _ => exact ⟨value, rfl⟩
    | .symbol _ :: _ => exact ⟨0, rfl⟩
    | .register name :: _ =>
        obtain ⟨n, hn⟩ := Option.isSome_iff_exists.mp (h (.register name) (by simp))
        exact ⟨n, by simp [target?, hn]⟩
    | .characters bytes :: _ => exact (h (.characters bytes) (by simp)).elim
    | .hexadecimal value :: _ => exact (h (.hexadecimal value) (by simp)).elim

/-- Whatever goes into the address field, it is cut to the width of the field. -/
theorem isHex_field (digits : Nat) (hd : 0 < digits) (address : Int) :
    IsHex digits (Text.hexNat digits (address % Nat.pow 16 digits).toNat) := by
  refine isHex_hexNat hd ?_
  have hpos : 0 < Nat.pow 16 digits := Nat.pow_pos (by decide)
  have hlt := Int.emod_lt_of_pos address (by omega : (0 : Int) < Nat.pow 16 digits)
  have hnn := Int.emod_nonneg address (by omega : (Nat.pow 16 digits : Int) ≠ 0)
  omega

theorem size_of_format {i : Instruction} {n : Nat} (h : formatSizes.lookup i.format = some n) :
    i.size = .ok n := by
  simp only [size, h]

theorem code_three {i : Instruction} {operands : List Operand} {address : Int} (hf : i.format = 3)
    (ha : i.address? operands = some address) :
    i.code operands = .ok (Text.hexNat 2 i.opcodeByte ++ Text.hexNat 1 i.addressFlags
      ++ Text.hexNat 3 (address % Nat.pow 16 3).toNat) := by
  simp only [code, hf, addressDigits, ha]

theorem code_four {i : Instruction} {operands : List Operand} {address : Int} (hf : i.format = 4)
    (ha : i.address? operands = some address) :
    i.code operands = .ok (Text.hexNat 2 i.opcodeByte ++ Text.hexNat 1 i.addressFlags
      ++ Text.hexNat 5 (address % Nat.pow 16 5).toNat) := by
  simp only [code, hf, addressDigits, ha]

theorem size_code {i : Instruction} {operands : List Operand} (h : i.WellFormed operands) :
    ∃ n code, i.size = .ok n ∧ i.code operands = .ok code ∧ IsHex (2 * n) code := by
  have hop : IsHex 2 (Text.hexNat 2 i.opcode.code) := isHex_hexNat (by decide) (Opcode.code_lt h.opcode)
  have hbyte : IsHex 2 (Text.hexNat 2 i.opcodeByte) := isHex_hexNat (by decide) (opcodeByte_lt h.opcode)
  have hflags : IsHex 1 (Text.hexNat 1 i.addressFlags) := isHex_hexNat (by decide) i.addressFlags_lt
  obtain ⟨address, ha⟩ := i.address?_spec h.operands
  rcases Opcode.format_cases h.opcode h.format with hf | hf | hf | hf
  · exact ⟨1, _, size_of_format (by rw [hf]; rfl), by simp only [code, hf], hop⟩
  · obtain ⟨m, n, hmn, hm, hn⟩ := nibbles_spec h.operands
    have hm : IsHex 1 (Text.hexNat 1 m) := isHex_hexNat (by decide) hm
    have hn : IsHex 1 (Text.hexNat 1 n) := isHex_hexNat (by decide) hn
    exact ⟨2, _, size_of_format (by rw [hf]; rfl), by simp only [code, hf, hmn],
      (hop.append hm).append hn⟩
  · have hfield := isHex_field 3 (by decide) address
    exact ⟨3, _, size_of_format (by rw [hf]; rfl), code_three hf ha, (hbyte.append hflags).append hfield⟩
  · have hfield := isHex_field 5 (by decide) address
    exact ⟨4, _, size_of_format (by rw [hf]; rfl), code_four hf ha, (hbyte.append hflags).append hfield⟩

end Instruction

/-! ## Data -/

namespace Directive

theorem isHex_bytes (bytes : List UInt8) :
    IsHex (2 * bytes.length) (bytes.flatMap fun b => Text.hexNat 2 b.toNat) := by
  induction bytes with
  | nil => exact ⟨rfl, by simp⟩
  | cons b rest ih =>
      have hb : IsHex 2 (Text.hexNat 2 b.toNat) := isHex_hexNat (by decide) b.toNat_lt
      rw [List.flatMap_cons, List.length_cons, show 2 * (rest.length + 1) = 2 + 2 * rest.length by omega]
      exact hb.append ih

theorem isHex_zeros (width : Nat) : IsHex (2 * width) (List.replicate (2 * width) '0') := by
  refine ⟨List.length_replicate, ?_⟩
  intro c hc
  rw [List.eq_of_mem_replicate hc]
  decide

theorem isHex_valueCode {width : Nat} (hw : 0 < width) (value : Int) :
    IsHex (2 * width) (valueCode width value) := by
  have hp : Nat.pow 256 width = Nat.pow 16 (2 * width) := (Nat.pow_mul 16 2 width).symm
  unfold valueCode
  rw [hp]
  exact Instruction.isHex_field (2 * width) (by omega) value

theorem data_spec {width : Nat} (hw : 0 < width) {literal : Operand} (h : literal.IsLiteral) :
    ∃ n code, dataSize width [literal] = .ok n ∧ dataCode width [literal] = .ok code ∧
      IsHex (2 * n) code := by
  cases literal with
  | integer value => exact ⟨width, _, rfl, rfl, isHex_valueCode hw value⟩
  | register name => exact h.elim
  | symbol name => exact ⟨width, _, rfl, rfl, isHex_zeros width⟩
  | characters bytes => exact ⟨bytes.length, _, rfl, rfl, isHex_bytes bytes⟩
  | hexadecimal value => exact ⟨width, _, rfl, rfl, isHex_valueCode hw value⟩

theorem size_code {d : Directive} {value : Nat} {operands : List Operand}
    (h : d.WellFormed value operands) :
    ∃ n code, d.size value operands = .ok n ∧ d.code operands = .ok code ∧
      if d.isData then IsHex (2 * n) code else code = [] := by
  cases d with
  | byte => obtain ⟨literal, rfl, hl⟩ := h; exact data_spec (by decide) hl
  | word => obtain ⟨literal, rfl, hl⟩ := h; exact data_spec (by decide) hl
  | _ => exact ⟨_, _, rfl, rfl, rfl⟩

end Directive

/-! ## Statements -/

namespace Statement

/-- Instructions and data are emitted; all else has no code. -/
def isEmitted (s : Statement) : Bool :=
  match s.body with
  | .instruction _ => true
  | .directive d _ => d.isData
  | .remark => false

theorem size_code {s : Statement} (h : s.WellFormed) :
    ∃ n code, s.size = .ok n ∧ s.code = .ok code ∧
      if s.isEmitted then IsHex (2 * n) code else code = [] := by
  cases hb : s.body with
  | instruction i =>
      simp only [WellFormed, hb] at h
      simpa [size, code, isEmitted, hb] using Instruction.size_code h
  | directive d value =>
      simp only [WellFormed, hb] at h
      simpa only [size, code, isEmitted, hb] using Directive.size_code h
  | remark => exact ⟨0, [], by simp [size, hb], by simp [code, hb], by simp [isEmitted, hb]⟩

theorem WellFormed.even_code {s : Statement} (h : s.WellFormed) :
    ∃ code, s.code = .ok code ∧ code.length % 2 = 0 := by
  obtain ⟨n, code, -, hcode, hhex⟩ := size_code h
  refine ⟨code, hcode, ?_⟩
  split at hhex
  · rw [hhex.length]; omega
  · rw [hhex]; rfl

theorem WellFormed.exists_size {s : Statement} (h : s.WellFormed) : ∃ n, s.size = .ok n := by
  obtain ⟨n, _, hn, _⟩ := size_code h
  exact ⟨n, hn⟩

end Statement

end TwoPass
