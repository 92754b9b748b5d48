import TwoPass.Proofs.Object.Image
import TwoPass.Proofs.Statement.Code

/-!
How the machine reads a three-byte instruction: six bits of opcode, the addressing bits `n` and `i`, the
flags `x`, `b`, `p` and `e`, and a displacement of twelve bits. The code of an instruction is read back as the
flags and the address it was made of.
-/

namespace TwoPass

open Text (hexValue?_upperDigit hexNat_one hexNat_two hexNat_three upperDigit)

/-- The value of a byte given by its two digits. -/
def byteValue? (byte : Char × Char) : Option Nat :=
  match Text.hexValue? byte.1, Text.hexValue? byte.2 with
  | some high, some low => some (16 * high + low)
  | _, _ => none

/-- A three-byte instruction in the machine. -/
structure Fetched where
  /-- Opcode and addressing bits. -/
  operation : Nat
  /-- Flags and displacement. -/
  field : Nat
  deriving DecidableEq, Repr

namespace Fetched

def ofBytes? : List (Char × Char) → Option Fetched
  | [first, second, third] =>
    match byteValue? first, byteValue? second, byteValue? third with
    | some first, some second, some third => some ⟨first, 256 * second + third⟩
    | _, _, _ => none
  | _ => none

def isPcRelative (f : Fetched) : Bool :=
  f.field.testBit 13

def isBaseRelative (f : Fetched) : Bool :=
  f.field.testBit 14

def displacement (f : Fetched) : Nat :=
  f.field % 4096

/-- Twelve bits in two's complement. -/
def signed (n : Nat) : Int :=
  if n < 2048 then n else n - 4096

/-- The instruction at `offset` leads to `address` while the base register holds `base`. -/
structure Reaches (f : Fetched) (offset : Int) (base : Option Int) (address : Int) : Prop where
  oneFlag : ¬(f.isPcRelative = true ∧ f.isBaseRelative = true)
  pcRelative : f.isPcRelative = true → signed f.displacement + offset + 3 = address
  baseRelative : f.isBaseRelative = true → ∃ b, base = some b ∧ f.displacement + b = address
  direct : f.isPcRelative = false → f.isBaseRelative = false → f.displacement = address

theorem signed_emod {n : Int} (hlow : -2048 ≤ n) (hhigh : n < 2048) : signed (n % 4096).toNat = n := by
  unfold signed
  split <;> omega

end Fetched

theorem byteValue?_upperDigit {m n : Nat} (hm : m < 16) (hn : n < 16) :
    byteValue? (upperDigit m, upperDigit n) = some (16 * m + n) := by
  simp only [byteValue?, hexValue?_upperDigit hm, hexValue?_upperDigit hn]

namespace Instruction

variable {i : Instruction} {operands : List Operand} {address : Int}

theorem ofBytes?_code (hop : i.opcode ∈ opcodes) (hf : i.format = 3)
    (ha : i.address? operands = some address) :
    ∃ code, i.code operands = .ok code ∧
      Fetched.ofBytes? (byteDigits code) =
        some ⟨i.opcodeByte, 4096 * i.addressFlags + (address % 4096).toNat⟩ := by
  have hd : (address % 4096).toNat < 4096 := by omega
  have hb := opcodeByte_lt hop
  have hx := i.addressFlags_lt
  refine ⟨_, code_three hf ha, ?_⟩
  rw [hexNat_two hb, hexNat_one hx, show (Nat.pow 16 3 : Int) = 4096 by rfl, hexNat_three hd]
  simp only [List.cons_append, List.nil_append, byteDigits, Fetched.ofBytes?]
  rw [byteValue?_upperDigit (by omega) (by omega), byteValue?_upperDigit (by omega) (by omega),
    byteValue?_upperDigit (by omega) (by omega)]
  simp only [Option.some.injEq, Fetched.mk.injEq]
  omega

theorem fetched_fields {operation n : Nat} (hn : n < 4096) :
    let f : Fetched := ⟨operation, 4096 * i.addressFlags + n⟩
    f.isPcRelative = i.flags.pcRelative ∧ f.isBaseRelative = i.flags.baseRelative ∧ f.displacement = n := by
  have hx := Bool.toNat_le i.flags.indexed
  have he := Bool.toNat_le i.flags.extended
  refine ⟨?_, ?_, ?_⟩
  · rw [Fetched.isPcRelative, Nat.testBit_eq_decide_div_mod_eq, addressFlags]
    have hb := Bool.toNat_le i.flags.baseRelative
    cases i.flags.pcRelative <;> simp only [Bool.toNat_false, Bool.toNat_true, decide_eq_true_eq,
      decide_eq_false_iff_not] <;> omega
  · rw [Fetched.isBaseRelative, Nat.testBit_eq_decide_div_mod_eq, addressFlags]
    have hp := Bool.toNat_le i.flags.pcRelative
    cases i.flags.baseRelative <;> simp only [Bool.toNat_false, Bool.toNat_true, decide_eq_true_eq,
      decide_eq_false_iff_not] <;> omega
  · simp only [Fetched.displacement]
    omega

/-- The flags of an instruction and its address, as the machine reads them back. -/
theorem exists_fetched (hop : i.opcode ∈ opcodes) (hf : i.format = 3)
    (ha : i.address? operands = some address) :
    ∃ code f, i.code operands = .ok code ∧ Fetched.ofBytes? (byteDigits code) = some f ∧
      f.isPcRelative = i.flags.pcRelative ∧ f.isBaseRelative = i.flags.baseRelative ∧
      f.displacement = (address % 4096).toNat := by
  obtain ⟨code, hcode, hbytes⟩ := ofBytes?_code hop hf ha
  exact ⟨code, _, hcode, hbytes, fetched_fields (by omega)⟩

end Instruction

end TwoPass
