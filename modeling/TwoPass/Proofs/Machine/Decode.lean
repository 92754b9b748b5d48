import TwoPass.Proofs.Assembly.Completion
import TwoPass.Proofs.Text.LetterCase

/-!
Reading object code back. The six high bits of the first byte pick an entry of the opcode table, the entry and
the bit `e` give the format, and the format gives the length, so a stream of instructions falls apart into
its instructions without any mark between them.
-/

namespace TwoPass

open Text (hexNat_one hexNat_two hexNat_three hexNat_five upperDigit)

/-! ## The decoder -/

namespace Decoded

/-- What stands behind the opcode. -/
inductive Parts
  | bare
  | registers (first second : Nat)
  | memory (addressing : Nat) (indexed baseRelative pcRelative extended : Bool) (address : Nat)
  deriving DecidableEq, Repr

/-- The bits `n` and `i` of the first byte and `x`, `b`, `p` and `e` of the second, with an address. -/
def Parts.ofBytes (first second address : Nat) : Parts :=
  .memory (first % 4) (second.testBit 7) (second.testBit 6) (second.testBit 5) (second.testBit 4) address

end Decoded

/-- An instruction as its bytes tell it. -/
structure Decoded where
  mnemonic : String
  format : Int
  parts : Decoded.Parts
  deriving DecidableEq, Repr

/-- The only format of an opcode, or else what the bit `e` of the second byte says. -/
def decodedFormat (opcode : Opcode) (second : Nat) : Int :=
  match opcode.formats with
  | [format] => format
  | _ => if second.testBit 4 then 4 else 3

/-- The instruction at the front of some bytes, and the bytes behind it. -/
def decodeOne (table : List Opcode) : List Nat → Option (Decoded × List Nat)
  | [] => none
  | first :: rest =>
    match table.find? (·.code / 4 == first / 4) with
    | none => none
    | some opcode =>
      match decodedFormat opcode (rest.headD 0), rest with
      | 1, rest => some (⟨opcode.mnemonic, 1, .bare⟩, rest)
      | 2, second :: rest => some (⟨opcode.mnemonic, 2, .registers (second / 16) (second % 16)⟩, rest)
      | 3, second :: third :: rest =>
        some (⟨opcode.mnemonic, 3, .ofBytes first second (second % 16 * 256 + third)⟩, rest)
      | 4, second :: third :: fourth :: rest =>
        some (⟨opcode.mnemonic, 4, .ofBytes first second (second % 16 * 65536 + third * 256 + fourth)⟩, rest)
      | _, _ => none

theorem decodeOne_length {table : List Opcode} {bytes rest : List Nat} {d : Decoded}
    (h : decodeOne table bytes = some (d, rest)) : rest.length < bytes.length := by
  unfold decodeOne at h
  split at h
  · cases h
  · split at h
    · cases h
    · split at h <;> cases h <;> simp only [List.length_cons] <;> omega

/-- All instructions of a stream of bytes. -/
def decode (table : List Opcode) (bytes : List Nat) : Option (List Decoded) :=
  if bytes = [] then
    some []
  else
    match _h : decodeOne table bytes with
    | none => none
    | some (d, rest) => (decode table rest).map (d :: ·)
termination_by bytes.length
decreasing_by exact decodeOne_length _h

theorem decode_of_decodeOne {table : List Opcode} {bytes rest : List Nat} {d : Decoded}
    (h : decodeOne table bytes = some (d, rest)) : decode table bytes = (decode table rest).map (d :: ·) := by
  have hne : bytes ≠ [] := by rintro rfl; cases h
  rw [decode, if_neg hne]
  split
  · rename_i hnone; rw [h] at hnone; cases hnone
  · rename_i hsome; rw [h] at hsome; cases hsome; rfl

/-! ## Digits as bytes -/

/-- The values of the bytes that object code spells out. -/
def bytes? (code : List Char) : Option (List Nat) :=
  (byteDigits code).mapM byteValue?

theorem bytes?_append {xs : List Char} (h : xs.length % 2 = 0) (ys : List Char) :
    bytes? (xs ++ ys) = (bytes? xs).bind fun bytes => (bytes? ys).map (bytes ++ ·) := by
  unfold bytes?
  rw [byteDigits_append xs h, List.mapM_append]
  cases (byteDigits xs).mapM byteValue? <;> cases (byteDigits ys).mapM byteValue? <;> rfl

theorem bytes?_digits {m n : Nat} (hm : m < 16) (hn : n < 16) (rest : List Char) :
    bytes? (upperDigit m :: upperDigit n :: rest) = (bytes? rest).map ((16 * m + n) :: ·) := by
  unfold bytes?
  rw [byteDigits, List.mapM_cons, byteValue?_upperDigit hm hn]
  cases (byteDigits rest).mapM byteValue? <;> rfl

/-! ## Legible code -/

/-- A decoder in front of the code reads `d`, whatever comes behind the code. -/
structure Legible (code : List Char) (bytes : List Nat) (d : Decoded) : Prop where
  spelled : bytes? code = some bytes
  decoded : ∀ rest, decodeOne opcodes (bytes ++ rest) = some (d, rest)

/-- Code at the front of other code reads the same as the other. -/
theorem Legible.eq_of_prefix {code code' : List Char} {bytes bytes' : List Nat} {d d' : Decoded}
    (h : Legible code bytes d) (h' : Legible code' bytes' d') (he : code.length % 2 = 0)
    (hp : code <+: code') : d = d' := by
  obtain ⟨tail, rfl⟩ := hp
  have hs := h'.spelled
  rw [bytes?_append he, h.spelled, Option.bind_some, Option.map_eq_some_iff] at hs
  obtain ⟨more, -, rfl⟩ := hs
  have hfront := h.decoded more
  have hwhole := h'.decoded []
  rw [List.append_nil, hfront, Option.some.injEq, Prod.mk.injEq] at hwhole
  exact hwhole.1

/-! ## One instruction -/

theorem testBit_of_div {n k : Nat} {b : Bool} (h : n / 2 ^ k % 2 = b.toNat) : n.testBit k = b := by
  rw [Nat.testBit_eq_decide_div_mod_eq, h]
  cases b <;> rfl

/-- No two entries of the table share their six high bits. -/
theorem Opcode.find?_code {op : Opcode} (h : op ∈ opcodes) {byte : Nat} (hb : byte / 4 = op.code / 4) :
    opcodes.find? (·.code / 4 == byte / 4) = some op := by
  have hall : ∀ op ∈ opcodes, opcodes.find? (·.code / 4 == op.code / 4) = some op := by decide +kernel
  rw [hb]
  exact hall op h

namespace Instruction

/-- How many addresses the address field can tell apart. -/
def addressRange (i : Instruction) : Nat :=
  if i.format = 4 then 1048576 else 4096

def memoryParts (i : Instruction) (address : Nat) : Decoded.Parts :=
  .memory i.addressingBits i.flags.indexed i.flags.baseRelative i.flags.pcRelative i.flags.extended address

/-- What a decoder has to find behind the opcode. -/
def parts? (i : Instruction) (operands : List Operand) : Option Decoded.Parts :=
  match i.format with
  | 1 => some .bare
  | 2 => (nibbles operands).toOption.map fun (first, second) => .registers first second
  | _ => (i.address? operands).map fun address : Int => i.memoryParts (address % i.addressRange).toNat

/-- The instruction has code, which reads as its mnemonic, its format and its parts. -/
def IsLegible (i : Instruction) (operands : List Operand) : Prop :=
  ∃ code bytes parts, i.code operands = .ok code ∧ i.parts? operands = some parts ∧
    Legible code bytes ⟨i.opcode.mnemonic, i.format, parts⟩

variable {i : Instruction} {operands : List Operand}

theorem addressFlags_bits (i : Instruction) {k : Nat} (hk : k < 16) :
    let second := 16 * i.addressFlags + k
    second.testBit 7 = i.flags.indexed ∧ second.testBit 6 = i.flags.baseRelative ∧
      second.testBit 5 = i.flags.pcRelative ∧ second.testBit 4 = i.flags.extended := by
  have hx := Bool.toNat_le i.flags.indexed
  have hb := Bool.toNat_le i.flags.baseRelative
  have hp := Bool.toNat_le i.flags.pcRelative
  have he := Bool.toNat_le i.flags.extended
  unfold addressFlags
  refine ⟨testBit_of_div ?_, testBit_of_div ?_, testBit_of_div ?_, testBit_of_div ?_⟩
  all_goals omega

theorem decodedFormat_eq (h : i.WellFormed operands) (second : Nat)
    (he : i.format = 3 ∨ i.format = 4 → second.testBit 4 = i.flags.extended) :
    decodedFormat i.opcode second = i.format := by
  have hall : ∀ op ∈ opcodes, op.formats = [1] ∨ op.formats = [2] ∨ op.formats = [3, 4] := by decide
  have hf := h.format
  rcases hall i.opcode h.opcode with hl | hl | hl
  · rw [hl, List.mem_singleton] at hf
    simp only [decodedFormat, hl, hf]
  · rw [hl, List.mem_singleton] at hf
    simp only [decodedFormat, hl, hf]
  -- Only references to memory have two formats, and for these the bit `e` tells which.
  · rw [hl, List.mem_pair] at hf
    simp only [decodedFormat, hl, he hf, h.extended]
    rcases hf with hf | hf
    · rw [hf, if_neg (by decide)]
    · rw [hf, if_pos rfl]

theorem opcodeByte_div (i : Instruction) : i.opcodeByte / 4 = i.opcode.code / 4 := by
  have := i.addressingBits_lt
  unfold opcodeByte
  omega

theorem opcodeByte_mod (i : Instruction) : i.opcodeByte % 4 = i.addressingBits := by
  have := i.addressingBits_lt
  unfold opcodeByte
  omega

theorem ofBytes_eq (i : Instruction) {k : Nat} (hk : k < 16) (address : Nat) :
    Decoded.Parts.ofBytes i.opcodeByte (16 * i.addressFlags + k) address = i.memoryParts address := by
  obtain ⟨hx, hb, hp, he⟩ := i.addressFlags_bits hk
  rw [Decoded.Parts.ofBytes, opcodeByte_mod, hx, hb, hp, he, memoryParts]

theorem legible_one (h : i.WellFormed operands) (hf : i.format = 1) : i.IsLegible operands := by
  have hc := Opcode.code_lt h.opcode
  refine ⟨Text.hexNat 2 i.opcode.code, [i.opcode.code], .bare, by simp only [code, hf],
    by simp only [parts?, hf], ?_, fun rest => ?_⟩
  · rw [hexNat_two hc, bytes?_digits (by omega) (by omega), Nat.div_add_mod]
    rfl
  · have hformat := decodedFormat_eq h (rest.headD 0) (by simp [hf])
    rw [List.singleton_append, decodeOne, Opcode.find?_code h.opcode rfl]
    simp only [hformat, hf]

theorem legible_two (h : i.WellFormed operands) (hf : i.format = 2) : i.IsLegible operands := by
  have hc := Opcode.code_lt h.opcode
  obtain ⟨m, n, hmn, hm, hn⟩ := nibbles_spec h.operands
  refine ⟨Text.hexNat 2 i.opcode.code ++ Text.hexNat 1 m ++ Text.hexNat 1 n, [i.opcode.code, 16 * m + n],
    .registers m n, by simp only [code, hf, hmn], ?_, ?_, fun rest => ?_⟩
  · simp only [parts?, hf, hmn, Except.toOption, Option.map_some]
  · rw [hexNat_two hc, hexNat_one hm, hexNat_one hn]
    simp only [List.cons_append, List.nil_append]
    rw [bytes?_digits (by omega) (by omega), bytes?_digits hm hn, Nat.div_add_mod]
    rfl
  · have hformat := decodedFormat_eq h (16 * m + n) (by simp [hf])
    rw [List.cons_append, decodeOne, Opcode.find?_code h.opcode rfl]
    simp only [List.singleton_append, List.headD_cons, hformat, hf]
    rw [show (16 * m + n) / 16 = m by omega, show (16 * m + n) % 16 = n by omega]

theorem legible_three (h : i.WellFormed operands) (hf : i.format = 3) : i.IsLegible operands := by
  have hb := opcodeByte_lt h.opcode
  have hx := i.addressFlags_lt
  obtain ⟨address, ha⟩ := i.address?_spec h.operands
  obtain ⟨n, hn⟩ : ∃ n, (address % 4096).toNat = n := ⟨_, rfl⟩
  have hlt : n < 4096 := by omega
  have hk : n / 256 < 16 := by omega
  refine ⟨_, [i.opcodeByte, 16 * i.addressFlags + n / 256, n % 256], i.memoryParts n, code_three hf ha, ?_, ?_,
    fun rest => ?_⟩
  · simp only [parts?, hf, ha, Option.map_some, addressRange, ← hn]
    rfl
  · rw [hexNat_two hb, hexNat_one hx, show (Nat.pow 16 3 : Int) = 4096 by rfl, hn, hexNat_three hlt]
    simp only [List.cons_append, List.nil_append]
    rw [bytes?_digits (by omega) (by omega), bytes?_digits hx hk, bytes?_digits (by omega) (by omega),
      Nat.div_add_mod, show 16 * (n / 16 % 16) + n % 16 = n % 256 by omega]
    rfl
  · have hformat := decodedFormat_eq h _ fun _ => (i.addressFlags_bits hk).2.2.2
    rw [List.cons_append, decodeOne, Opcode.find?_code h.opcode i.opcodeByte_div]
    simp only [List.cons_append, List.nil_append, List.headD_cons, hformat, hf, i.ofBytes_eq hk]
    rw [show (16 * i.addressFlags + n / 256) % 16 * 256 + n % 256 = n by omega]

theorem legible_four (h : i.WellFormed operands) (hf : i.format = 4) : i.IsLegible operands := by
  have hb := opcodeByte_lt h.opcode
  have hx := i.addressFlags_lt
  obtain ⟨address, ha⟩ := i.address?_spec h.operands
  obtain ⟨n, hn⟩ : ∃ n, (address % 1048576).toNat = n := ⟨_, rfl⟩
  have hlt : n < 1048576 := by omega
  have hk : n / 65536 < 16 := by omega
  refine ⟨_, [i.opcodeByte, 16 * i.addressFlags + n / 65536, n / 256 % 256, n % 256], i.memoryParts n,
    code_four hf ha, ?_, ?_, fun rest => ?_⟩
  · simp only [parts?, hf, ha, Option.map_some, addressRange, ← hn]
    rfl
  · rw [hexNat_two hb, hexNat_one hx, show (Nat.pow 16 5 : Int) = 1048576 by rfl, hn, hexNat_five hlt]
    simp only [List.cons_append, List.nil_append]
    rw [bytes?_digits (by omega) (by omega), bytes?_digits hx hk, bytes?_digits (by omega) (by omega),
      bytes?_digits (by omega) (by omega), Nat.div_add_mod,
      show 16 * (n / 4096 % 16) + n / 256 % 16 = n / 256 % 256 by omega,
      show 16 * (n / 16 % 16) + n % 16 = n % 256 by omega]
    rfl
  · have hformat := decodedFormat_eq h _ fun _ => (i.addressFlags_bits hk).2.2.2
    rw [List.cons_append, decodeOne, Opcode.find?_code h.opcode i.opcodeByte_div]
    simp only [List.cons_append, List.nil_append, List.headD_cons, hformat, hf, i.ofBytes_eq hk]
    rw [show (16 * i.addressFlags + n / 65536) % 16 * 65536 + n / 256 % 256 * 256 + n % 256 = n by omega]

theorem WellFormed.legible (h : i.WellFormed operands) : i.IsLegible operands := by
  rcases Opcode.format_cases h.opcode h.format with hf | hf | hf | hf
  · exact legible_one h hf
  · exact legible_two h hf
  · exact legible_three h hf
  · exact legible_four h hf

end Instruction

/-! ## Mnemonics -/

namespace SourceLine

theorem toNat_lt_of_isNameChar {c : Char} (h : isNameChar c = true) : c.toNat < 128 := by
  simp only [isNameChar, Char.isAlphanum, Char.isAlpha, Char.isUpper, Char.isLower, Char.isDigit,
    Bool.or_eq_true, Bool.and_eq_true, decide_eq_true_eq, UInt32.le_iff_toNat_le] at h
  rw [Char.toNat]
  rcases h with ((h | h) | h) | rfl
  · exact Nat.lt_of_le_of_lt h.2 (by decide)
  · exact Nat.lt_of_le_of_lt h.2 (by decide)
  · exact Nat.lt_of_le_of_lt h.2 (by decide)
  · decide

theorem isNameChar_of_isName {cs : List Char} (h : isName cs = true) : ∀ c ∈ cs, isNameChar c = true := by
  unfold isName at h
  split at h
  · cases h
  · simp only [Bool.and_eq_true, isNameStart, Bool.or_eq_true, decide_eq_true_eq, List.all_eq_true] at h
    obtain ⟨hstart, hrest⟩ := h
    intro c hc
    rcases List.mem_cons.mp hc with rfl | hc
    · rcases hstart with hstart | hstart
      · simp [isNameChar, Char.isAlphanum, hstart]
      · simp [isNameChar, hstart]
    · exact hrest c hc

theorem toNat_lt_of_isOperator {cs : List Char} (h : isOperator cs = true) : ∀ c ∈ cs, c.toNat < 128 := by
  unfold isOperator at h
  split at h
  · intro c hc
    rcases List.mem_cons.mp hc with rfl | hc
    · decide
    · exact toNat_lt_of_isNameChar (isNameChar_of_isName h c hc)
  · exact fun c hc => toNat_lt_of_isNameChar (isNameChar_of_isName h c hc)

/-- The fields of a line stand in its columns. -/
theorem read_fields {file text whole : String} {line : Int} {fields : Fields}
    (h : read file line text = .ok (.code fields whole)) :
    ∃ label operator, label = Text.trim (Text.columns labelStart labelStop (expand text)) ∧
      operator = Text.trim (Text.columns operatorStart operatorStop (expand text)) ∧
      (label = [] ∨ isName label = true) ∧ isOperator operator = true ∧
      fields =
        { label := String.ofList (Text.upperChars label)
          operator := String.ofList (Text.upperChars operator)
          operand := String.ofList (Text.trim (Text.columns operandStart operandStop (expand text)))
          comment := String.ofList (Text.trim ((expand text).drop operandStop)) } := by
  simp only [read] at h
  split at h
  · cases h
  · split at h
    · cases h
    · rename_i hlabel
      split at h
      · cases h
      · rename_i hoperator
        simp only [Except.ok.injEq, code.injEq] at h
        simp only [Bool.and_eq_true, Bool.not_eq_true', List.isEmpty_eq_false_iff, not_and,
          Bool.not_eq_false] at hlabel hoperator
        exact ⟨_, _, rfl, rfl, or_iff_not_imp_left.mpr hlabel, hoperator, h.1.symm⟩

/-- Label and operator of a line are in upper case, and there may be no label. -/
theorem read_code {file text whole : String} {line : Int} {fields : Fields}
    (h : read file line text = .ok (.code fields whole)) :
    ∃ label operator, (label = [] ∨ isName label = true) ∧ isOperator operator = true ∧
      fields.label = String.ofList (Text.upperChars label) ∧
      fields.operator = String.ofList (Text.upperChars operator) := by
  obtain ⟨label, operator, -, -, hlabel, hoperator, rfl⟩ := read_fields h
  exact ⟨label, operator, hlabel, hoperator, rfl, rfl⟩

/-- An operator is in upper case as it is read. -/
theorem upper_operator {file text whole : String} {line : Int} {fields : Fields}
    (h : read file line text = .ok (.code fields whole)) :
    ∀ c ∈ fields.operator.toList, Text.upperChar c = [c] := by
  obtain ⟨-, operator, -, hoperator, -, heq⟩ := read_code h
  intro c hc
  rw [heq, String.toList_ofList, Text.upperChars, List.mem_flatMap] at hc
  obtain ⟨d, hd, hc⟩ := hc
  have hlt := toNat_lt_of_isOperator hoperator d hd
  rw [Text.upperChar, if_pos hlt, List.mem_singleton] at hc
  rw [hc]
  exact Text.upperChar_toUpper hlt

end SourceLine

namespace Statement

/-- A statement of a source line, as it is parsed or after any number of steps of the second pass. -/
inductive Derived : Statement → Prop
  | parse {file text : String} {line offset : Int} {s : Statement} :
      Statement.parse file text line offset = .ok s → Derived s
  | resolve {s : Statement} (table : SymbolTable) : Derived s → Derived (s.resolve table)
  | relocate {s : Statement} (base : Option Int) : Derived s → Derived (s.relocate base).statement

theorem parse_mnemonic {file text : String} {line offset : Int} {s : Statement} {i : Instruction}
    (h : parse file text line offset = .ok s) (hi : s.body = .instruction i) :
    s.mnemonic = i.opcode.mnemonic := by
  rcases parse_cases h with ⟨hremark, -⟩ | ⟨fields, whole, hread, -, hoperator, -, hinstruction⟩
  · rw [hi] at hremark
    cases hremark
  · obtain ⟨hname, -⟩ := hinstruction i hi
    have hfound := List.find?_some hname
    rw [beq_iff_eq, Text.upper, String.toList_ofList, Text.upperChars_eq_self] at hfound
    · rw [mnemonic, hoperator]
      exact hfound.symm
    · intro c hc
      exact SourceLine.upper_operator hread c (List.dropWhile_subset _ hc)

/-- What the bytes of an instruction have to tell. -/
def decoded? (s : Statement) : Option Decoded :=
  match s.body with
  | .instruction i => (i.parts? s.operands).map (⟨s.mnemonic, i.format, ·⟩)
  | _ => none

namespace Derived

variable {s : Statement} {i : Instruction}

theorem wellFormed (h : s.Derived) : s.WellFormed := by
  induction h with
  | parse h => exact (parse_parsed h).wellFormed
  | @resolve s table _ ih => exact (Revised.resolve s table).wellFormed ih
  | @relocate s base _ ih => exact (Revised.relocate s base).wellFormed ih

theorem mnemonic (h : s.Derived) (hi : s.body = .instruction i) : s.mnemonic = i.opcode.mnemonic := by
  induction h generalizing i with
  | parse h => exact parse_mnemonic h hi
  | @resolve s table _ ih =>
      have hframe := (Revised.resolve s table).frame
      rw [resolve_body] at hi
      rw [Statement.mnemonic, hframe]
      exact ih hi
  | @relocate s base _ ih =>
      rcases s.relocate_cases base with he | ⟨j, reach, hj, he⟩
      · rw [he] at hi ⊢
        exact ih hi
      · rw [he] at hi ⊢
        cases hi
        have hop : (j.withReach reach).opcode = j.opcode := by cases reach <;> rfl
        rw [hop]
        exact ih hj

theorem legible (h : s.Derived) (hi : s.instruction?.isSome = true) :
    ∃ code bytes d, s.code = .ok code ∧ code.length % 2 = 0 ∧ s.decoded? = some d ∧ Legible code bytes d := by
  obtain ⟨code, hcode, heven⟩ := h.wellFormed.even_code
  cases hb : s.body with
  | instruction i =>
      have hw := h.wellFormed
      simp only [Statement.WellFormed, hb] at hw
      obtain ⟨code', bytes, parts, hcode', hparts, hlegible⟩ := hw.legible
      rw [Statement.code, hb] at hcode
      cases hcode.symm.trans hcode'
      refine ⟨code, bytes, _, by rw [Statement.code, hb]; exact hcode, heven, ?_, hlegible⟩
      simp only [decoded?, hb, hparts, h.mnemonic hb, Option.map_some]
  | _ => simp [instruction?, hb] at hi

end Derived

/-- The code of a list of instructions falls apart into the code of each. -/
theorem exists_decoded {l : List Statement} (h : ∀ s ∈ l, s.Derived ∧ s.instruction?.isSome = true) :
    ∃ codes bytes decoded, l.mapM (·.code) = .ok codes ∧ bytes? codes.flatten = some bytes ∧
      l.mapM (·.decoded?) = some decoded ∧ decode opcodes bytes = some decoded := by
  induction l with
  | nil => exact ⟨[], [], [], rfl, rfl, rfl, by rw [decode, if_pos rfl]⟩
  | cons s rest ih =>
      obtain ⟨codes, bytes, decoded, hcodes, hbytes, hdecoded, hdecode⟩ := ih fun t ht => h t (by simp [ht])
      obtain ⟨hderived, hi⟩ := h s (by simp)
      obtain ⟨code, front, d, hcode, heven, hd, hlegible⟩ := hderived.legible hi
      refine ⟨code :: codes, front ++ bytes, d :: decoded, ?_, ?_, ?_, ?_⟩
      · rw [List.mapM_cons, hcode, hcodes]
        rfl
      · rw [List.flatten_cons, bytes?_append heven, hlegible.spelled, hbytes]
        rfl
      · rw [List.mapM_cons, hd, hdecoded]
        rfl
      · rw [decode_of_decodeOne (hlegible.decoded bytes), hdecode]
        rfl

/-- One decoder, which knows the opcode table and nothing else, reads any instructions back from the bytes of
their joined code; and code of one is at the front of code of another only if both read the same. -/
theorem decode_code {l : List Statement} (h : ∀ s ∈ l, s.Derived ∧ s.instruction?.isSome = true) :
    (∃ codes bytes decoded, l.mapM (·.code) = .ok codes ∧ bytes? codes.flatten = some bytes ∧
      l.mapM (·.decoded?) = some decoded ∧ decode opcodes bytes = some decoded) ∧
    ∀ s ∈ l, ∀ t ∈ l, ∀ code code', s.code = .ok code → t.code = .ok code' → s.decoded? ≠ t.decoded? →
      ¬code <+: code' := by
  refine ⟨exists_decoded h, ?_⟩
  intro s hs t ht code code' hcode hcode' hne hprefix
  obtain ⟨c, bytes, d, hc, heven, hd, hlegible⟩ := (h s hs).1.legible (h s hs).2
  obtain ⟨c', bytes', d', hc', -, hd', hlegible'⟩ := (h t ht).1.legible (h t ht).2
  cases hcode.symm.trans hc
  cases hcode'.symm.trans hc'
  have heq := hlegible.eq_of_prefix hlegible' heven hprefix
  exact hne (by rw [hd, hd', heq])

/-- All formats in a row, every instruction resolved and with a reach. -/
theorem decode_code_formats :
    let lines := ["        +JSUB  @BUF,X", "        SHIFTL T,4", "        FIX", "        STA    BUF"]
    let parsed := lines.filterMap fun text => (Statement.parse "p.asm" text 1 0).toOption
    let l := parsed.map fun s => ((s.resolve [⟨"BUF", 1, 7⟩]).relocate none).statement
    let bytes := [0x4A, 0xBF, 0xFF, 0xFD, 0xA4, 0x54, 0xC4, 0x0F, 0x2F, 0xFE]
    (∃ codes, l.mapM (·.code) = .ok codes ∧ bytes? codes.flatten = some bytes) ∧
    decode opcodes bytes = some
      [⟨"JSUB", 4, .memory 2 true false true true 0xFFFFD⟩, ⟨"SHIFTL", 2, .registers 5 4⟩,
        ⟨"FIX", 1, .bare⟩, ⟨"STA", 3, .memory 3 false false true false 0xFFE⟩] ∧
    ∀ s ∈ l, ∀ t ∈ l, ∀ code code', s.code = .ok code → t.code = .ok code' → s.decoded? ≠ t.decoded? →
      ¬code <+: code' := by
  intro lines parsed l bytes
  have hderived : ∀ s ∈ l, s.Derived := by
    intro s hs
    obtain ⟨t, ht, rfl⟩ := List.mem_map.mp hs
    obtain ⟨text, -, hparse⟩ := List.mem_filterMap.mp ht
    cases hp : Statement.parse "p.asm" text 1 0 with
    | error failure => rw [hp] at hparse; cases hparse
    | ok u => rw [hp] at hparse; cases hparse; exact .relocate none (.resolve _ (.parse hp))
  have hall : (∀ s ∈ l, s.instruction?.isSome = true) ∧
      (l.mapM Statement.code).toOption.bind (fun codes => bytes? codes.flatten) = some bytes ∧
      l.mapM (·.decoded?) = some
        [⟨"JSUB", 4, .memory 2 true false true true 0xFFFFD⟩, ⟨"SHIFTL", 2, .registers 5 4⟩,
          ⟨"FIX", 1, .bare⟩, ⟨"STA", 3, .memory 3 false false true false 0xFFE⟩] := by
    decide +kernel
  obtain ⟨hi, hbytes, hexpected⟩ := hall
  obtain ⟨⟨codes, bytes', decoded, hcodes, hbytes', hdecoded, hdecode⟩, hprefix⟩ :=
    decode_code fun s hs => ⟨hderived s hs, hi s hs⟩
  rw [hcodes, Except.toOption, Option.bind_some] at hbytes
  cases hbytes'.symm.trans hbytes
  cases hdecoded.symm.trans hexpected
  exact ⟨⟨codes, hcodes, hbytes⟩, hdecode, hprefix⟩

end Statement

end TwoPass
