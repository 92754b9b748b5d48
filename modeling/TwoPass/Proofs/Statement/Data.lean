import TwoPass.Proofs.Operand.Numeral
import TwoPass.Proofs.Source.Canonical

/-!
Data lines. What a data directive emits is determined by the form of its operand alone: a numeral, hexadecimal digits
or characters between quotation marks, or anything else, which is a symbol and leaves room. The digits emitted
read back as the value that was written, and values without room are refused.
-/

namespace TwoPass

open Number (Digits Numeral)
open Text (IsHex fieldValue? hexValue?)

/-! ## Literals -/

namespace Literal

variable {cs content : List Char} {upper lower : Char} {text : String} {w : Nat}

/-- A letter in either case, and the content between quotation marks. -/
def Quotes (upper lower : Char) (cs content : List Char) : Prop :=
  ∃ letter, (letter = upper ∨ letter = lower) ∧ cs = letter :: '\x27' :: (content ++ ['\x27'])

theorem enclosed?_eq_some_iff (hb : cs.getLast? ≠ some '\n') :
    enclosed? upper lower cs = some content ↔ Quotes upper lower cs content ∧ '\n' ∉ content := by
  unfold enclosed?
  rw [Number.dropFinalBreak_eq_self hb]
  constructor
  · intro h
    split at h
    · rename_i letter rest
      split at h
      · rename_i hc
        simp only [Bool.and_eq_true, Bool.or_eq_true, decide_eq_true_eq, Bool.not_eq_true',
          List.contains_eq_mem, decide_eq_false_iff_not] at hc
        obtain ⟨⟨hletter, hlast⟩, hfree⟩ := hc
        obtain ⟨front, rfl⟩ := List.getLast?_eq_some_iff.mp hlast
        rw [List.dropLast_concat] at h hfree
        cases h
        exact ⟨⟨letter, hletter, rfl⟩, hfree⟩
      · cases h
    · cases h
  · rintro ⟨⟨letter, hletter, rfl⟩, hfree⟩
    simp [hletter, hfree]

theorem enclosed?_eq_none (hb : cs.getLast? ≠ some '\n')
    (h : ∀ content, Quotes upper lower cs content → '\n' ∈ content) : enclosed? upper lower cs = none := by
  rw [Option.eq_none_iff_forall_ne_some]
  intro content hsome
  obtain ⟨hquotes, hfree⟩ := (enclosed?_eq_some_iff hb).mp hsome
  exact hfree (h content hquotes)

theorem Quotes.parse_number (h : Quotes upper lower cs content)
    (hupper : upper = 'C' ∧ lower = 'c' ∨ upper = 'X' ∧ lower = 'x') : Number.parse cs = .ok none := by
  obtain ⟨letter, hletter, rfl⟩ := h
  have hletters : letter = 'C' ∨ letter = 'c' ∨ letter = 'X' ∨ letter = 'x' := by
    rcases hupper with ⟨rfl, rfl⟩ | ⟨rfl, rfl⟩ <;> tauto
  apply Number.parse_eq_none
  all_goals rcases hletters with rfl | rfl | rfl | rfl <;> decide

theorem parse_characters (hb : text.toList.getLast? ≠ some '\n') (h : Quotes 'C' 'c' text.toList content)
    (hfree : '\n' ∉ content) (w : Nat) : parse text w = characters text content := by
  rw [parse, h.parse_number (.inl ⟨rfl, rfl⟩), (enclosed?_eq_some_iff hb).mpr ⟨h, hfree⟩]

theorem parse_hexadecimal (hb : text.toList.getLast? ≠ some '\n') (h : Quotes 'X' 'x' text.toList content)
    (hfree : '\n' ∉ content) (w : Nat) : parse text w = hexadecimal w text content := by
  have hother : enclosed? 'C' 'c' text.toList = none := by
    refine enclosed?_eq_none hb fun other hquotes => ?_
    obtain ⟨letter, hletter, htext⟩ := h
    obtain ⟨letter', hletter', htext'⟩ := hquotes
    rw [htext, List.cons.injEq] at htext'
    obtain ⟨rfl, -⟩ := htext'
    rcases hletter with rfl | rfl <;> simp at hletter'
  rw [parse, h.parse_number (.inr ⟨rfl, rfl⟩), hother, (enclosed?_eq_some_iff hb).mpr ⟨h, hfree⟩]

theorem parse_symbol (hb : text.toList.getLast? ≠ some '\n') (hl : text.toList.length ≤ maxDigits)
    (hnumber : ∀ value, ¬ Numeral text.toList value)
    (hquotes : ∀ content, Quotes 'C' 'c' text.toList content ∨ Quotes 'X' 'x' text.toList content → '\n' ∈ content)
    (w : Nat) : parse text w = .ok (Operand.ofSymbol text) := by
  obtain ⟨value, hvalue⟩ := Number.parse_short hl
  have hnone : value = none := by
    rw [Option.eq_none_iff_forall_ne_some]
    rintro v rfl
    exact hnumber v (Number.numeral_of_parse hb hvalue)
  rw [hnone] at hvalue
  rw [parse, hvalue, enclosed?_eq_none hb fun c hc => hquotes c (.inl hc),
    enclosed?_eq_none hb fun c hc => hquotes c (.inr hc)]

/-! ## Ranges -/

theorem fits_iff (hw : 0 < w) (value : Int) :
    fits w value = true ↔ -(2 : Int) ^ (8 * w - 1) ≤ value ∧ value < 2 ^ (8 * w) := by
  have hpow : (2 : Int) ^ (8 * w) = 2 ^ (8 * w - 1) * 2 := by
    rw [← Int.pow_succ]
    congr 1
    omega
  have hrange : Int.pow 2 (8 * w) = (2 : Int) ^ (8 * w) := rfl
  simp only [fits, hrange, Bool.and_eq_true, decide_eq_true_eq]
  omega

theorem hexadecimal_of_digits {n : Nat} (hfree : '\n' ∉ content) (h : Digits hexValue? hexValue? 16 content n) :
    hexadecimal w text content =
      if n < 2 ^ (8 * w) then .ok (.hexadecimal n) else .error (.tooWide text w) := by
  have hlast : content.getLast? ≠ some '\n' := fun hlast => hfree (List.mem_of_getLast? hlast)
  rw [hexadecimal, (Number.parseAddress_eq_some_iff hlast).mpr h]
  rfl

theorem hexadecimal_of_not_digits (hfree : '\n' ∉ content) (h : ∀ n, ¬ Digits hexValue? hexValue? 16 content n) :
    hexadecimal w text content = .error (.badHexadecimal text) := by
  have hlast : content.getLast? ≠ some '\n' := fun hlast => hfree (List.mem_of_getLast? hlast)
  have hnone : Number.parseAddress content = none := by
    rw [Option.eq_none_iff_forall_ne_some]
    exact fun n hn => h n ((Number.parseAddress_eq_some_iff hlast).mp hn)
  rw [hexadecimal, hnone]

theorem bytes?_eq (h : ∀ c ∈ content, c.toNat < 256) :
    ∃ bytes, bytes? content = some bytes ∧ bytes.map UInt8.toNat = content.map Char.toNat := by
  induction content with
  | nil => exact ⟨[], rfl, rfl⟩
  | cons c rest ih =>
      rw [List.forall_mem_cons] at h
      obtain ⟨bytes, hbytes, hmap⟩ := ih h.2
      refine ⟨UInt8.ofNat c.toNat :: bytes, by simp [bytes?, h.1, hbytes], ?_⟩
      simp [hmap, h.1]

theorem bytes?_eq_none (h : ¬ ∀ c ∈ content, c.toNat < 256) : bytes? content = none := by
  induction content with
  | nil => simp at h
  | cons c rest ih =>
      rw [List.forall_mem_cons, not_and] at h
      rw [bytes?]
      split
      · rename_i hc
        rw [ih (h hc), Option.map_none]
      · rfl

end Literal

/-! ## Emitted digits -/

namespace Directive

theorem fieldValue?_valueCode (w : Nat) (value : Int) :
    ∃ n, fieldValue? (valueCode w value) = some n ∧ (n : Int) = value % 2 ^ (8 * w) := by
  have hpow : Nat.pow 256 w = 2 ^ (8 * w) := (Nat.pow_mul 2 8 w).symm
  have hpos : (0 : Int) < 2 ^ (8 * w) := by positivity
  have hnonneg := Int.emod_nonneg value (Int.ne_of_gt hpos)
  refine ⟨(value % 2 ^ (8 * w)).toNat, ?_, Int.toNat_of_nonneg hnonneg⟩
  rw [valueCode, hpow]
  push_cast
  exact Text.fieldValue?_hexNat _ _

theorem bytes?_flatMap (bytes : List UInt8) :
    bytes? (bytes.flatMap fun b => Text.hexNat 2 b.toNat) = some (bytes.map UInt8.toNat) := by
  induction bytes with
  | nil => rfl
  | cons b rest ih =>
      have hb := b.toNat_lt
      rw [List.flatMap_cons, Text.hexNat_two hb, List.cons_append, List.singleton_append,
        bytes?_digits (by omega) (by omega), ih, Nat.div_add_mod]
      rfl

theorem size_data {d : Directive} {w : Nat} (hd : d.dataWidth? = some w) (value : Nat) (operands : List Operand) :
    d.size value operands = dataSize w operands ∧ d.code operands = dataCode w operands := by
  cases d <;> cases hd <;> exact ⟨rfl, rfl⟩

end Directive

/-! ## Lines -/

namespace Statement

variable {file text whole : String} {line offset : Int} {fields : Fields} {d : Directive} {w : Nat}

theorem parse_literal (offset : Int) (hread : SourceLine.read file line text = .ok (.code fields whole))
    (hop : fields.operator = d.name) (hd : d.dataWidth? = some w) (hne : fields.operand ≠ "") :
    parse file text line offset =
      match Literal.parse fields.operand w with
      | .ok literal =>
        .ok
          { location := ⟨file, line, labelColumn⟩, offset, label := fields.label, operator := fields.operator
            operands := [literal], operandText := fields.operand, comment := fields.comment, body := .directive d 0 }
      | .error fault =>
        .error (fieldError file line operandColumn whole (.badDirective Catalogue.directiveOperand fault.message)) := by
  have hname : Directive.ofName? fields.operator = some d := by
    rw [hop]
    cases d <;> decide
  have hempty : fields.operand.isEmpty = false := by simpa using hne
  simp only [parse, hread, Opcode.ofName?_of_directive hname, hname, parseDirective]
  cases d with
  | byte | word =>
      cases hd
      simp only [setup, hempty, Bool.false_eq_true, ↓reduceIte, Directive.dataWidth?, Option.getD_some]
      cases Literal.parse fields.operand _ <;> rfl
  | _ => cases hd

/-- The line is a statement with this operand alone, which takes `size` bytes and emits `code` for them. -/
def Emits (result : Except Failure Statement) (literal : Operand) (size : Nat) (code : List Char) : Prop :=
  ∃ s, result = .ok s ∧ s.operands = [literal] ∧ s.size = .ok size ∧ s.code = .ok code ∧ IsHex (2 * size) code

/-- The line is refused for the operand of its directive. -/
def Refuses (result : Except Failure Statement) : Prop :=
  ∃ d detail, result = .error (.diagnostic d) ∧ d.cause = .badDirective 7 detail

/-- What becomes of a data line of width `w`, by the form of its operand. -/
structure EncodesData (w : Nat) (operand : List Char) (result : Except Failure Statement) : Prop where
  integer : ∀ value, Numeral operand value →
    if -(2 : Int) ^ (8 * w - 1) ≤ value ∧ value < 2 ^ (8 * w) then
      ∃ code n, Emits result (.integer value) w code ∧ fieldValue? code = some n ∧ (n : Int) ≡ value [ZMOD 2 ^ (8 * w)]
    else Refuses result
  hexadecimal : ∀ digits n, Literal.Quotes 'X' 'x' operand digits → Digits hexValue? hexValue? 16 digits n →
    if n < 2 ^ (8 * w) then ∃ code, Emits result (.hexadecimal n) w code ∧ fieldValue? code = some n
    else Refuses result
  characters : ∀ content, Literal.Quotes 'C' 'c' operand content → content ≠ [] → '\n' ∉ content →
    ((∀ c ∈ content, c.toNat < 256) → ∃ bytes code, Emits result (.characters bytes) content.length code ∧
      bytes? code = some (content.map Char.toNat)) ∧
    ((∃ c ∈ content, 256 ≤ c.toNat) → Refuses result)
  /-- Nothing between the marks, or something else than hexadecimal digits where these are due. -/
  malformed : (Literal.Quotes 'C' 'c' operand [] → Refuses result) ∧
    ∀ digits, Literal.Quotes 'X' 'x' operand digits → '\n' ∉ digits →
      (∀ n, ¬ Digits hexValue? hexValue? 16 digits n) → Refuses result
  symbol : (∀ value, ¬ Numeral operand value) →
    (∀ content, Literal.Quotes 'C' 'c' operand content ∨ Literal.Quotes 'X' 'x' operand content → '\n' ∈ content) →
    Emits result (.symbol (Text.upper (String.ofList operand))) w (List.replicate (2 * w) '0')

section

variable (hread : SourceLine.read file line text = .ok (.code fields whole)) (hop : fields.operator = d.name)
  (hd : d.dataWidth? = some w) (hne : fields.operand ≠ "")

include hread in
theorem getLast?_operand : fields.operand.toList.getLast? ≠ some '\n' := by
  intro hlast
  obtain ⟨front, hfront⟩ := List.getLast?_eq_some_iff.mp hlast
  have htrimmed := (SourceLine.canonical_of_read hread).operand.1
  rw [hfront] at htrimmed
  have hblank := (htrimmed (by simp)).2
  rw [List.getLast_concat] at hblank
  exact absurd hblank (by decide)

include hread hop hd hne

theorem refuses_of_literal {fault : Fault} (h : Literal.parse fields.operand w = .error fault) :
    Refuses (parse file text line offset) := by
  rw [parse_literal offset hread hop hd hne, h]
  exact ⟨_, _, rfl, rfl⟩

theorem emits_of_literal {literal : Operand} {size : Nat} {code : List Char}
    (h : Literal.parse fields.operand w = .ok literal) (hsize : Directive.dataSize w [literal] = .ok size)
    (hcode : Directive.dataCode w [literal] = .ok code) (hhex : IsHex (2 * size) code) :
    Emits (parse file text line offset) literal size code := by
  obtain ⟨hsize', hcode'⟩ := Directive.size_data hd 0 [literal]
  rw [parse_literal offset hread hop hd hne, h]
  exact ⟨_, rfl, rfl, hsize'.trans hsize, hcode'.trans hcode, hhex⟩

theorem data_integer (hw : 0 < w) {value : Int} (h : Numeral fields.operand.toList value) :
    if -(2 : Int) ^ (8 * w - 1) ≤ value ∧ value < 2 ^ (8 * w) then
      ∃ code n, Emits (parse file text line offset) (.integer value) w code ∧ fieldValue? code = some n ∧
        (n : Int) ≡ value [ZMOD 2 ^ (8 * w)]
    else Refuses (parse file text line offset) := by
  have hliteral : Literal.parse fields.operand w =
      if Literal.fits w value then .ok (.integer value) else .error (.tooWide fields.operand w) := by
    rw [Literal.parse, Number.parse_of_numeral (getLast?_operand hread) (SourceLine.operand_short hread) h]
  split
  · rename_i hfits
    rw [if_pos ((Literal.fits_iff hw value).mpr hfits)] at hliteral
    obtain ⟨n, hn, hmod⟩ := Directive.fieldValue?_valueCode w value
    have hhex := Directive.isHex_valueCode hw value
    refine ⟨_, n, emits_of_literal hread hop hd hne hliteral rfl rfl hhex, hn, ?_⟩
    rw [hmod]
    exact Int.mod_modEq value _
  · rename_i hfits
    rw [if_neg (mt (Literal.fits_iff hw value).mp hfits)] at hliteral
    exact refuses_of_literal hread hop hd hne hliteral

theorem data_hexadecimal (hw : 0 < w) {digits : List Char} {n : Nat}
    (hq : Literal.Quotes 'X' 'x' fields.operand.toList digits) (h : Digits hexValue? hexValue? 16 digits n) :
    if n < 2 ^ (8 * w) then
      ∃ code, Emits (parse file text line offset) (.hexadecimal n) w code ∧ fieldValue? code = some n
    else Refuses (parse file text line offset) := by
  have hfree : '\n' ∉ digits := h.not_mem rfl rfl
  have hliteral := Literal.parse_hexadecimal (getLast?_operand hread) hq hfree w
  rw [Literal.hexadecimal_of_digits hfree h] at hliteral
  split
  · rename_i hn
    rw [if_pos hn] at hliteral
    obtain ⟨m, hm, hmod⟩ := Directive.fieldValue?_valueCode w n
    have hsame : m = n := by
      rw [Int.emod_eq_of_lt (by omega) (by exact_mod_cast hn)] at hmod
      exact_mod_cast hmod
    rw [hsame] at hm
    exact ⟨_, emits_of_literal hread hop hd hne hliteral rfl rfl (Directive.isHex_valueCode hw n), hm⟩
  · rename_i hn
    rw [if_neg hn] at hliteral
    exact refuses_of_literal hread hop hd hne hliteral

theorem data_characters {content : List Char} (hq : Literal.Quotes 'C' 'c' fields.operand.toList content)
    (hc : content ≠ []) (hfree : '\n' ∉ content) :
    ((∀ c ∈ content, c.toNat < 256) → ∃ bytes code,
      Emits (parse file text line offset) (.characters bytes) content.length code ∧
        bytes? code = some (content.map Char.toNat)) ∧
    ((∃ c ∈ content, 256 ≤ c.toNat) → Refuses (parse file text line offset)) := by
  have hliteral := Literal.parse_characters (getLast?_operand hread) hq hfree w
  rw [Literal.characters, if_neg (by simpa using hc)] at hliteral
  constructor
  · intro hsmall
    obtain ⟨bytes, hbytes, hmap⟩ := Literal.bytes?_eq hsmall
    have hlength : bytes.length = content.length := by simpa using congrArg List.length hmap
    rw [hbytes] at hliteral
    refine ⟨bytes, _, ?_, by rw [Directive.bytes?_flatMap, hmap]⟩
    rw [← hlength]
    exact emits_of_literal hread hop hd hne hliteral rfl rfl (Directive.isHex_bytes bytes)
  · rintro ⟨c, hmem, hlarge⟩
    rw [Literal.bytes?_eq_none fun hsmall => absurd (hsmall c hmem) (by omega)] at hliteral
    exact refuses_of_literal hread hop hd hne hliteral

end

/-- Every data line comes out as the form of its operand asks: numbers and digits of hexadecimal with their value,
characters byte by byte, names as room, and all else is refused. -/
theorem parse_data (offset : Int) (hread : SourceLine.read file line text = .ok (.code fields whole))
    (hw : fields.operator = "BYTE" ∧ w = 1 ∨ fields.operator = "WORD" ∧ w = 3) (hne : fields.operand ≠ "") :
    EncodesData w fields.operand.toList (parse file text line offset) := by
  obtain ⟨d, hop, hd, hpos⟩ : ∃ d : Directive, fields.operator = d.name ∧ d.dataWidth? = some w ∧ 0 < w := by
    rcases hw with ⟨hop, rfl⟩ | ⟨hop, rfl⟩
    · exact ⟨.byte, hop, rfl, by decide⟩
    · exact ⟨.word, hop, rfl, by decide⟩
  have hb := getLast?_operand hread
  refine ⟨fun _ => data_integer hread hop hd hne hpos, fun _ _ => data_hexadecimal hread hop hd hne hpos,
    fun _ => data_characters hread hop hd hne, ⟨fun hq => ?_, fun digits hq hfree hn => ?_⟩, ?_⟩
  · exact refuses_of_literal hread hop hd hne (Literal.parse_characters hb hq (by simp) w)
  · have hliteral := Literal.parse_hexadecimal hb hq hfree w
    rw [Literal.hexadecimal_of_not_digits hfree hn] at hliteral
    exact refuses_of_literal hread hop hd hne hliteral
  · intro hnumber hquotes
    have hliteral := Literal.parse_symbol hb (SourceLine.operand_short hread) hnumber hquotes w
    rw [String.ofList_toList]
    exact emits_of_literal hread hop hd hne hliteral rfl rfl (Directive.isHex_zeros w)

/-- A negative number in a word, and characters of which two are quotation marks and one is not of ASCII. -/
theorem parse_data_two :
    let word := "        WORD   -1"
    let characters := "TEXT    BYTE   c'A'é''"
    (∃ code n, Emits (parse "P" word 1 0) (.integer (-1)) 3 code ∧ fieldValue? code = some n ∧
      (n : Int) ≡ -1 [ZMOD 2 ^ 24]) ∧
    ∃ bytes code, Emits (parse "P" characters 2 3) (.characters bytes) 4 code ∧
      bytes? code = some [0x41, 0x27, 0xE9, 0x27] := by
  intro word characters
  have hword : SourceLine.read "P" 1 word = .ok (.code { operator := "WORD", operand := "-1" } word) := by
    decide +kernel
  have hcharacters : SourceLine.read "P" 2 characters =
      .ok (.code { label := "TEXT", operator := "BYTE", operand := "c'A'é''" } characters) := by
    decide +kernel
  have hone := (parse_data 0 hword (.inr ⟨rfl, rfl⟩) (by decide)).integer (-1) (.negative (.leading rfl))
  have hfour := (parse_data 3 hcharacters (.inl ⟨rfl, rfl⟩) (by decide)).characters
    ['A', '\x27', 'é', '\x27'] ⟨'c', .inr rfl, by decide⟩ (by decide) (by decide)
  refine ⟨?_, ?_⟩
  · rwa [if_pos (by decide)] at hone
  · exact hfour.1 (by simp)

end Statement

end TwoPass
