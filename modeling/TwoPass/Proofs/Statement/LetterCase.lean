import TwoPass.Proofs.Operand.LetterCase

/-!
Source lines in both letter cases. A line and the same line in upper case are refused for the same reason or make
the same statement, unless the line quotes characters: those are data, and stay as they are written.
-/

namespace TwoPass

/-! ## What is left without the words of the source -/

/-- A cause without the text that it quotes from a line as it is written there. -/
def Cause.unworded : Cause → Cause
  | .malformedField code _ => .malformedField code ""
  | .badDirective code _ => .badDirective code ""
  | cause => cause

def Failure.unworded : Failure → Failure
  | .diagnostic d => .diagnostic { d with cause := d.cause.unworded, sourceLine := none }
  | .fault f => .fault f

/-- The number of a failure in the catalogue, if it has one. -/
def Failure.code : Failure → Option Int
  | .diagnostic d => d.code
  | .fault _ => none

/-- A statement without the two fields that are kept as they are written. -/
def Statement.unworded (s : Statement) : Statement :=
  { s with operandText := "", comment := "" }

theorem Failure.code_unworded (f : Failure) : f.unworded.code = f.code := by
  cases f with
  | fault f => rfl
  | diagnostic d =>
      cases hcause : d.cause <;> simp [unworded, code, Diagnostic.code, Cause.unworded, hcause, Cause.code]

/-! ## Lines -/

/-- Fields of the line in upper case, in which label and operator already are. -/
def Fields.folded (f : Fields) : Fields :=
  { f with operand := f.operand.toUpper, comment := f.comment.toUpper }

namespace SourceLine

def folded : SourceLine → SourceLine
  | .remark comment text => .remark comment.toUpper text.toUpper
  | .code fields text => .code fields.folded text.toUpper

/-- Whether a line is data given as characters between quotation marks. -/
def quotesCharacters : SourceLine → Bool
  | .remark _ _ => false
  | .code fields _ =>
    (Directive.ofName? fields.operator).any (·.isData)
      && (Literal.enclosed? 'C' 'c' fields.operand.toList).isSome

theorem quotesCharacters_folded (source : SourceLine) : source.folded.quotesCharacters = source.quotesCharacters := by
  cases source with
  | remark comment text => rfl
  | code fields text =>
      have henclosed : (Literal.enclosed? 'C' 'c' fields.operand.toUpper.toList).isSome
          = (Literal.enclosed? 'C' 'c' fields.operand.toList).isSome := by
        rw [Text.toList_toUpper, Literal.enclosed?_characters_toUpper, Option.isSome_map]
      simp only [folded, quotesCharacters, Fields.folded, henclosed]

theorem read_toUpper (file : String) (line : Int) (text : String) :
    (∃ source, read file line text = .ok source ∧ read file line text.toUpper = .ok source.folded) ∨
    (∃ d e, read file line text = .error d ∧ read file line text.toUpper = .error e ∧
      (Failure.diagnostic e).unworded = (Failure.diagnostic d).unworded) := by
  unfold read
  simp only [expand_toUpper, isRemark_map_toUpper, Text.columns_map_toUpper, Text.trim_map_toUpper, ← List.map_drop,
    List.isEmpty_map, isName_map_toUpper, isOperator_map_toUpper, Text.upperChars_map_toUpper,
    Text.ofList_map_toUpper]
  split
  · exact .inl ⟨_, rfl, by simp only [folded]⟩
  · split
    · exact .inr ⟨_, _, rfl, rfl, by simp only [Failure.unworded, Cause.unworded]⟩
    · split
      · exact .inr ⟨_, _, rfl, rfl, by simp only [Failure.unworded, Cause.unworded]⟩
      · exact .inl ⟨_, rfl, by simp only [folded, Fields.folded]⟩

end SourceLine

/-! ## Statements -/

namespace Statement

/-- What is left of an outcome without the words of the source. -/
def wordless (outcome : Except Failure Statement) : Except Failure Statement :=
  (outcome.mapError Failure.unworded).map unworded

theorem all_isDigit_toUpper (s : String) : s.toUpper.toList.all Text.isDigit = s.toList.all Text.isDigit := by
  rw [Text.toList_toUpper, List.all_map,
    show Text.isDigit ∘ Char.toUpper = Text.isDigit from funext Text.isDigit_toUpper]

/-- Digits have no letter case. -/
theorem toUpper_eq_self {s : String} (h : s.toList.all Text.isDigit = true) : s.toUpper = s := by
  have hdigit (c : Char) : Text.isDigit c = true → c.toUpper = c := by
    by_cases hc : c.toNat < 128
    · exact Text.forall_ascii (P := fun c => Text.isDigit c = true → c.toUpper = c) (by decide +kernel) hc
    · exact fun _ => Text.toUpper_of_not_ascii hc
  rw [List.all_eq_true] at h
  rw [← String.toList_inj, Text.toList_toUpper]
  refine Eq.trans (List.map_congr_left fun c hc => hdigit c (h c hc)) (List.map_id' _)

theorem addressOperand_toUpper (text : String) : addressOperand text.toUpper = addressOperand text := by
  unfold addressOperand
  rw [Operand.classify_toUpper]

theorem setup_data (file : String) (line : Int) (fields : Fields) (text : String) {d : Directive}
    (hd : d.isData = true) :
    setup file line fields text d =
      let refuse (detail : String) : Except Failure Setup :=
        .error (fieldError file line operandColumn text (.badDirective Catalogue.directiveOperand detail))
      if fields.operand.isEmpty then refuse (d.name ++ " needs a value")
      else match Literal.parse fields.operand (d.dataWidth?.getD 0) with
        | .error fault => refuse fault.message
        | .ok literal => .ok { operands := [literal] } := by
  cases d with
  | byte | word => rfl
  | start | reserveWords | reserveBytes | base | finish | noBase => cases hd

theorem setup_data_folded (file : String) (line : Int) (fields : Fields) (text : String) {d : Directive}
    (hd : d.isData = true) (hplain : Literal.enclosed? 'C' 'c' fields.operand.toList = none) :
    (setup file line fields.folded text.toUpper d).mapError Failure.unworded
      = (setup file line fields text d).mapError Failure.unworded := by
  have hvalue := Literal.toOption_parse_toUpper hplain (d.dataWidth?.getD 0)
  simp only [setup_data _ _ _ _ hd, Fields.folded, Text.isEmpty_toUpper]
  split
  · rfl
  · generalize Literal.parse fields.operand.toUpper (d.dataWidth?.getD 0) = upper at hvalue ⊢
    generalize Literal.parse fields.operand (d.dataWidth?.getD 0) = plain at hvalue ⊢
    cases upper <;> cases plain <;> cases hvalue <;> rfl

theorem setup_folded (file : String) (line : Int) (fields : Fields) (text : String) (d : Directive)
    (hplain : d.isData = true → Literal.enclosed? 'C' 'c' fields.operand.toList = none) :
    (setup file line fields.folded text.toUpper d).mapError Failure.unworded
      = (setup file line fields text d).mapError Failure.unworded := by
  have haddress : Number.parseAddress fields.operand.toUpper.toList = Number.parseAddress fields.operand.toList := by
    rw [Text.toList_toUpper, Number.parseAddress_map_toUpper]
  by_cases hd : d.isData = true
  · exact setup_data_folded file line fields text hd (hplain hd)
  · cases d with
    | start =>
        simp only [setup, Fields.folded, Text.isEmpty_toUpper, haddress]
        split
        · rfl
        · split
          · rfl
          · cases Number.parseAddress fields.operand.toList <;> rfl
    | reserveWords | reserveBytes =>
        simp only [setup, Fields.folded, Text.isEmpty_toUpper, all_isDigit_toUpper]
        split
        · rfl
        · rename_i hdigits
          have hall : fields.operand.toList.all Text.isDigit = true := by simp_all
          rw [toUpper_eq_self hall]
    | byte | word => exact absurd rfl hd
    | base =>
        simp only [setup, Fields.folded, Text.isEmpty_toUpper, addressOperand_toUpper]
        split <;> rfl
    | finish => simp only [setup, Fields.folded, Text.isEmpty_toUpper, addressOperand_toUpper]
    | noBase => rfl

theorem parseDirective_folded (file : String) (line offset : Int) (fields : Fields) (text : String) (d : Directive)
    (hplain : d.isData = true → Literal.enclosed? 'C' 'c' fields.operand.toList = none) :
    wordless (parseDirective file line offset fields.folded text.toUpper d)
      = wordless (parseDirective file line offset fields text d) := by
  have hsetup := setup_folded file line fields text d hplain
  unfold parseDirective
  generalize setup file line fields.folded text.toUpper d = upper at hsetup ⊢
  generalize setup file line fields text d = plain at hsetup ⊢
  cases upper with
  | error f =>
      cases plain with
      | error g => exact congrArg Except.error (Except.error.inj hsetup)
      | ok s => cases hsetup
  | ok s =>
      cases plain with
      | error g => cases hsetup
      | ok t =>
          cases hsetup
          rfl

theorem parseInstruction_folded (file : String) (line offset : Int) (fields : Fields) (text : String)
    (opcode : Opcode) :
    wordless (parseInstruction file line offset fields.folded text.toUpper opcode)
      = wordless (parseInstruction file line offset fields text opcode) := by
  have hoperator : fields.folded.operator = fields.operator := rfl
  have hoperand : fields.folded.operand = fields.operand.toUpper := rfl
  unfold parseInstruction
  dsimp only
  rw [hoperator, hoperand, Instruction.parseOperands_toUpper]
  split
  · rfl
  · cases Instruction.parseOperands opcode
      { extended := fields.operator.toList.head? = some '+', baseMachine := opcode.isBase } fields.operand <;> rfl

/-- A line that does not quote characters makes in upper case what it makes as it is written. -/
theorem wordless_parse_toUpper (file text : String) (line offset : Int)
    (hplain : ∀ source, SourceLine.read file line text = .ok source → source.quotesCharacters = false) :
    wordless (parse file text.toUpper line offset) = wordless (parse file text line offset) := by
  unfold parse
  obtain ⟨source, hplainRead, hupperRead⟩ | ⟨d, e, hplainRead, hupperRead, hsame⟩ :=
    SourceLine.read_toUpper file line text
  · rw [hplainRead, hupperRead]
    have hquotes := hplain source hplainRead
    cases source with
    | remark comment whole => rfl
    | code fields whole =>
        have hoperator : fields.folded.operator = fields.operator := rfl
        rw [SourceLine.folded]
        dsimp only
        rw [hoperator]
        cases Opcode.ofName? (String.ofList (fields.operator.toList.dropWhile (· = '+'))) with
        | some opcode => exact parseInstruction_folded file line offset fields whole opcode
        | none =>
            cases hd : Directive.ofName? fields.operator with
            | none => rfl
            | some d =>
                refine parseDirective_folded file line offset fields whole d fun hdata => ?_
                simpa [SourceLine.quotesCharacters, hd, hdata] using hquotes
  · rw [hplainRead, hupperRead]
    exact congrArg Except.error hsame

theorem quotesCharacters_of_toUpper_eq {file s t : String} {line : Int} (h : s.toUpper = t.toUpper)
    (hplain : ∀ source, SourceLine.read file line s = .ok source → source.quotesCharacters = false)
    {source : SourceLine} (ht : SourceLine.read file line t = .ok source) : source.quotesCharacters = false := by
  obtain ⟨_, htread, htupper⟩ | ⟨_, _, hterror, _⟩ := SourceLine.read_toUpper file line t
  · cases ht.symm.trans htread
    obtain ⟨other, hs, hsupper⟩ | ⟨_, _, _, hserror, _⟩ := SourceLine.read_toUpper file line s
    · rw [h, htupper] at hsupper
      rw [← SourceLine.quotesCharacters_folded, Except.ok.inj hsupper, SourceLine.quotesCharacters_folded,
        hplain other hs]
    · rw [h, htupper] at hserror
      cases hserror
  · cases ht.symm.trans hterror

/-- Two lines that differ only in the case of ASCII letters and do not quote characters are refused for the same
reason at the same place, or make statements that differ at most in how operand and comment are spelled. -/
theorem parse_caseless {file s t : String} {line : Int} (h : s.toUpper = t.toUpper)
    (hplain : ∀ source, SourceLine.read file line s = .ok source → source.quotesCharacters = false) (offset : Int) :
    (∃ f g, parse file s line offset = .error f ∧ parse file t line offset = .error g ∧
      f.unworded = g.unworded ∧ f.code = g.code) ∨
    (∃ p q, parse file s line offset = .ok p ∧ parse file t line offset = .ok q ∧
      p.unworded = q.unworded ∧ p.size = q.size ∧ p.code = q.code) := by
  have hsame : wordless (parse file s line offset) = wordless (parse file t line offset) := by
    rw [← wordless_parse_toUpper file s line offset hplain, h, wordless_parse_toUpper file t line offset]
    exact fun _ => quotesCharacters_of_toUpper_eq h hplain
  cases hs : parse file s line offset with
  | error f =>
      cases ht : parse file t line offset with
      | error g =>
          rw [hs, ht] at hsame
          have hf : f.unworded = g.unworded := Except.error.inj hsame
          exact .inl ⟨f, g, rfl, rfl, hf, by rw [← f.code_unworded, hf, g.code_unworded]⟩
      | ok q =>
          rw [hs, ht] at hsame
          cases hsame
  | ok p =>
      cases ht : parse file t line offset with
      | error g =>
          rw [hs, ht] at hsame
          cases hsame
      | ok q =>
          rw [hs, ht] at hsame
          have hp : p.unworded = q.unworded := Except.ok.inj hsame
          have hsize : p.unworded.size = q.unworded.size := congrArg size hp
          have hcode : p.unworded.code = q.unworded.code := congrArg code hp
          exact .inr ⟨p, q, rfl, rfl, hp, hsize, hcode⟩

/-- The letters of an extended instruction with a marked operand, in two ways. -/
theorem parse_caseless_ldt :
    ∃ p q, parse "a.asm" "loop    +ldt   #Table2" 4 30 = .ok p ∧ parse "a.asm" "Loop    +LDT   #tABLE2" 4 30 = .ok q ∧
      p.unworded = q.unworded ∧ p.size = q.size ∧ p.code = q.code := by
  have hsame : "loop    +ldt   #Table2".toUpper = "Loop    +LDT   #tABLE2".toUpper := by
    rw [← String.toList_inj, Text.toList_toUpper, Text.toList_toUpper]
    decide +kernel
  have hplain : ∀ source, SourceLine.read "a.asm" 4 "loop    +ldt   #Table2" = .ok source →
      source.quotesCharacters = false := by
    intro source h
    have hquotes : (SourceLine.read "a.asm" 4 "loop    +ldt   #Table2").toOption.map (·.quotesCharacters)
        = some false := by
      decide +kernel
    rw [h] at hquotes
    exact Option.some.inj hquotes
  obtain ⟨f, _, hf, _⟩ | haccepted := parse_caseless hsame hplain 30
  · have hok : (parse "a.asm" "loop    +ldt   #Table2" 4 30).isOk = true := by decide +kernel
    rw [hf] at hok
    cases hok
  · exact haccepted

end Statement

end TwoPass
