import TwoPass.Statement.Parse

/-!
Well-formed statements: operands of the sorts that the operator can hold, and a format out of the opcode
table. Whatever the text of a line is, the statement parsed from it is well formed, stands where the line
stands, and fails only with an error about the form of the line.
-/

namespace TwoPass

/-- A number, a name, or a register that has a number. -/
def Operand.IsAddress : Operand → Prop
  | .integer _ | .symbol _ => True
  | .register name => (registerNumber? name).isSome = true
  | .characters _ | .hexadecimal _ => False

/-- What a data directive can emit. -/
def Operand.IsLiteral : Operand → Prop
  | .register _ => False
  | _ => True

structure Instruction.WellFormed (i : Instruction) (operands : List Operand) : Prop where
  opcode : i.opcode ∈ opcodes
  format : i.format ∈ i.opcode.formats
  extended : i.flags.extended = true ↔ i.format = 4
  operands : ∀ o ∈ operands, o.IsAddress

def Directive.WellFormed (value : Nat) (operands : List Operand) : Directive → Prop
  | .start | .reserveWords | .reserveBytes => operands = [.integer value]
  | .byte | .word => ∃ literal : Operand, operands = [literal] ∧ literal.IsLiteral
  | .base => ∃ o : Operand, operands = [o] ∧ o.IsAddress
  | .finish => operands = [] ∨ ∃ o : Operand, operands = [o] ∧ o.IsAddress
  | .noBase => operands = []

namespace Statement

def WellFormed (s : Statement) : Prop :=
  match s.body with
  | .instruction i => i.WellFormed s.operands
  | .directive d value => d.WellFormed value s.operands
  | .remark => True

def isStart (s : Statement) : Bool :=
  match s.body with
  | .directive .start _ => true
  | _ => false

theorem isStart_iff {s : Statement} : s.isStart = true ↔ ∃ value, s.body = .directive .start value := by
  unfold isStart
  split
  · rename_i value hb; exact ⟨fun _ => ⟨value, hb⟩, fun _ => rfl⟩
  · rename_i hb; exact ⟨by simp, fun ⟨value, h⟩ => absurd h (hb value)⟩

/-- A statement as it is read from a line, before any symbol is resolved. -/
structure Parsed (file : String) (line offset : Int) (s : Statement) : Prop where
  wellFormed : s.WellFormed
  location : s.location = ⟨file, line, labelColumn⟩
  offset : s.isStart = false → s.offset = offset
  start : ∀ value, s.body = .directive .start value →
    s.label ≠ "" ∧ s.offset = value ∧ Number.parseAddress s.operandText.toList = some value
  remark : s.body = .remark → s.label = ""
  instruction : ∀ i, s.body = .instruction i →
    i.references = s.operands.filterMap (·.symbolName?) ∧ i.displacement = none ∧
      i.flags.pcRelative = false ∧ i.flags.baseRelative = false

end Statement

/-! ## Operands -/

/-- A name that was found in any letter case is found again in upper case. -/
theorem registerNumber?_upper {name : String} {number : Nat} (h : registerNumber? name = some number) :
    registerNumber? (Text.upper name) = some number := by
  have hall : ∀ entry ∈ registers, registerNumber? entry.1 = some entry.2 := by decide
  obtain ⟨l₁, l₂, hl, -⟩ := List.lookup_eq_some_iff.mp h
  exact hall (Text.upper name, number) (by rw [hl]; simp)

theorem Operand.classify_isAddress {token : String} {o : Operand} (h : classify token = .ok o) :
    o.IsAddress := by
  unfold classify at h
  split at h
  · cases h
  · cases h; trivial
  · cases h
    split
    · rename_i hr
      obtain ⟨number, hnumber⟩ := Option.isSome_iff_exists.mp hr
      exact Option.isSome_of_eq_some (registerNumber?_upper hnumber)
    · trivial

theorem Operand.parse_isAddress {token : String} {o : Operand} {marker : Marker}
    (h : parse token = .ok (o, marker)) : o.IsAddress := by
  simp only [parse] at h
  cases hc : classify (splitMarker token).2 with
  | error fault => rw [hc] at h; cases h
  | ok operand =>
      rw [hc] at h
      cases h
      exact classify_isAddress hc

theorem Literal.parse_isLiteral {text : String} {width : Nat} {o : Operand}
    (h : parse text width = .ok o) : o.IsLiteral := by
  unfold parse at h
  split at h
  · cases h
  · split at h <;> cases h
    trivial
  · split at h
    · unfold characters at h
      split at h
      · cases h
      · split at h <;> cases h
        trivial
    · split at h
      · unfold hexadecimal at h
        split at h
        · cases h
        · split at h <;> cases h
          trivial
      · cases h; trivial

/-- Operands mark an instruction as indexed, immediate or indirect, and in no other way. -/
def Flags.Marked (fs gs : Flags) : Prop :=
  gs = { fs with indexed := gs.indexed, immediate := gs.immediate, indirect := gs.indirect }

namespace Instruction

theorem parseTokens_spec {tokens : List String} {flags flags' : Flags} {operands : List Operand}
    (h : parseTokens flags tokens = .ok (operands, flags')) :
    (∀ o ∈ operands, o.IsAddress) ∧ flags.Marked flags' := by
  induction tokens generalizing flags operands with
  | nil => cases h; exact ⟨by simp, rfl⟩
  | cons token rest ih =>
      unfold parseTokens at h
      split at h
      · cases h
      · rename_i operand marker ho
        split at h
        · cases h
        · rename_i operands₁ flags₁ hr
          cases h
          obtain ⟨hrest, hflags⟩ := ih hr
          refine ⟨?_, ?_⟩
          · intro o hm
            rcases List.mem_cons.mp hm with rfl | hm
            · exact Operand.parse_isAddress ho
            · exact hrest o hm
          · rw [Flags.Marked] at hflags ⊢
            rw [hflags]
            cases marker <;> rfl

theorem parseOperands_spec {opcode : Opcode} {flags flags' : Flags} {text : String}
    {operands : List Operand} (h : parseOperands opcode flags text = .ok (operands, flags')) :
    (∀ o ∈ operands, o.IsAddress) ∧ flags.Marked flags' := by
  unfold parseOperands at h
  simp only at h
  split at h
  · obtain ⟨ho, hf⟩ := parseTokens_spec h
    exact ⟨ho, by rw [Flags.Marked] at hf ⊢; rw [hf]⟩
  · exact parseTokens_spec h

/-- Without the mark for it, an instruction never has the extended format. -/
theorem plainFormat_mem {opcode : Opcode} (h : opcode ∈ opcodes) :
    plainFormat opcode ∈ opcode.formats ∧ plainFormat opcode ≠ 4 := by
  have hall : ∀ op ∈ opcodes, plainFormat op ∈ op.formats ∧ plainFormat op ≠ 4 := by decide
  exact hall opcode h

end Instruction

theorem Opcode.mem_of_ofName? {name : String} {opcode : Opcode} (h : ofName? name = some opcode) :
    opcode ∈ opcodes :=
  List.mem_of_find?_eq_some h

/-! ## Statements -/

namespace Statement

variable {file : String} {line offset : Int} {fields : Fields} {text : String} {s : Statement}

theorem parseInstruction_parsed {opcode : Opcode} (hop : opcode ∈ opcodes)
    (h : parseInstruction file line offset fields text opcode = .ok s) : s.Parsed file line offset := by
  unfold parseInstruction at h
  simp only at h
  split at h
  · cases h
  · rename_i hext
    split at h
    · cases h
    · rename_i operands flags ho
      cases h
      obtain ⟨hops, hflags⟩ := Instruction.parseOperands_spec ho
      obtain ⟨hplain, hne⟩ := Instruction.plainFormat_mem hop
      rw [Flags.Marked] at hflags
      refine ⟨⟨hop, ?_, ?_, hops⟩, rfl, fun _ => rfl, by simp, by simp, ?_⟩
      · by_cases hx : fields.operator.toList.head? = some '+'
        · simpa [hx, Opcode.isExtendable] using hext
        · simpa [hx] using hplain
      · rw [hflags]
        by_cases hx : fields.operator.toList.head? = some '+' <;> simp [hx, hne]
      · intro i hi
        cases hi
        rw [hflags]
        exact ⟨rfl, rfl, rfl, rfl⟩

/-- What each directive takes from its line. -/
theorem setup_spec {d : Directive} {st : Setup} (h : setup file line fields text d = .ok st) :
    d.WellFormed st.value st.operands ∧
      (d = .start → fields.label ≠ "" ∧ st.offset = some (st.value : Int) ∧
        Number.parseAddress fields.operand.toList = some st.value) ∧
      (d ≠ .start → st.offset = none) := by
  have haddress : ∀ {st : Setup}, addressOperand fields.operand = .ok st →
      (∃ o : Operand, st.operands = [o] ∧ o.IsAddress) ∧ st.offset = none := by
    intro st hst
    unfold addressOperand at hst
    split at hst
    · rename_i o ho; cases hst; exact ⟨⟨o, rfl, Operand.classify_isAddress ho⟩, rfl⟩
    · cases hst
  cases d with
  | start =>
      simp only [setup] at h
      split at h
      · cases h
      · rename_i hl
        split at h
        · cases h
        · split at h
          · cases h
          · rename_i value hv
            cases h
            exact ⟨rfl, fun _ => ⟨by simpa [String.isEmpty_iff] using hl, rfl, hv⟩, by simp⟩
  | reserveWords | reserveBytes =>
      simp only [setup] at h
      split at h
      · cases h
      · split at h
        · cases h
        · cases h; exact ⟨rfl, by simp, fun _ => rfl⟩
  | byte | word =>
      simp only [setup] at h
      split at h
      · cases h
      · split at h
        · cases h
        · rename_i literal hl
          cases h
          exact ⟨⟨literal, rfl, Literal.parse_isLiteral hl⟩, by simp, fun _ => rfl⟩
  | base =>
      simp only [setup] at h
      split at h
      · cases h
      · exact ⟨(haddress h).1, by simp, fun _ => (haddress h).2⟩
  | finish =>
      simp only [setup] at h
      split at h
      · cases h; exact ⟨Or.inl rfl, by simp, fun _ => rfl⟩
      · exact ⟨Or.inr (haddress h).1, by simp, fun _ => (haddress h).2⟩
  | noBase => cases h; exact ⟨rfl, by simp, fun _ => rfl⟩

theorem parseDirective_parsed {d : Directive}
    (h : parseDirective file line offset fields text d = .ok s) : s.Parsed file line offset := by
  unfold parseDirective at h
  cases hs : setup file line fields text d with
  | error failure => rw [hs] at h; cases h
  | ok st =>
      rw [hs] at h
      cases h
      obtain ⟨hw, hstart, hother⟩ := setup_spec hs
      refine ⟨hw, rfl, ?_, ?_, by simp, by simp⟩
      · intro hne
        have hd : d ≠ .start := by rintro rfl; simp [isStart] at hne
        simp [hother hd]
      · intro value hb
        cases hb
        obtain ⟨hl, ho, hv⟩ := hstart rfl
        exact ⟨hl, by simp [ho], hv⟩

theorem parse_parsed (h : parse file text line offset = .ok s) : s.Parsed file line offset := by
  unfold parse at h
  split at h
  · cases h
  · cases h; exact ⟨trivial, rfl, fun _ => rfl, by simp, fun _ => rfl, by simp⟩
  · split at h
    · rename_i hop; exact parseInstruction_parsed (Opcode.mem_of_ofName? hop) h
    · split at h
      · exact parseDirective_parsed h
      · cases h

/-- A statement is a remark or keeps the fields of its line, and the fields of an instruction give its opcode, format,
operands and flags. -/
theorem parse_cases (h : parse file text line offset = .ok s) :
    (s.body = .remark ∧ s.label = "") ∨
      ∃ fields whole, SourceLine.read file line text = .ok (.code fields whole) ∧ s.label = fields.label ∧
        s.operator = fields.operator ∧ s.operandText = fields.operand ∧
        ∀ i, s.body = .instruction i →
          Opcode.ofName? (String.ofList (fields.operator.toList.dropWhile (· = '+'))) = some i.opcode ∧
          i.mismatch = Instruction.mismatch? i.opcode s.operands ∧
          Instruction.parseOperands i.opcode
            { extended := fields.operator.toList.head? = some '+', baseMachine := i.opcode.isBase } fields.operand =
              .ok (s.operands, i.flags) ∧
          i.format = if fields.operator.toList.head? = some '+' then 4 else Instruction.plainFormat i.opcode := by
  unfold parse at h
  split at h
  · cases h
  · cases h
    exact .inl ⟨rfl, rfl⟩
  · rename_i fields whole hread
    refine .inr ⟨fields, whole, hread, ?_⟩
    split at h
    · rename_i opcode hop
      simp only [parseInstruction] at h
      split at h
      · cases h
      · split at h
        · cases h
        · rename_i operands flags ho
          cases h
          refine ⟨rfl, rfl, rfl, fun i hi => ?_⟩
          cases hi
          exact ⟨hop, rfl, ho, by simp⟩
    · split at h
      · rename_i d _
        unfold parseDirective at h
        cases hs : setup file line fields whole d with
        | error failure => rw [hs] at h; cases h
        | ok st =>
            rw [hs] at h
            cases h
            refine ⟨rfl, rfl, rfl, fun i hi => ?_⟩
            cases hi
      · cases h

/-! ## Errors -/

/-- An error about the form of a line: one of the first eight of the catalogue. -/
def IsFormError (failure : Failure) : Prop :=
  ∀ d, failure = .diagnostic d → ∃ code, d.code = some code ∧ 0 ≤ code ∧ code ≤ Catalogue.directiveOperand

theorem isFormError_fieldError {file : String} {line column : Int} {text : String} {cause : Cause}
    {code : Int} (hc : cause.code = some code) (h : 0 ≤ code ∧ code ≤ Catalogue.directiveOperand) :
    IsFormError (fieldError file line column text cause) := by
  intro d hd
  cases hd
  exact ⟨code, hc, h⟩

theorem isFormError_fault (fault : Fault) : IsFormError (.fault fault) := by
  intro d hd
  cases hd

theorem read_isFormError {d : Diagnostic} (h : SourceLine.read file line text = .error d) :
    IsFormError (.diagnostic d) := by
  simp only [SourceLine.read] at h
  split at h
  · cases h
  · split at h
    · cases h; exact isFormError_fieldError rfl (by decide)
    · split at h
      · cases h; exact isFormError_fieldError rfl (by decide)
      · cases h

theorem setup_isFormError {d : Directive} {failure : Failure}
    (h : setup file line fields text d = .error failure) : IsFormError failure := by
  have haddress : addressOperand fields.operand = .error failure → IsFormError failure := by
    intro ha
    unfold addressOperand at ha
    split at ha
    · cases ha
    · cases ha; exact isFormError_fault _
  cases d with
  | start =>
      simp only [setup] at h
      split at h
      · cases h; exact isFormError_fieldError rfl (by decide)
      · split at h
        · cases h; exact isFormError_fieldError rfl (by decide)
        · split at h
          · cases h; exact isFormError_fieldError rfl (by decide)
          · cases h
  | reserveWords | reserveBytes =>
      simp only [setup] at h
      split at h
      · cases h; exact isFormError_fieldError rfl (by decide)
      · split at h
        · cases h; exact isFormError_fault _
        · cases h
  | byte | word =>
      simp only [setup] at h
      split at h
      · cases h; exact isFormError_fieldError rfl (by decide)
      · split at h
        · cases h; exact isFormError_fieldError rfl (by decide)
        · cases h
  | base =>
      simp only [setup] at h
      split at h
      · cases h; exact isFormError_fieldError rfl (by decide)
      · exact haddress h
  | finish =>
      simp only [setup] at h
      split at h
      · cases h
      · exact haddress h
  | noBase => cases h

theorem parse_isFormError {failure : Failure} (h : parse file text line offset = .error failure) :
    IsFormError failure := by
  unfold parse at h
  split at h
  · rename_i d hr; cases h; exact read_isFormError hr
  · cases h
  · split at h
    · simp only [parseInstruction] at h
      split at h
      · cases h; exact isFormError_fieldError rfl (by decide)
      · split at h
        · cases h; exact isFormError_fault _
        · cases h
    · split at h
      · rename_i d hd
        unfold parseDirective at h
        cases hs : setup file line _ _ d with
        | error failure' => rw [hs] at h; cases h; exact setup_isFormError hs
        | ok st => rw [hs] at h; cases h
      · cases h; exact isFormError_fieldError rfl (by decide)

end Statement

end TwoPass
