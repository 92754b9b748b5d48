import TwoPass.Proofs.Statement.WellFormed

/-!
How a line fails to become a statement. The operand field is short, so no number in it has too many digits;
what is left besides the errors of the catalogue is a single fault, the count of a reservation that is made
of digits not all of which are decimal. The address of a line has no part in this.
-/

namespace TwoPass

/-! ## Short text -/

namespace Text

theorem length_trim_le (cs : List Char) : (trim cs).length ≤ cs.length := by
  have hleft : (trimLeft cs).length ≤ cs.length := (List.dropWhile_sublist _).length_le
  have hright : (trim cs).length ≤ (trimLeft cs).length := by
    simpa [trim, trimRight, dropRightWhile] using
      (List.dropWhile_sublist (l := (trimLeft cs).reverse) isBlank).length_le
  omega

theorem length_columns_le (first stop : Nat) (cs : List Char) :
    (columns first stop cs).length ≤ stop - first := by
  unfold columns
  exact List.length_take_le _ _

theorem length_of_mem_splitOn {separator : Char} {cs piece : List Char} (h : piece ∈ splitOn separator cs) :
    piece.length ≤ cs.length := by
  induction cs generalizing piece with
  | nil => simp only [splitOn, List.mem_singleton] at h; simp [h]
  | cons c rest ih =>
      unfold splitOn at h
      split at h
      · rcases List.mem_cons.mp h with rfl | h
        · simp
        · exact Nat.le_succ_of_le (ih h)
      · split at h
        · simp only [List.mem_singleton] at h; simp [h]
        · rename_i first others hs
          rcases List.mem_cons.mp h with rfl | h
          · exact Nat.succ_le_succ (ih (by simp [hs]))
          · exact Nat.le_succ_of_le (ih (by simp [hs, h]))

end Text

namespace Number

variable {value? : Char → Option Nat}

theorem values?_eq_none_iff {cs : List Char} : values? value? cs = none ↔ ∃ c ∈ cs, value? c = none := by
  induction cs with
  | nil => simp [values?]
  | cons c rest ih =>
      cases hc : value? c with
      | none => simp [values?, hc]
      | some v => cases hr : values? value? rest <;> simp_all [values?]

theorem length_of_values? {cs : List Char} {vs : List Nat} (h : values? value? cs = some vs) :
    vs.length = cs.length := by
  induction cs generalizing vs with
  | nil => cases h; rfl
  | cons c rest ih =>
      unfold values? at h
      split at h
      · rename_i hr; cases h; simp [ih hr]
      · cases h

theorem length_of_someValues? {cs : List Char} {vs : List Nat} (h : someValues? value? cs = some vs) :
    vs.length = cs.length := by
  unfold someValues? at h
  split at h
  · cases h
  · exact length_of_values? h

theorem ofDecimal_short (negative : Bool) {digits : List Nat} (h : digits.length ≤ maxDigits) :
    ∃ value, ofDecimal negative digits = .ok value := by
  unfold ofDecimal
  rw [if_neg (by omega)]
  exact ⟨_, rfl⟩

theorem parse_short {token : List Char} (h : token.length ≤ maxDigits) : ∃ value, parse token = .ok value := by
  have hbreak : (dropFinalBreak token).length ≤ token.length := by
    unfold dropFinalBreak
    split
    · simp
    · exact Nat.le_refl _
  have hsign : ∀ cs : List Char, (splitSign cs).2.length ≤ cs.length := by
    intro cs
    unfold splitSign
    split <;> simp
  simp only [parse]
  split
  · rename_i digits hd
    have hlen := length_of_someValues? hd
    have hbody := hsign (dropFinalBreak token)
    have hshort : digits.length ≤ maxDigits := by omega
    obtain ⟨value, hv⟩ := ofDecimal_short (splitSign (dropFinalBreak token)).1 hshort
    exact ⟨some value, by rw [hv]; rfl⟩
  · exact ⟨_, rfl⟩

/-- Of short digits, those that have no value are the ones that are not decimal. -/
theorem parseCount_short {token : String} (hlen : token.toList.length ≤ maxDigits) (hne : token ≠ "") :
    (∃ value, parseCount token = .ok value) ∧ (∀ c ∈ token.toList, Text.isDecimal c = true) ∨
      parseCount token = .error (.notCount token) ∧ ∃ c ∈ token.toList, Text.isDecimal c = false := by
  have hcs : token.toList.isEmpty = false := by simpa using hne
  unfold parseCount
  cases hv : someValues? Text.decimalValue? token.toList with
  | none =>
      rw [someValues?, hcs] at hv
      obtain ⟨c, hc, hnone⟩ := values?_eq_none_iff.mp hv
      exact .inr ⟨rfl, c, hc, by simp [Text.isDecimal, hnone]⟩
  | some digits =>
      have hshort : digits.length ≤ maxDigits := by rwa [length_of_someValues? hv]
      refine .inl ⟨?_, ?_⟩
      · obtain ⟨value, hvalue⟩ := ofDecimal_short false hshort
        exact ⟨value.toNat, by simp [hvalue, Except.map]⟩
      · rw [someValues?, hcs] at hv
        intro c hc
        cases hvalue : Text.decimalValue? c with
        | some v => simp [Text.isDecimal, hvalue]
        | none => simp [values?_eq_none_iff.mpr ⟨c, hc, hvalue⟩] at hv

end Number

/-! ## Operands -/

theorem Operand.classify_short {token : String} (h : token.toList.length ≤ maxDigits) :
    ∃ o, classify token = .ok o := by
  obtain ⟨value, hv⟩ := Number.parse_short h
  unfold classify
  rw [hv]
  cases value with
  | none => exact ⟨_, rfl⟩
  | some n => exact ⟨_, rfl⟩

theorem Operand.parse_short {token : String} (h : token.toList.length ≤ maxDigits) :
    ∃ result, parse token = .ok result := by
  have hbody : (splitMarker token).2.toList.length ≤ token.toList.length := by
    unfold splitMarker
    split
    · rename_i rest hc
      have := Text.length_trim_le rest
      simp only [String.toList_ofList, hc, List.length_cons]
      omega
    · rename_i rest hc
      have := Text.length_trim_le rest
      simp only [String.toList_ofList, hc, List.length_cons]
      omega
    · exact Nat.le_refl _
  obtain ⟨o, ho⟩ := classify_short (Nat.le_trans hbody h)
  exact ⟨(o, (splitMarker token).1), by simp only [parse, ho]; rfl⟩

theorem Operand.length_of_mem_split {text token : String} (h : token ∈ split text) :
    token.toList.length ≤ text.toList.length := by
  unfold split at h
  split at h
  · cases h
  · obtain ⟨piece, hpiece, rfl⟩ := List.mem_map.mp h
    rw [String.toList_ofList]
    exact Nat.le_trans (Text.length_trim_le piece) (Text.length_of_mem_splitOn hpiece)

namespace Instruction

theorem parseTokens_short (flags : Flags) {tokens : List String}
    (h : ∀ token ∈ tokens, token.toList.length ≤ maxDigits) :
    ∃ result, parseTokens flags tokens = .ok result := by
  induction tokens generalizing flags with
  | nil => exact ⟨_, rfl⟩
  | cons token rest ih =>
      obtain ⟨⟨operand, marker⟩, ho⟩ := Operand.parse_short (h token (by simp))
      obtain ⟨⟨operands, flags'⟩, hr⟩ := ih (marker.mark flags) fun t ht => h t (by simp [ht])
      refine ⟨(operand :: operands, flags'), ?_⟩
      unfold parseTokens
      simp only [ho, hr]

theorem parseOperands_short (opcode : Opcode) (flags : Flags) {text : String}
    (h : text.toList.length ≤ maxDigits) : ∃ result, parseOperands opcode flags text = .ok result := by
  have hall : ∀ token ∈ Operand.split text, token.toList.length ≤ maxDigits :=
    fun token ht => Nat.le_trans (Operand.length_of_mem_split ht) h
  simp only [parseOperands]
  split
  · exact parseTokens_short _ fun token ht => hall token (List.mem_filter.mp ht).1
  · exact parseTokens_short _ hall

end Instruction

/-! ## Lines -/

/-- A reservation whose count is made of digits, but not of decimal ones alone. -/
structure Fields.Miscounted (fields : Fields) : Prop where
  reserve : ∃ d, Directive.ofName? fields.operator = some d ∧ d.isReserve = true
  operand : fields.operand ≠ ""
  digits : ∀ c ∈ fields.operand.toList, Text.isDigit c = true
  other : ∃ c ∈ fields.operand.toList, Text.isDecimal c = false

theorem SourceLine.operand_short {file text whole : String} {line : Int} {fields : Fields}
    (h : read file line text = .ok (.code fields whole)) : fields.operand.toList.length ≤ maxDigits := by
  simp only [read] at h
  split at h
  · cases h
  · split at h
    · cases h
    · split at h
      · cases h
      · simp only [Except.ok.injEq, code.injEq] at h
        obtain ⟨rfl, -⟩ := h
        rw [String.toList_ofList]
        refine Nat.le_trans (Text.length_trim_le _) ?_
        exact Nat.le_trans (Text.length_columns_le _ _ _) (by decide)

/-- No mnemonic is the name of a directive, with or without a mark before it. -/
theorem Opcode.ofName?_of_directive {operator : String} {d : Directive}
    (h : Directive.ofName? operator = some d) :
    ofName? (String.ofList (operator.toList.dropWhile (· = '+'))) = none := by
  have hname : d.name = Text.upper operator := by simpa using List.find?_some h
  have hplus : operator.toList.dropWhile (· = '+') = operator.toList := by
    cases hc : operator.toList with
    | nil => rfl
    | cons c rest =>
        have hne : c ≠ '+' := by
          rintro rfl
          have hhead : d.name.toList.head? = some '+' := by
            rw [hname, Text.upper, hc, String.toList_ofList]
            rfl
          cases d <;> exact absurd hhead (by decide)
        simp [hne]
  have hnone : ∀ d : Directive, opcodes.find? (·.mnemonic == d.name) = none := by
    intro d
    cases d <;> decide
  rw [hplus, String.ofList_toList, ofName?, ← hname]
  exact hnone d

namespace Statement

variable {file text : String} {line offset : Int} {fields : Fields} {s : Statement}

/-- Besides the errors that a directive reports, its count can be at fault and nothing else. -/
theorem setup_fault_iff {d : Directive} {fault : Fault} (hlen : fields.operand.toList.length ≤ maxDigits) :
    setup file line fields text d = .error (.fault fault) ↔
      d.isReserve = true ∧ fields.operand ≠ "" ∧ (∀ c ∈ fields.operand.toList, Text.isDigit c = true) ∧
        (∃ c ∈ fields.operand.toList, Text.isDecimal c = false) ∧ fault = .notCount fields.operand := by
  obtain ⟨o, ho⟩ := Operand.classify_short hlen
  cases d with
  | reserveWords | reserveBytes =>
      simp only [setup, Directive.isReserve, true_and]
      split
      · rename_i hbad
        constructor
        · intro h
          cases h
        · rintro ⟨hne, hdigits, -⟩
          simp [hne] at hbad
          obtain ⟨c, hc, hn⟩ := hbad
          simp [hdigits c hc] at hn
      · rename_i hgood
        simp only [Bool.or_eq_true, Bool.not_eq_true', not_or, Bool.not_eq_false, String.isEmpty_iff,
          List.all_eq_true] at hgood
        rcases Number.parseCount_short hlen hgood.1 with ⟨⟨value, hv⟩, hall⟩ | ⟨hv, hother⟩
        · rw [hv]
          constructor
          · intro h
            cases h
          · rintro ⟨-, -, ⟨c, hc, hn⟩, -⟩
            simp [hall c hc] at hn
        · rw [hv]
          simp only [Except.error.injEq, Failure.fault.injEq]
          exact ⟨fun h => ⟨hgood.1, hgood.2, hother, h.symm⟩, fun h => h.2.2.2.symm⟩
  | start =>
      simp only [setup, Directive.isReserve, Bool.false_eq_true, false_and, iff_false]
      split
      · intro h
        cases h
      · split
        · intro h
          cases h
        · split
          all_goals
            intro h
            cases h
  | byte | word =>
      simp only [setup, Directive.isReserve, Bool.false_eq_true, false_and, iff_false]
      split
      · intro h
        cases h
      · split
        all_goals
          intro h
          cases h
  | base | finish =>
      simp only [setup, addressOperand, ho, Directive.isReserve, Bool.false_eq_true, false_and, iff_false]
      split
      all_goals
        intro h
        cases h
  | noBase => simp [setup, Directive.isReserve]

/-- A line with a known mnemonic and, if it is marked as extended, an opcode that allows it is a statement
whatever its operand field holds. -/
theorem parse_instruction {whole : String} {opcode : Opcode} (offset : Int)
    (hread : SourceLine.read file line text = .ok (.code fields whole))
    (hop : Opcode.ofName? (String.ofList (fields.operator.toList.dropWhile (· = '+'))) = some opcode)
    (hext : fields.operator.toList.head? = some '+' → opcode.isExtendable = true) :
    ∃ s, parse file text line offset = .ok s := by
  simp only [parse, hread, hop, parseInstruction]
  rw [if_neg (by simpa using hext)]
  obtain ⟨⟨operands, flags⟩, ho⟩ := Instruction.parseOperands_short opcode
    { extended := fields.operator.toList.head? = some '+', baseMachine := opcode.isBase }
    (SourceLine.operand_short hread)
  rw [ho]
  exact ⟨_, rfl⟩

theorem parse_fault_iff {fault : Fault} :
    parse file text line offset = .error (.fault fault) ↔
      ∃ fields whole, SourceLine.read file line text = .ok (.code fields whole) ∧ fields.Miscounted ∧
        fault = .notCount fields.operand := by
  constructor
  · intro h
    unfold parse at h
    split at h
    · cases h
    · cases h
    · rename_i fields whole hread
      have hlen := SourceLine.operand_short hread
      split at h
      · rename_i opcode hop
        by_cases hext : fields.operator.toList.head? = some '+' → opcode.isExtendable = true
        · obtain ⟨s, hs⟩ := parse_instruction offset hread hop hext
          simp only [parse, hread, hop, h] at hs
          cases hs
        · simp only [parseInstruction] at h
          rw [if_pos (by simpa using hext)] at h
          cases h
      · split at h
        · rename_i d hd
          unfold parseDirective at h
          cases hs : setup file line fields whole d with
          | ok st => rw [hs] at h; cases h
          | error failure =>
              rw [hs] at h
              cases h
              obtain ⟨hreserve, hne, hdigits, hother, rfl⟩ := (setup_fault_iff hlen).mp hs
              exact ⟨fields, whole, hread, ⟨⟨d, hd, hreserve⟩, hne, hdigits, hother⟩, rfl⟩
        · cases h
  · rintro ⟨fields, whole, hread, ⟨⟨d, hd, hreserve⟩, hne, hdigits, hother⟩, rfl⟩
    have hs : setup file line fields whole d = .error (.fault (.notCount fields.operand)) :=
      (setup_fault_iff (SourceLine.operand_short hread)).mpr ⟨hreserve, hne, hdigits, hother, rfl⟩
    simp only [parse, hread, Opcode.ofName?_of_directive hd, hd, parseDirective, hs]
    rfl

/-- A line that fails at one address fails at every other in the same way. -/
theorem parse_error_at {failure : Failure} (h : parse file text line offset = .error failure) (offset' : Int) :
    parse file text line offset' = .error failure := by
  unfold parse at h ⊢
  split at h
  · exact h
  · cases h
  · split at h
    · simp only [parseInstruction] at h ⊢
      split at h
      · rename_i hext; rw [if_pos hext]; exact h
      · rename_i hext
        rw [if_neg hext]
        split at h
        · exact h
        · cases h
    · split at h
      · rename_i fields whole _ _ _ _ d _
        unfold parseDirective at h ⊢
        cases hs : setup file line fields whole d with
        | error failure' => rw [hs] at h; exact h
        | ok st => rw [hs] at h; cases h
      · exact h

/-! ## Where an error is -/

/-- A diagnostic about a line. -/
def Located (file : String) (line : Int) (failure : Failure) : Prop :=
  ∀ d, failure = .diagnostic d → ∃ column, d.location = some ⟨file, line, column⟩

theorem located_fieldError (column : Int) (cause : Cause) :
    Located file line (fieldError file line column text cause) := by
  intro d hd
  cases hd
  exact ⟨column, rfl⟩

theorem located_fault (fault : Fault) : Located file line (.fault fault) :=
  fun _ hd => by cases hd

theorem setup_located {d : Directive} {failure : Failure}
    (h : setup file line fields text d = .error failure) : Located file line failure := by
  have haddress : addressOperand fields.operand = .error failure → Located file line failure := by
    intro ha
    unfold addressOperand at ha
    split at ha
    · cases ha
    · cases ha; exact located_fault _
  cases d with
  | start =>
      simp only [setup] at h
      split at h
      · cases h; exact located_fieldError _ _
      · split at h
        · cases h; exact located_fieldError _ _
        · split at h <;> cases h
          exact located_fieldError _ _
  | reserveWords | reserveBytes =>
      simp only [setup] at h
      split at h
      · cases h; exact located_fieldError _ _
      · split at h <;> cases h
        exact located_fault _
  | byte | word =>
      simp only [setup] at h
      split at h
      · cases h; exact located_fieldError _ _
      · split at h <;> cases h
        exact located_fieldError _ _
  | base =>
      simp only [setup] at h
      split at h
      · cases h; exact located_fieldError _ _
      · exact haddress h
  | finish =>
      simp only [setup] at h
      split at h
      · cases h
      · exact haddress h
  | noBase => cases h

theorem read_located {d : Diagnostic} (h : SourceLine.read file line text = .error d) :
    Located file line (.diagnostic d) := by
  simp only [SourceLine.read] at h
  split at h
  · cases h
  · split at h
    · cases h; exact located_fieldError _ _
    · split at h <;> cases h
      exact located_fieldError _ _

theorem parse_located {failure : Failure} (h : parse file text line offset = .error failure) :
    Located file line failure := by
  unfold parse at h
  split at h
  · rename_i d hr; cases h; exact read_located hr
  · cases h
  · split at h
    · simp only [parseInstruction] at h
      split at h
      · cases h; exact located_fieldError _ _
      · split at h <;> cases h
        exact located_fault _
    · split at h
      · rename_i fields whole _ _ _ _ d _
        unfold parseDirective at h
        cases hs : setup file line fields whole d with
        | error failure' => rw [hs] at h; cases h; exact setup_located hs
        | ok st => rw [hs] at h; cases h
      · cases h; exact located_fieldError _ _

theorem parse_error_line {d : Diagnostic} (h : parse file text line offset = .error (.diagnostic d)) :
    d.line = some line := by
  obtain ⟨column, hd⟩ := parse_located h d rfl
  rw [Diagnostic.line, hd, Option.map_some]

end Statement

end TwoPass
