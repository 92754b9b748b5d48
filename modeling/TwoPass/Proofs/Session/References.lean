import TwoPass.Proofs.Session.Widths

/-!
References to labels. A label is a name, and a name in any letter case is no number: no decimal digit of any script
has a letter for its upper-case form. Registers come before symbols, so of the labels that a line may have,
just those with the name of a register are out of reach for a memory reference.
-/

namespace TwoPass

/-! ## Names and numbers -/

namespace Text

theorem decimal_block {c : Char} (h : isDecimal c = true) :
    ∃ first ∈ decimalZeros, first ≤ c.toNat ∧ c.toNat < first + 10 := by
  rw [isDecimal, decimalValue?, Option.isSome_map, List.find?_isSome] at h
  simpa using h

/-- No decimal digit has another form in upper case. -/
theorem upperChar_decimal {c : Char} (h : isDecimal c = true) : upperChar c = [c] := by
  -- No block of ten digits meets an entry of the two tables.
  have hexpansions : (decimalZeros.all fun first => caseExpansions.all fun entry =>
      entry.1.blt first || (first + 10).ble entry.1) = true := by decide +kernel
  have hruns : (decimalZeros.all fun first => caseRuns.all fun run =>
      run.last.blt first || (first + 10).ble run.first) = true := by decide +kernel
  simp only [List.all_eq_true, Bool.or_eq_true, Nat.blt_eq, Nat.ble_eq] at hexpansions hruns
  obtain ⟨first, hfirst, hle, hlt⟩ := decimal_block h
  by_cases hascii : c.toNat < 128
  · have hall : ∀ n < 128, isDecimal (Char.ofNat n) = true → upperChar (Char.ofNat n) = [Char.ofNat n] := by
      decide +kernel
    exact forall_ascii (P := fun c => isDecimal c = true → upperChar c = [c]) hall hascii h
  · have hlookup : caseExpansions.lookup c.toNat = none := by
      rw [List.lookup_eq_none_iff]
      intro entry hentry
      have := hexpansions first hfirst entry hentry
      rw [bne_iff_ne]
      omega
    have hfind : caseRuns.findSome? (·.form? c.toNat) = none := by
      rw [List.findSome?_eq_none_iff]
      intro run hrun
      have := hruns first hfirst run hrun
      rw [CaseRun.form?, if_neg]
      simp only [Bool.and_eq_true, decide_eq_true_eq, not_and]
      omega
    rw [upperChar, if_neg hascii, hlookup, hfind]

end Text

namespace SourceLine

theorem toNat_lt_of_isNameStart {c : Char} (h : isNameStart c = true) : c.toNat < 128 := by
  have hname : isName [c] = true := by simp [isName, h]
  exact toNat_lt_of_isNameChar (isNameChar_of_isName hname c (by simp))

theorem isDecimal_of_isNameStart {c : Char} (h : isNameStart c = true) : Text.isDecimal c = false :=
  Text.forall_ascii (P := fun c => isNameStart c = true → Text.isDecimal c = false) (by decide +kernel)
    (toNat_lt_of_isNameStart h) h

end SourceLine

namespace Number

open Text (decimalValue? isDecimal)

theorem dropFinalBreak_cons (c : Char) (rest : List Char) :
    dropFinalBreak (c :: rest) = [] ∨ ∃ tail, dropFinalBreak (c :: rest) = c :: tail := by
  unfold dropFinalBreak
  split
  · cases rest with
    | nil => exact .inl rfl
    | cons d rest => exact .inr ⟨(d :: rest).dropLast, rfl⟩
  · exact .inr ⟨rest, rfl⟩

theorem beforeMark?_cons {c : Char} (h : decimalValue? c = none) (tail : List Char) :
    beforeMark? (c :: tail) = none := by
  unfold beforeMark?
  split
  · rename_i mark first rest hlast hfront
    have hfirst : first = c := by
      cases tail with
      | nil => cases hfront
      | cons d tail => exact (List.cons.inj hfront).1.symm
    simp [hfirst, h]
  · rfl

/-- A number begins with a sign or a decimal digit. -/
theorem parse_eq_none {c : Char} (hplus : c ≠ '+') (hminus : c ≠ '-') (h : decimalValue? c = none)
    (rest : List Char) : parse (c :: rest) = .ok none := by
  rcases dropFinalBreak_cons c rest with hdrop | ⟨tail, hdrop⟩
  · simp [parse, hdrop, splitSign, someValues?, afterMark?, beforeMark?]
  · have hsign : splitSign (c :: tail) = (false, c :: tail) := by simp [splitSign, hplus, hminus]
    have hzero : c ≠ '0' := by
      rintro rfl
      cases h
    have hafter : afterMark? (c :: tail) = none := by simp [afterMark?, hzero]
    simp [parse, hdrop, hsign, someValues?, values?, h, hafter, beforeMark?_cons h]

/-- What is a name in upper case is no number. -/
theorem parse_of_isName {cs : List Char} (h : SourceLine.isName (Text.upperChars cs) = true) :
    parse cs = .ok none := by
  cases cs with
  | nil => rfl
  | cons c rest =>
      have hself : Text.upperChar c = [c] → SourceLine.isNameStart c = true := by
        intro hc
        rw [Text.upperChars, List.flatMap_cons, hc, List.singleton_append, SourceLine.isName, Bool.and_eq_true] at h
        exact h.1
      have hdecimal : isDecimal c = false := by
        by_contra hd
        rw [Bool.not_eq_false] at hd
        rw [SourceLine.isDecimal_of_isNameStart (hself (Text.upperChar_decimal hd))] at hd
        cases hd
      apply parse_eq_none
      · rintro rfl
        exact absurd (hself (by decide)) (by decide)
      · rintro rfl
        exact absurd (hself (by decide)) (by decide)
      · simpa [isDecimal] using hdecimal

end Number

/-! ## Labels are names -/

namespace SourceLine

theorem isName_upperChars {cs : List Char} (h : isName cs = true) : isName (Text.upperChars cs) = true := by
  cases cs with
  | nil => cases h
  | cons c rest =>
      rw [isName, Bool.and_eq_true, List.all_eq_true] at h
      obtain ⟨hstart, hrest⟩ := h
      have hlt := toNat_lt_of_isNameStart hstart
      rw [Text.upperChars, List.flatMap_cons, Text.upperChar, if_pos hlt, List.singleton_append, isName,
        Bool.and_eq_true, List.all_eq_true]
      refine ⟨?_, fun d hd => ?_⟩
      · exact Text.forall_ascii (P := fun c => isNameStart c = true → isNameStart c.toUpper = true)
          (by decide +kernel) hlt hstart
      · obtain ⟨e, he, hd⟩ := List.mem_flatMap.mp hd
        have hchar := hrest e he
        have hlt := toNat_lt_of_isNameChar hchar
        rw [Text.upperChar, if_pos hlt, List.mem_singleton] at hd
        rw [hd]
        exact Text.forall_ascii (P := fun c => isNameChar c = true → isNameChar c.toUpper = true)
          (by decide +kernel) hlt hchar

end SourceLine

theorem Statement.isName_label {file text : String} {line offset : Int} {s : Statement}
    (h : parse file text line offset = .ok s) (hs : s.label ≠ "") : SourceLine.isName s.label.toList = true := by
  rcases parse_cases h with ⟨-, hlabel⟩ | ⟨fields, whole, hread, hlabel, -⟩
  · exact absurd hlabel hs
  · obtain ⟨label, -, hname, -, heq, -⟩ := SourceLine.read_code hread
    rw [hlabel, heq] at hs ⊢
    rw [String.toList_ofList]
    rcases hname with rfl | hname
    · exact absurd rfl hs
    · exact SourceLine.isName_upperChars hname

theorem Statement.exists_parseOperands {file text : String} {line offset : Int} {s : Statement} {i : Instruction}
    (h : parse file text line offset = .ok s) (hb : s.body = .instruction i) :
    ∃ flags, Instruction.parseOperands i.opcode flags s.operandText = .ok (s.operands, i.flags) := by
  rcases parse_cases h with ⟨hremark, -⟩ | ⟨fields, whole, -, -, -, htext, hinstruction⟩
  · rw [hb] at hremark
    cases hremark
  · rw [htext]
    exact ⟨_, (hinstruction i hb).2.2.1⟩

/-! ## Operands of memory references -/

namespace Operand

/-- A token that is a label in some letter case is no number. -/
theorem classify_of_isName {token : String} (h : SourceLine.isName (Text.upper token).toList = true) :
    classify token = .ok (if isRegister token then ofRegister token else ofSymbol token) := by
  rw [Text.upper, String.toList_ofList] at h
  rw [classify, Number.parse_of_isName h]

/-- The index register is not marked. -/
theorem splitMarker_of_isIndexToken {token : String} (h : Instruction.isIndexToken token = true) :
    (splitMarker token).2 = token := by
  have hx : Text.upperChars token.toList = ['X'] := by
    rw [Instruction.isIndexToken, decide_eq_true_eq, Text.upper] at h
    rw [← String.toList_ofList (l := Text.upperChars token.toList), h]
    rfl
  have hmarks : Text.upperChar '#' = ['#'] ∧ Text.upperChar '@' = ['@'] := by decide
  unfold splitMarker
  split
  · rename_i rest htoken
    simp [htoken, Text.upperChars, hmarks] at hx
  · rename_i rest htoken
    simp [htoken, Text.upperChars, hmarks] at hx
  · rfl

end Operand

theorem Opcode.isMemoryReference_of_format {op : Opcode} {format : Int} (h : op ∈ opcodes)
    (hformat : format ∈ op.formats) (hlong : format = 3 ∨ format = 4) : op.isMemoryReference = true := by
  have hall : ∀ op ∈ opcodes, 3 ∈ op.formats ∨ 4 ∈ op.formats → op.isMemoryReference = true := by
    decide +kernel
  apply hall op h
  rcases hlong with rfl | rfl
  · exact .inl hformat
  · exact .inr hformat

namespace Instruction

variable {flags flags' : Flags} {operands : List Operand}

theorem parseOperands_memory {opcode : Opcode} {text : String} (hm : opcode.isMemoryReference = true)
    (h : parseOperands opcode flags text = .ok (operands, flags')) :
    ∃ flags₁, parseTokens flags₁ ((Operand.split text).filter (!isIndexToken ·)) = .ok (operands, flags') := by
  simp only [parseOperands, hm, Bool.true_and] at h
  split at h
  · exact ⟨_, h⟩
  · rename_i hnone
    rw [List.filter_eq_self.mpr]
    · exact ⟨_, h⟩
    · intro token htoken
      simp only [List.any_eq_true, not_exists, not_and, Bool.not_eq_true] at hnone
      simp [hnone token htoken]

theorem exists_operands {token : String} {rest : List String} {o : Operand}
    (h : parseTokens flags (token :: rest) = .ok (operands, flags'))
    (ho : Operand.classify (Operand.splitMarker token).2 = .ok o) : ∃ others, operands = o :: others := by
  unfold parseTokens at h
  split at h
  · cases h
  · rename_i operand marker hparse
    have hoperand : operand = o := by
      simp only [Operand.parse, ho, Except.map, Except.ok.injEq, Prod.mk.injEq] at hparse
      exact hparse.1.symm
    split at h
    · cases h
    · rename_i others _ _
      cases h
      exact ⟨others, by rw [hoperand]⟩

/-- The target of a memory reference whose one token, apart from the index register, is a name in the table. -/
theorem target?_of_isName {opcode : Opcode} {text token : String} {table : SymbolTable} {address : Int}
    (hm : opcode.isMemoryReference = true) (h : parseOperands opcode flags text = .ok (operands, flags'))
    (htoken : token ∈ Operand.split text)
    (hone : ∀ other ∈ Operand.split text, other ≠ token → isIndexToken other = true)
    (hname : SourceLine.isName (Text.upper (Operand.splitMarker token).2).toList = true)
    (ha : table.address? (Text.upper (Operand.splitMarker token).2) = some address) :
    (isRegister (Operand.splitMarker token).2 = false →
      target? (operands.map (·.resolve table)) = some address) ∧
    ∀ number, registerNumber? (Operand.splitMarker token).2 = some number →
      target? (operands.map (·.resolve table)) = some (if isIndexToken token then 0 else (number : Int)) := by
  obtain ⟨flags₁, htokens⟩ := parseOperands_memory hm h
  cases hindex : isIndexToken token with
  | true =>
      -- The index register is a flag, and no token is left.
      have hnil : (Operand.split text).filter (!isIndexToken ·) = [] := by
        refine List.filter_eq_nil_iff.mpr fun other hother => ?_
        by_cases heq : other = token
        · simp [heq, hindex]
        · simp [hone other hother heq]
      rw [hnil] at htokens
      cases htokens
      refine ⟨fun hregister => ?_, fun _ _ => rfl⟩
      rw [Operand.splitMarker_of_isIndexToken hindex] at hregister
      rw [isIndexToken, decide_eq_true_eq] at hindex
      rw [isRegister, registerNumber?, hindex] at hregister
      cases hregister
  | false =>
      have hmem : token ∈ (Operand.split text).filter (!isIndexToken ·) := by simp [htoken, hindex]
      obtain ⟨rest, hrest⟩ : ∃ rest, (Operand.split text).filter (!isIndexToken ·) = token :: rest := by
        cases hfilter : (Operand.split text).filter (!isIndexToken ·) with
        | nil => simp [hfilter] at hmem
        | cons other rest =>
            have hother : other ∈ (Operand.split text).filter (!isIndexToken ·) := by simp [hfilter]
            rw [List.mem_filter, Bool.not_eq_true'] at hother
            have heq : other = token := by
              by_contra hne
              rw [hone other hother.1 hne] at hother
              cases hother.2
            exact ⟨rest, by rw [heq]⟩
      rw [hrest] at htokens
      obtain ⟨others, rfl⟩ := exists_operands htokens (Operand.classify_of_isName hname)
      refine ⟨fun hregister => ?_, fun number hnumber => ?_⟩
      · simp [hregister, Operand.ofSymbol, Operand.resolve, ha, target?]
      · simp [isRegister, hnumber, Operand.ofRegister, Operand.resolve, target?, registerNumber?_upper hnumber]

end Instruction

/-! ## The session -/

namespace Assembly

open Layout

variable {a₀ a : Assembly}

/-- The names in the table are those of labels. -/
theorem isName_of_mem_names {settings : Settings} {file name : String} {lines : List String} {ok : Bool}
    (h₀ : create settings file = .ok a₀) (h₁ : pass1 lines a₀ = .ok ok a) (hname : name ∈ a.symbols.names) :
    SourceLine.isName name.toList = true := by
  rw [(placed_of_pass1 h₀ h₁).recorded.names, List.mem_eraseDups, labels, List.mem_filter, decide_eq_true_eq, List.mem_map] at hname
  obtain ⟨⟨s, hs, rfl⟩, hne⟩ := hname
  obtain ⟨text, line, offset, hparse⟩ := parsed_of_pass1 h₀ h₁ hs
  exact Statement.isName_label hparse hne

end Assembly

namespace Session

/-- A memory reference to a label goes to the address of the label, unless the label has the name of a register. -/
theorem assembleText_label_target {session session' : Session} {source file text token : String} {s : Statement}
    {i : Instruction} (h : assembleText source file session = .ok (some text) session')
    (hs : s ∈ session'.assembly.statements) (hb : s.body = .instruction i) (hlong : i.format = 3 ∨ i.format = 4)
    (htoken : token ∈ Operand.split s.operandText)
    (hone : ∀ other ∈ Operand.split s.operandText, other ≠ token → Instruction.isIndexToken other = true)
    (hname : Text.upper (Operand.splitMarker token).2 ∈ session'.assembly.symbols.names) :
    ∃ address, session'.assembly.symbols.address? (Text.upper (Operand.splitMarker token).2) = some address ∧
      (isRegister (Operand.splitMarker token).2 = false → Instruction.target? s.operands = some address) ∧
      ∀ number, registerNumber? (Operand.splitMarker token).2 = some number →
        Instruction.target? s.operands = some (if Instruction.isIndexToken token then 0 else (number : Int)) := by
  obtain ⟨a₀, ok, a, b, h₀, h₁, h₂, hstatements, hsymbols, -⟩ := exists_passes h
  have hpassed := (Assembly.pass2_passed _).of_ok h₂
  obtain ⟨-, hresolved⟩ := hpassed.resolved rfl
  rw [hsymbols, hpassed.reworked.symbols] at hname ⊢
  rw [hstatements] at hs
  have hlaid := (Assembly.placed_of_pass1 h₀ h₁).laid
  have hw := hpassed.reworked.wellFormed hlaid.wellFormed s hs
  simp only [Statement.WellFormed, hb] at hw
  have hm := Opcode.isMemoryReference_of_format hw.opcode hw.format hlong
  obtain ⟨s₀, hs₀, hcompleted⟩ := hresolved.exists_completed s hs
  obtain ⟨i₀, hb₀, hop, hoperands⟩ := hcompleted.exists_instruction hb
  obtain ⟨line, number, offset, hparse⟩ := Assembly.parsed_of_pass1 h₀ h₁ hs₀
  have htext : s.operandText = s₀.operandText := by rw [hcompleted.revised.frame]
  rw [htext] at htoken hone
  obtain ⟨address, ha⟩ := Option.ne_none_iff_exists'.mp fun hnone => Statement.address?_eq_none_iff.mp hnone hname
  refine ⟨address, ha, ?_⟩
  obtain ⟨flags, hparsed⟩ := Statement.exists_parseOperands hparse hb₀
  rw [hoperands]
  exact Instruction.target?_of_isName (hop ▸ hm) hparsed htoken hone (Assembly.isName_of_mem_names h₀ h₁ hname) ha

/-- A name that could be a numeral in another place, in two letter cases and with an index, and the status word. -/
theorem assembleText_label_target_two :
    let source := "P       START  1000\n        LDA    #badh,x\nBadh    WORD   5\n        +J     sw\nSW      RSUB\n"
    ∃ (session session' : Session) (text : String) (s s' : Statement),
      create { relativeAddressing := true } false {} = .ok session ∧
      assembleText source "two.asm" session = .ok (some text) session' ∧
      session'.assembly.symbols.names = ["P", "BADH", "SW"] ∧
      s ∈ session'.assembly.statements ∧ s.operandText = "#badh,x" ∧
      session'.assembly.symbols.address? "BADH" = some 0x1003 ∧ Instruction.target? s.operands = some 0x1003 ∧
      s' ∈ session'.assembly.statements ∧ s'.operandText = "sw" ∧
      session'.assembly.symbols.address? "SW" = some 0x100A ∧ Instruction.target? s'.operands = some 9 := by
  intro source
  obtain ⟨session, hcreate⟩ : ∃ session, create { relativeAddressing := true } false {} = .ok session := ⟨_, rfl⟩
  have hrun :
      let final : Assembly := ((assembleText source "two.asm").after session).assembly
      ((assembleText source "two.asm").value? session).join.isSome = true ∧
      final.symbols.names = ["P", "BADH", "SW"] ∧ final.symbols.address? "BADH" = some 0x1003 ∧
      final.symbols.address? "SW" = some 0x100A ∧
      (∃ s ∈ final.statements, ∃ i ∈ s.instruction?, i.format = 3 ∧ s.operandText = "#badh,x") ∧
      ∃ s ∈ final.statements, ∃ i ∈ s.instruction?, i.format = 4 ∧ s.operandText = "sw" := by
    cases hcreate
    decide +kernel
  obtain ⟨hsome, hnames, hbadh, hsw, ⟨s, hs, i, hi, hf, ht⟩, s', hs', i', hi', hf', ht'⟩ := hrun
  obtain ⟨text, h⟩ := exists_text hsome
  have hbody : Operand.splitMarker "#badh" = (.immediate, "badh") ∧ Operand.splitMarker "sw" = (.plain, "sw") := by
    decide
  have hupper : Text.upper "badh" = "BADH" ∧ Text.upper "sw" = "SW" := by decide
  have hsplit : Operand.split s.operandText = ["#badh", "x"] := by rw [ht]; decide
  have hsplit' : Operand.split s'.operandText = ["sw"] := by rw [ht']; decide
  obtain ⟨address, ha, hsymbol, -⟩ := assembleText_label_target h hs (Statement.instruction?_eq_some.mp hi) (.inl hf)
    (by rw [hsplit]; exact List.mem_cons_self) (by rw [hsplit]; decide) (by rw [hbody.1, hupper.1, hnames]; decide)
  obtain ⟨-, -, -, hregister⟩ := assembleText_label_target h hs' (Statement.instruction?_eq_some.mp hi') (.inr hf')
    (by rw [hsplit']; exact List.mem_cons_self) (by simp [hsplit']) (by rw [hbody.2, hupper.2, hnames]; decide)
  have haddress : address = 0x1003 := Option.some.inj (ha.symm.trans hbadh)
  rw [haddress] at hsymbol
  exact ⟨session, _, text, s, s', hcreate, h, hnames, hs, ht, hbadh, hsymbol (by decide +kernel), hs', ht', hsw,
    hregister 9 (by decide +kernel)⟩

/-- A label may have the name of a register, but the name stands for the register. -/
theorem exists_hidden_label :
    let source := "P       START  0\n        LDA    A\nA       WORD   5\n"
    ∃ session session', create {} false {} = .ok session ∧
      assembleText source "<string>" session =
        .ok (some "HP     000000000006\nT00000006000000000005\nE000000\n") session' ∧
      session'.assembly.errors.warnings = [] ∧ session'.assembly.symbols.address? "A" = some 3 ∧
      ∃ s ∈ session'.assembly.statements, ∃ i ∈ s.instruction?, i.format = 3 ∧
        Operand.split s.operandText = ["A"] ∧ Instruction.target? s.operands = some 0 := by
  intro source
  obtain ⟨session, hcreate⟩ : ∃ session, create {} false {} = .ok session := ⟨_, rfl⟩
  have hrun :
      let final : Assembly := ((assembleText source "<string>").after session).assembly
      (assembleText source "<string>").value? session =
        some (some "HP     000000000006\nT00000006000000000005\nE000000\n") ∧ final.errors.warnings = [] ∧
      final.symbols.address? "A" = some 3 ∧
      ∃ s ∈ final.statements, ∃ i ∈ s.instruction?, i.format = 3 ∧ Operand.split s.operandText = ["A"] ∧
        Instruction.target? s.operands = some 0 := by
    cases hcreate
    decide +kernel
  obtain ⟨htext, hquiet, haddress, hload⟩ := hrun
  exact ⟨session, _, hcreate, Action.eq_ok_of_value? htext, hquiet, haddress, hload⟩

end Session

end TwoPass
