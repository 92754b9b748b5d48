import Mathlib.Data.List.DropRight
import TwoPass.Proofs.Session.References
import TwoPass.Proofs.Statement.Numbering
import TwoPass.Proofs.Text.Field

/-!
Lines in canonical form. The fields that reading finds are in upper case where case does not count, no longer than
their columns, and have neither blanks around them nor tabs inside. Fields of this form are exactly those that come
back unchanged when they are laid out in their columns and read again.
-/

namespace TwoPass

namespace Text

variable {cs tail : List Char}

/-! ## Blanks around text -/

/-- No blank stands at either end. -/
def IsTrimmed (cs : List Char) : Prop :=
  ∀ h : cs ≠ [], isBlank (cs.head h) = false ∧ isBlank (cs.getLast h) = false

theorem dropRightWhile_eq (p : Char → Bool) (cs : List Char) : dropRightWhile p cs = cs.rdropWhile p := rfl

theorem trim_eq_self (h : IsTrimmed cs) : trim cs = cs := by
  have hleft : trimLeft cs = cs := by
    rw [trimLeft, List.dropWhile_eq_self_iff]
    intro hpos
    simp [List.getElem_zero, (h (List.ne_nil_of_length_pos hpos)).1]
  rw [trim, hleft, trimRight, dropRightWhile_eq, List.rdropWhile_eq_self_iff]
  intro hne
  simp [h hne]

theorem isTrimmed_of_visible (h : ∀ c ∈ cs, isBlank c = false) : IsTrimmed cs :=
  fun hne => ⟨h _ (List.head_mem hne), h _ (List.getLast_mem hne)⟩

theorem trim_prefix_trimLeft (cs : List Char) : trim cs <+: trimLeft cs :=
  List.rdropWhile_prefix isBlank _

theorem isTrimmed_trim (cs : List Char) : IsTrimmed (trim cs) := by
  intro hne
  have hlast := List.rdropWhile_last_not isBlank (trimLeft cs) hne
  refine ⟨?_, Bool.eq_false_iff.mpr hlast⟩
  rw [(trim_prefix_trimLeft cs).head hne]
  exact List.head_dropWhile_not isBlank _

theorem trim_subset (cs : List Char) : trim cs ⊆ cs :=
  fun _ hc => List.dropWhile_subset _ ((trim_prefix_trimLeft cs).subset hc)

theorem trimLeft_append (h : ∀ c ∈ tail, isBlank c = true) (cs : List Char) :
    trimLeft (tail ++ cs) = trimLeft cs :=
  List.dropWhile_append_of_pos h

theorem trimRight_append (h : ∀ c ∈ tail, isBlank c = true) (cs : List Char) :
    trimRight (cs ++ tail) = trimRight cs := by
  rw [trimRight, dropRightWhile, List.reverse_append, List.dropWhile_append_of_pos (by simpa using h)]
  rfl

theorem trim_append (h : ∀ c ∈ tail, isBlank c = true) (cs : List Char) : trim (cs ++ tail) = trim cs := by
  have htail : tail.dropWhile isBlank = [] := List.dropWhile_eq_nil_iff.mpr h
  rw [trim, trim, trimLeft, trimLeft, List.dropWhile_append]
  split
  · rename_i hempty
    rw [htail, List.isEmpty_iff.mp hempty]
  · exact trimRight_append h _

theorem exists_trimRight (cs : List Char) : ∃ tail, cs = trimRight cs ++ tail ∧ ∀ c ∈ tail, isBlank c = true :=
  ⟨cs.rtakeWhile isBlank, List.rdropWhile_append_rtakeWhile.symm, fun _ hc => List.mem_rtakeWhile_imp hc⟩

/-! ## Blanks in columns -/

theorem isBlank_of_mem_replicate {n : Nat} : ∀ c ∈ List.replicate n ' ', isBlank c = true := by
  intro c hc
  rw [List.eq_of_mem_replicate hc]
  decide

theorem trim_padRight (width : Nat) (cs : List Char) : trim (padRight width cs) = trim cs :=
  trim_append isBlank_of_mem_replicate cs

theorem length_padRight {width : Nat} (h : cs.length ≤ width) : (padRight width cs).length = width := by
  simp [padRight]
  omega

theorem padRight_succ {width : Nat} (h : cs.length ≤ width) : padRight (width + 1) cs = padRight width cs ++ [' '] := by
  rw [padRight, padRight, Nat.succ_sub h, List.replicate_succ', List.append_assoc]

/-- Blanks at the end of a line do not show in its columns. -/
theorem trim_columns_trimRight (first stop : Nat) (cs : List Char) :
    trim (columns first stop (trimRight cs)) = trim (columns first stop cs) := by
  obtain ⟨tail, hcs, htail⟩ := exists_trimRight cs
  conv_rhs => rw [hcs]
  rw [columns, columns, List.drop_append, List.take_append]
  refine (trim_append (fun c hc => htail c ?_) _).symm
  exact List.mem_of_mem_drop (List.mem_of_mem_take hc)

theorem trim_drop_trimRight (n : Nat) (cs : List Char) : trim ((trimRight cs).drop n) = trim (cs.drop n) := by
  obtain ⟨tail, hcs, htail⟩ := exists_trimRight cs
  conv_rhs => rw [hcs]
  rw [List.drop_append]
  exact (trim_append (fun c hc => htail c (List.mem_of_mem_drop hc)) _).symm

/-! ## Tabs -/

theorem tab_not_mem_expandTabs (column : Nat) (cs : List Char) : '\t' ∉ expandTabs column cs := by
  induction cs generalizing column with
  | nil => simp [expandTabs]
  | cons c rest ih =>
      rw [expandTabs]
      split
      · simp [ih]
      · rename_i hc
        split <;> simp [ih, Ne.symm hc]

theorem expandTabs_eq_self (column : Nat) (h : '\t' ∉ cs) : expandTabs column cs = cs := by
  induction cs generalizing column with
  | nil => rfl
  | cons c rest ih =>
      rw [List.mem_cons, not_or] at h
      rw [expandTabs, if_neg (Ne.symm h.1), ih 0 h.2, ih (column + 1) h.2, ite_self]

/-! ## Upper case in ASCII -/

theorem upperChars_ascii (h : ∀ c ∈ cs, c.toNat < 128) : upperChars cs = cs.map Char.toUpper := by
  rw [upperChars, List.map_eq_flatMap]
  refine List.flatMap_congr fun c hc => ?_
  rw [upperChar, if_pos (h c hc)]

theorem upperChars_of_upper (hascii : ∀ c ∈ cs, c.toNat < 128) (hupper : ∀ c ∈ cs, c.isLower = false) :
    upperChars cs = cs := by
  refine upperChars_eq_self fun c hc => ?_
  exact forall_ascii (P := fun c => c.isLower = false → upperChar c = [c]) (by decide +kernel) (hascii c hc)
    (hupper c hc)

theorem isLower_upperChars (h : ∀ c ∈ cs, c.toNat < 128) : ∀ c ∈ upperChars cs, c.isLower = false := by
  intro c hc
  rw [upperChars_ascii h] at hc
  obtain ⟨d, hd, rfl⟩ := List.mem_map.mp hc
  exact forall_ascii (P := fun c => c.toUpper.isLower = false) (by decide +kernel) (h d hd)

theorem length_upperChars (h : ∀ c ∈ cs, c.toNat < 128) : (upperChars cs).length = cs.length := by
  rw [upperChars_ascii h, List.length_map]

end Text

/-! ## Canonical fields -/

namespace Fields

/-- Fields as reading gives them. -/
structure Canonical (f : Fields) : Prop where
  label : f.label = "" ∨ SourceLine.isName f.label.toList = true
  label_upper : ∀ c ∈ f.label.toList, c.isLower = false
  label_length : f.label.length ≤ 7
  operator : SourceLine.isOperator f.operator.toList = true
  operator_upper : ∀ c ∈ f.operator.toList, c.isLower = false
  operator_length : f.operator.length ≤ 6
  operand_length : f.operand.length ≤ 20
  operand : Text.IsTrimmed f.operand.toList ∧ '\t' ∉ f.operand.toList
  comment : Text.IsTrimmed f.comment.toList ∧ '\t' ∉ f.comment.toList

variable {label operator operand comment : List Char}

theorem columns_label (h : label.length ≤ 7) :
    Text.columns labelStart labelStop (layout label operator operand comment) = Text.padRight 7 label := by
  have hlayout : layout label operator operand comment = [] ++ Text.padRight 7 label ++
      ([' '] ++ Text.padRight 7 operator ++ Text.padRight 20 operand ++ comment) := by
    rw [layout, operatorStart, Text.padRight_succ h]
    simp [operandStart, operandStop]
  rw [hlayout]
  exact Text.columns_append rfl (by rw [Text.length_padRight h]; rfl)

theorem columns_operator (hl : label.length ≤ 7) (h : operator.length ≤ 6) :
    Text.columns operatorStart operatorStop (layout label operator operand comment) = Text.padRight 6 operator := by
  have hlayout : layout label operator operand comment = Text.padRight 8 label ++ Text.padRight 6 operator ++
      ([' '] ++ Text.padRight 20 operand ++ comment) := by
    rw [layout, show operandStart - operatorStart = 6 + 1 by rfl, Text.padRight_succ h]
    simp [operatorStart, operandStart, operandStop]
  rw [hlayout]
  exact Text.columns_append (Text.length_padRight (by omega)) (by rw [Text.length_padRight h]; rfl)

theorem columns_operand (hl : label.length ≤ 7) (ho : operator.length ≤ 6) (h : operand.length ≤ 20) :
    Text.columns operandStart operandStop (layout label operator operand comment) = Text.padRight 20 operand := by
  refine Text.columns_append ?_ ?_
  · rw [List.length_append, Text.length_padRight (by rw [operatorStart]; omega),
      Text.length_padRight (by rw [operandStart, operatorStart]; omega)]
    rfl
  · rw [show operandStop - operandStart = 20 by rfl, Text.length_padRight h]
    rfl

theorem drop_layout (hl : label.length ≤ 7) (ho : operator.length ≤ 6) (h : operand.length ≤ 20) :
    (layout label operator operand comment).drop operandStop = comment := by
  refine List.drop_left' ?_
  rw [List.length_append, List.length_append, Text.length_padRight (by rw [operatorStart]; omega),
    Text.length_padRight (by rw [operandStart, operatorStart]; omega),
    Text.length_padRight (by rw [operandStart, operandStop]; omega)]
  rfl

end Fields

namespace SourceLine

/-! ## Names -/

variable {cs : List Char}

theorem exists_cons_of_isName (h : isName cs = true) : ∃ c rest, cs = c :: rest ∧ isNameStart c = true := by
  cases cs with
  | nil => cases h
  | cons c rest =>
      rw [isName, Bool.and_eq_true] at h
      exact ⟨c, rest, rfl, h.1⟩

theorem isOperator_of_isName (h : isName cs = true) : isOperator cs = true := by
  unfold isOperator
  split
  · cases h
  · exact h

theorem isOperator_iff : isOperator cs = true ↔ isName cs = true ∨ ∃ name, cs = '+' :: name ∧ isName name = true := by
  constructor
  · intro h
    unfold isOperator at h
    split at h
    · exact .inr ⟨_, rfl, h⟩
    · exact .inl h
  · rintro (h | ⟨name, rfl, h⟩)
    · exact isOperator_of_isName h
    · exact h

theorem isOperator_upperChars (h : isOperator cs = true) : isOperator (Text.upperChars cs) = true := by
  rcases isOperator_iff.mp h with h | ⟨name, rfl, h⟩
  · exact isOperator_of_isName (isName_upperChars h)
  · exact isName_upperChars h

theorem isBlank_of_isNameChar {c : Char} (h : isNameChar c = true) : Text.isBlank c = false :=
  Text.forall_ascii (P := fun c => isNameChar c = true → Text.isBlank c = false) (by decide +kernel)
    (toNat_lt_of_isNameChar h) h

theorem isBlank_of_isName (h : isName cs = true) : ∀ c ∈ cs, Text.isBlank c = false :=
  fun c hc => isBlank_of_isNameChar (isNameChar_of_isName h c hc)

theorem isBlank_of_isOperator (h : isOperator cs = true) : ∀ c ∈ cs, Text.isBlank c = false := by
  rcases isOperator_iff.mp h with h | ⟨name, rfl, h⟩
  · exact isBlank_of_isName h
  · rw [List.forall_mem_cons]
    exact ⟨by decide, isBlank_of_isName h⟩

/-! ## Remarks -/

theorem isRemark_trimRight (cs : List Char) : isRemark (Text.trimRight cs) = isRemark cs := by
  rw [isRemark_eq, isRemark_eq, Text.trimRight, Text.head?_trimLeft_dropRightWhile fun _ h => h]

theorem isRemark_append {tail : List Char} (h : ∀ c ∈ tail, Text.isBlank c = true) (cs : List Char) :
    isRemark (tail ++ cs) = isRemark cs := by
  rw [isRemark, isRemark, Text.trimLeft_append h]

theorem isRemark_of_isName (h : isName cs = true) (rest : List Char) : isRemark (cs ++ rest) = false := by
  obtain ⟨c, tail, rfl, hc⟩ := exists_cons_of_isName h
  have hvisible : Text.isBlank c = false ∧ (c = '.' || c = ';') = false :=
    Text.forall_ascii (P := fun c => isNameStart c = true → Text.isBlank c = false ∧ (c = '.' || c = ';') = false)
      (by decide +kernel) (toNat_lt_of_isNameStart hc) hc
  simp [isRemark, Text.trimLeft, hvisible]

theorem isRemark_of_isOperator (h : isOperator cs = true) (rest : List Char) : isRemark (cs ++ rest) = false := by
  rcases isOperator_iff.mp h with h | ⟨name, rfl, -⟩
  · exact isRemark_of_isName h rest
  · rfl

end SourceLine

/-! ## Reading and formatting -/

namespace Fields.Canonical

open SourceLine

variable {f : Fields}

theorem label_visible (h : f.Canonical) : ∀ c ∈ f.label.toList, c.toNat < 128 ∧ Text.isBlank c = false := by
  rcases h.label with hlabel | hlabel
  · simp [hlabel]
  · intro c hc
    exact ⟨toNat_lt_of_isNameChar (isNameChar_of_isName hlabel c hc), isBlank_of_isName hlabel c hc⟩

theorem isRemark_format (h : f.Canonical) : isRemark f.format.toList = false := by
  rw [format, String.toList_ofList, isRemark_trimRight, layout, List.append_assoc, List.append_assoc, Text.padRight,
    Text.padRight, List.append_assoc, List.append_assoc]
  rcases h.label with hlabel | hlabel
  · -- Without a label the operator is what shows first.
    rw [hlabel, String.toList_empty, List.nil_append, isRemark_append Text.isBlank_of_mem_replicate]
    exact isRemark_of_isOperator h.operator _
  · exact isRemark_of_isName hlabel _

theorem tab_not_mem_layout (h : f.Canonical) :
    '\t' ∉ layout f.label.toList f.operator.toList f.operand.toList f.comment.toList := by
  have hlabel : '\t' ∉ f.label.toList := fun hmem => absurd (h.label_visible _ hmem).2 (by decide)
  have hoperator : '\t' ∉ f.operator.toList := fun hmem => absurd (isBlank_of_isOperator h.operator _ hmem) (by decide)
  simp [layout, Text.padRight, hlabel, hoperator, h.operand.2, h.comment.2]

/-- A formatted line has no break at its end and nothing to expand. -/
theorem expand_format (h : f.Canonical) : expand f.format = f.format.toList := by
  rw [format, expand, String.toList_ofList]
  generalize hcs : layout f.label.toList f.operator.toList f.operand.toList f.comment.toList = cs
  have hbreak : Text.dropRightWhile (fun c => c = '\r' || c = '\n') (Text.trimRight cs) = Text.trimRight cs := by
    rw [Text.dropRightWhile_eq, List.rdropWhile_eq_self_iff]
    intro hne hlast
    exact List.rdropWhile_last_not Text.isBlank cs hne (Text.isBlank_of_isBreak hlast)
  rw [hbreak]
  refine Text.expandTabs_eq_self 0 fun hmem => ?_
  have hmem' : '\t' ∈ cs := (List.rdropWhile_prefix Text.isBlank cs).subset hmem
  rw [← hcs] at hmem'
  exact h.tab_not_mem_layout hmem'

theorem read_format (h : f.Canonical) (file : String) (line : Int) :
    read file line f.format = .ok (.code f f.format) := by
  have hl : f.label.toList.length ≤ 7 := h.label_length
  have ho : f.operator.toList.length ≤ 6 := h.operator_length
  have hn : f.operand.toList.length ≤ 20 := h.operand_length
  -- Each field is found in its columns, without the blanks that fill them.
  have hlabel : Text.trim (Text.columns labelStart labelStop f.format.toList) = f.label.toList := by
    rw [format, String.toList_ofList, Text.trim_columns_trimRight, columns_label hl, Text.trim_padRight,
      Text.trim_eq_self (Text.isTrimmed_of_visible fun c hc => (h.label_visible c hc).2)]
  have hoperator : Text.trim (Text.columns operatorStart operatorStop f.format.toList) = f.operator.toList := by
    rw [format, String.toList_ofList, Text.trim_columns_trimRight, columns_operator hl ho, Text.trim_padRight,
      Text.trim_eq_self (Text.isTrimmed_of_visible (isBlank_of_isOperator h.operator))]
  have hoperand : Text.trim (Text.columns operandStart operandStop f.format.toList) = f.operand.toList := by
    rw [format, String.toList_ofList, Text.trim_columns_trimRight, columns_operand hl ho hn, Text.trim_padRight,
      Text.trim_eq_self h.operand.1]
  have hcomment : Text.trim (f.format.toList.drop operandStop) = f.comment.toList := by
    rw [format, String.toList_ofList, Text.trim_drop_trimRight, drop_layout hl ho hn, Text.trim_eq_self h.comment.1]
  have hname : (!f.label.toList.isEmpty && !isName f.label.toList) = false := by
    rcases h.label with hempty | hname
    · simp [hempty]
    · simp [hname]
  have hupper := Text.upperChars_of_upper (fun c hc => (h.label_visible c hc).1) h.label_upper
  have hupper' := Text.upperChars_of_upper (toNat_lt_of_isOperator h.operator) h.operator_upper
  simp only [SourceLine.read, h.expand_format, h.isRemark_format, hlabel, hoperator, hoperand, hcomment, hname,
    h.operator, hupper, hupper', String.ofList_toList, Bool.not_true, Bool.false_eq_true, ↓reduceIte]

end Fields.Canonical

namespace SourceLine

theorem canonical_of_read {file text whole : String} {line : Int} {fields : Fields}
    (h : read file line text = .ok (.code fields whole)) : fields.Canonical := by
  obtain ⟨label, operator, hl, ho, hlabel, hoperator, rfl⟩ := read_fields h
  have hlength (first stop : Nat) : (Text.trim (Text.columns first stop (expand text))).length ≤ stop - first :=
    (Text.length_trim_le _).trans (Text.length_columns_le first stop _)
  have htab {cs : List Char} (hcs : cs ⊆ expand text) : '\t' ∉ Text.trim cs :=
    fun hmem => Text.tab_not_mem_expandTabs 0 _ (hcs (Text.trim_subset cs hmem))
  have hascii : ∀ c ∈ label, c.toNat < 128 := by
    rcases hlabel with rfl | hname
    · simp
    · exact fun c hc => toNat_lt_of_isNameChar (isNameChar_of_isName hname c hc)
  have hascii' := toNat_lt_of_isOperator hoperator
  refine ⟨?_, ?_, ?_, ?_, ?_, ?_, ?_, ?_, ?_⟩
  all_goals simp only [String.toList_ofList, String.length_ofList]
  · rcases hlabel with rfl | hname
    · exact .inl rfl
    · exact .inr (isName_upperChars hname)
  · exact Text.isLower_upperChars hascii
  · rw [Text.length_upperChars hascii, hl]
    exact hlength labelStart labelStop
  · exact isOperator_upperChars hoperator
  · exact Text.isLower_upperChars hascii'
  · rw [Text.length_upperChars hascii', ho]
    exact hlength operatorStart operatorStop
  · exact hlength operandStart operandStop
  · exact ⟨Text.isTrimmed_trim _, htab fun c hc => List.mem_of_mem_drop (List.mem_of_mem_take hc)⟩
  · exact ⟨Text.isTrimmed_trim _, htab fun c hc => List.mem_of_mem_drop hc⟩

/-- The fields of every line that is read are canonical, canonical fields are read back from the line that they are
laid out on, and so a line that is formatted again keeps its fields. -/
theorem read_canonical (file : String) (line : Int) :
    (∀ text fields whole, read file line text = .ok (.code fields whole) → fields.Canonical) ∧
    (∀ fields : Fields, fields.Canonical → read file line fields.format = .ok (.code fields fields.format)) ∧
    ∀ text fields whole, read file line text = .ok (.code fields whole) →
      read file line fields.format = .ok (.code fields fields.format) :=
  ⟨fun _ _ _ => canonical_of_read, fun _ h => h.read_format file line,
    fun _ _ _ h => (canonical_of_read h).read_format file line⟩

/-- Small letters, tabs, an operand with a line feed inside, and a break at the end. -/
theorem read_canonical_tabs :
    let text := "loop\t+jsub\tC'a\n'\t\t\tread\tit\r\n"
    let fields : Fields := { label := "LOOP", operator := "+JSUB", operand := "C'a\n'", comment := "read    it" }
    read "P" 3 text = .ok (.code fields "loop    +jsub   C'a\n'                       read    it") ∧
      fields.Canonical ∧
      read "P" 3 fields.format = .ok (.code fields "LOOP    +JSUB  C'a\n'               read    it") := by
  intro text fields
  obtain ⟨hcanonical, hformat, -⟩ := read_canonical "P" 3
  have hread : read "P" 3 text = .ok (.code fields "loop    +jsub   C'a\n'                       read    it") := by
    decide +kernel
  have hline : fields.format = "LOOP    +JSUB  C'a\n'               read    it" := by decide +kernel
  have hfields := hcanonical _ _ _ hread
  exact ⟨hread, hfields, (hformat fields hfields).trans (by rw [hline])⟩

end SourceLine

end TwoPass
