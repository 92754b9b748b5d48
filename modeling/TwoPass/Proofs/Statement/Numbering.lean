import TwoPass.Assembly.Pass2
import TwoPass.Statement.Parse

/-!
What the number of a line is good for. It stands in the location of a statement or diagnostic and in the hint of
a duplicate definition, and nothing is decided by it: a line read under another number gives the same up to that
number. A remark has no operands, no size and no code, so it takes part in nothing either. Statements without
remarks and numbers are called bare here.
-/

namespace TwoPass

/-! ## Lines without code -/

namespace Text

theorem isBlankText_eq (cs : List Char) : isBlankText cs = (trimLeft cs).isEmpty := by
  induction cs with
  | nil => rfl
  | cons c rest ih =>
      rw [isBlankText, trimLeft, List.all_cons, List.dropWhile_cons]
      cases isBlank c with
      | true => exact ih
      | false => rfl

theorem isBlank_of_isBreak {c : Char} (h : (c = '\r' || c = '\n') = true) : isBlank c = true := by
  rcases Bool.or_eq_true_iff.mp h with h | h <;> rw [of_decide_eq_true h] <;> decide

theorem head?_trimLeft_append {cs tail : List Char} (h : ∀ c ∈ tail, isBlank c = true) :
    (trimLeft (cs ++ tail)).head? = (trimLeft cs).head? := by
  have htail : tail.dropWhile isBlank = [] := by
    rw [← List.append_nil tail, List.dropWhile_append_of_pos h]
    rfl
  simp only [trimLeft, List.dropWhile_append, htail]
  cases cs.dropWhile isBlank <;> rfl

theorem head?_trimLeft_dropRightWhile {p : Char → Bool} (hp : ∀ c, p c = true → isBlank c = true)
    (cs : List Char) : (trimLeft (dropRightWhile p cs)).head? = (trimLeft cs).head? := by
  have hsplit : cs = dropRightWhile p cs ++ (cs.reverse.takeWhile p).reverse := by
    rw [dropRightWhile, ← List.reverse_append, List.takeWhile_append_dropWhile, List.reverse_reverse]
  rw [hsplit, head?_trimLeft_append, ← hsplit]
  intro c hc
  exact hp c (List.all_eq_true.mp (List.all_takeWhile) c (List.mem_reverse.mp hc))

/-- A tab becomes blanks, and every other character stays. -/
theorem head?_trimLeft_expandTabs (column : Nat) (cs : List Char) :
    (trimLeft (expandTabs column cs)).head? = (trimLeft cs).head? := by
  induction cs generalizing column with
  | nil => rfl
  | cons c rest ih =>
      have hkeep (next : Nat) : (trimLeft (c :: expandTabs next rest)).head? = (trimLeft (c :: rest)).head? := by
        rw [trimLeft, trimLeft, List.dropWhile_cons, List.dropWhile_cons]
        split
        · exact ih next
        · rfl
      rw [expandTabs]
      split
      · rename_i hc
        have hgap : ∀ b ∈ List.replicate (tabWidth - column % tabWidth) ' ', isBlank b = true := by
          intro b hb
          rw [List.eq_of_mem_replicate hb]
          decide
        rw [trimLeft, List.dropWhile_append_of_pos hgap, hc]
        exact ih _
      · split
        · exact hkeep 0
        · exact hkeep (column + 1)

end Text

namespace SourceLine

/-- The line is blank, or its first visible character marks a remark. -/
def isInert (text : String) : Bool :=
  match Text.trimLeft text.toList with
  | [] => true
  | c :: _ => c = '.' || c = ';'

theorem isRemark_eq (cs : List Char) :
    isRemark cs = (Text.trimLeft cs).head?.any fun c => c = '.' || c = ';' := by
  rw [isRemark]
  cases Text.trimLeft cs <;> rfl

theorem isRemark_expand (text : String) : isRemark (expand text) = isRemark text.toList := by
  rw [isRemark_eq, isRemark_eq, expand, Text.head?_trimLeft_expandTabs,
    Text.head?_trimLeft_dropRightWhile fun _ h => Text.isBlank_of_isBreak h]

theorem isInert_iff (text : String) :
    isInert text = true ↔ Text.isBlankText text.toList = true ∨ isRemark (expand text) = true := by
  rw [isRemark_expand, Text.isBlankText_eq, isInert, isRemark]
  cases Text.trimLeft text.toList <;> simp

end SourceLine

/-! ## Another number -/

def Diagnostic.atLine (line : Int) (d : Diagnostic) : Diagnostic :=
  { d with location := d.location.map ({ · with line }) }

def Failure.atLine (line : Int) : Failure → Failure
  | .diagnostic d => .diagnostic (d.atLine line)
  | .fault f => .fault f

namespace Statement

def atLine (line : Int) (s : Statement) : Statement :=
  { s with location := { s.location with line } }

/-- What became of a line, had it another number. -/
def renumber (line : Int) : Except Failure Statement → Except Failure Statement
  | .ok s => .ok (s.atLine line)
  | .error failure => .error (failure.atLine line)

variable {file : String} {offset line : Int} {fields : Fields} {text : String}

theorem parseInstruction_renumber (opcode : Opcode) (other : Int) :
    parseInstruction file other offset fields text opcode =
      renumber other (parseInstruction file line offset fields text opcode) := by
  unfold parseInstruction
  dsimp only
  split
  · rfl
  · split <;> rfl

theorem setup_renumber (line : Int) (d : Directive) (other : Int) :
    setup file other fields text d = (setup file line fields text d).mapError (Failure.atLine other) := by
  have haddress : addressOperand fields.operand =
      (addressOperand fields.operand).mapError (Failure.atLine other) := by
    unfold addressOperand
    split <;> rfl
  cases d with
  | start =>
      unfold setup
      dsimp only
      split
      · rfl
      · split
        · rfl
        · split <;> rfl
  | reserveWords | reserveBytes =>
      unfold setup
      dsimp only
      split
      · rfl
      · split <;> rfl
  | byte | word =>
      unfold setup
      dsimp only
      split
      · rfl
      · split <;> rfl
  | base | finish =>
      unfold setup
      dsimp only
      split
      · rfl
      · exact haddress
  | noBase => rfl

theorem parseDirective_renumber (d : Directive) (other : Int) :
    parseDirective file other offset fields text d =
      renumber other (parseDirective file line offset fields text d) := by
  rw [parseDirective, parseDirective, setup_renumber line]
  cases setup file line fields text d <;> rfl

theorem read_renumber (file text : String) (line other : Int) :
    SourceLine.read file other text = (SourceLine.read file line text).mapError (Diagnostic.atLine other) := by
  unfold SourceLine.read
  dsimp only
  split
  · rfl
  · split
    · rfl
    · split <;> rfl

/-- The number of a line is not looked at. -/
theorem parse_renumber (file text : String) (line other offset : Int) :
    parse file text other offset = renumber other (parse file text line offset) := by
  rw [parse, parse, read_renumber file text line other]
  cases SourceLine.read file line text with
  | error d => rfl
  | ok source =>
      cases source with
      | remark comment whole => rfl
      | code fields whole =>
          dsimp only [Except.mapError]
          split
          · exact parseInstruction_renumber _ _
          · split
            · exact parseDirective_renumber _ _
            · rfl

theorem parse_remark (file : String) (line offset : Int) (h : SourceLine.isRemark (SourceLine.expand text) = true) :
    ∃ s, parse file text line offset = .ok s ∧ s.body = .remark := by
  rw [parse, SourceLine.read, if_pos h]
  exact ⟨_, rfl, rfl⟩

end Statement

/-! ## No number -/

def Cause.unnumbered : Cause → Cause
  | .duplicateSymbol symbol firstLine => .duplicateSymbol symbol (firstLine.map fun _ => 0)
  | cause => cause

def Diagnostic.unnumbered (d : Diagnostic) : Diagnostic :=
  { d.atLine 0 with cause := d.cause.unnumbered }

def Failure.unnumbered : Failure → Failure
  | .diagnostic d => .diagnostic d.unnumbered
  | .fault f => .fault f

def Symbol.unnumbered (s : Symbol) : Symbol :=
  { s with line := 0 }

def Statement.unnumbered (s : Statement) : Statement :=
  s.atLine 0

def Revision.unnumbered (r : Revision) : Revision :=
  { statement := r.statement.unnumbered, problem := r.problem.map Failure.unnumbered }

theorem Diagnostic.code_unnumbered (d : Diagnostic) : d.unnumbered.code = d.code := by
  rw [code, code, unnumbered]
  cases d.cause <;> rfl

theorem Diagnostic.unnumbered_atLine (line : Int) (d : Diagnostic) : (d.atLine line).unnumbered = d.unnumbered := by
  rw [unnumbered, unnumbered, atLine, atLine, atLine]
  cases d.location <;> rfl

theorem Diagnostic.unnumbered_unnumbered (d : Diagnostic) : d.unnumbered.unnumbered = d.unnumbered := by
  have hcause : d.cause.unnumbered.unnumbered = d.cause.unnumbered := by
    cases d.cause with
    | duplicateSymbol symbol firstLine => cases firstLine <;> rfl
    | _ => rfl
  rw [unnumbered, unnumbered, atLine, atLine, hcause]
  cases d.location <;> rfl

namespace SymbolTable

def unnumbered (table : SymbolTable) : SymbolTable :=
  table.map Symbol.unnumbered

variable (table : SymbolTable)

theorem find?_unnumbered (name : String) :
    table.unnumbered.find? name = (table.find? name).map Symbol.unnumbered := by
  rw [unnumbered, find?, find?, List.find?_map]
  rfl

theorem address?_unnumbered : table.unnumbered.address? = table.address? := by
  funext name
  rw [address?, find?_unnumbered, Option.map_map]
  rfl

theorem unresolved_unnumbered : unresolved table.unnumbered = unresolved table := by
  have hnames : table.unnumbered.names = table.names := by
    rw [names, unnumbered, List.map_map]
    rfl
  funext file line name
  rw [unresolved, hnames]
  rfl

end SymbolTable

namespace Statement

variable (table : SymbolTable) (file : String) (base : Option Int) (s : Statement)

theorem resolve_table : s.resolve table.unnumbered = s.resolve table := by
  have hoperand : Operand.resolve table.unnumbered = Operand.resolve table := by
    funext operand
    cases operand <;> simp only [Operand.resolve, SymbolTable.address?_unnumbered]
  unfold resolve
  rw [hoperand]

theorem unresolvedErrors_table : s.unresolvedErrors table.unnumbered = s.unresolvedErrors table := by
  unfold unresolvedErrors
  rw [SymbolTable.address?_unnumbered, SymbolTable.unresolved_unnumbered]

theorem revise_table : s.revise table.unnumbered file base = s.revise table file base := by
  have hbase : baseValue? table.unnumbered = baseValue? table := by
    funext operands
    unfold baseValue?
    rw [SymbolTable.address?_unnumbered]
  unfold revise baseError
  rw [hbase, SymbolTable.unresolved_unnumbered]

theorem resolve_unnumbered : s.unnumbered.resolve table = (s.resolve table).unnumbered := by
  obtain ⟨frame, body⟩ := s
  cases body <;> rfl

theorem unresolvedErrors_unnumbered :
    s.unnumbered.unresolvedErrors table = (s.unresolvedErrors table).map Diagnostic.unnumbered := by
  obtain ⟨frame, body⟩ := s
  cases body with
  | instruction i =>
      simp only [unresolvedErrors, unnumbered, atLine, List.map_filterMap]
      congr 1
      funext name
      split <;> rfl
  | directive d value => rfl
  | remark => rfl

theorem relocate_unnumbered : s.unnumbered.relocate base = (s.relocate base).unnumbered := by
  obtain ⟨frame, body⟩ := s
  cases body with
  | instruction i =>
      simp only [relocate, unnumbered, atLine]
      split
      · rfl
      · rfl
      · rename_i size target _ _
        by_cases hreach : Reach.choose (frame.offset + size) base target = .outOfReach
        · simp only [hreach, if_pos]
          rfl
        · simp only [hreach, if_neg, not_false_eq_true]
          rfl
  | directive d value => rfl
  | remark => rfl

theorem revise_unnumbered : s.unnumbered.revise table file base =
    ((s.revise table file base).1.unnumbered, (s.revise table file base).2) := by
  have hrelocate : (if s.unnumbered.isRelocatable then s.unnumbered.relocate base
      else { statement := s.unnumbered }) =
      (if s.isRelocatable then s.relocate base else { statement := s } : Revision).unnumbered := by
    rw [show s.unnumbered.isRelocatable = s.isRelocatable from rfl]
    split
    · exact relocate_unnumbered base s
    · rfl
  unfold revise
  rw [show s.unnumbered.body = s.body from rfl, show s.unnumbered.operands = s.operands from rfl]
  split
  · split <;> rfl
  · rfl
  · rw [hrelocate]

/-! ## Remarks -/

variable {s} in
theorem isRemark_iff : s.isRemark = true ↔ s.body = .remark := by
  unfold isRemark
  split
  · simp [*]
  · simpa using ‹_›

theorem isRemark_resolve : (s.resolve table).isRemark = s.isRemark := by
  obtain ⟨frame, body⟩ := s
  cases body <;> rfl

theorem isRemark_relocate : (s.relocate base).statement.isRemark = s.isRemark := by
  obtain ⟨frame, body⟩ := s
  cases body with
  | instruction i =>
      unfold relocate
      dsimp only
      split <;> rfl
  | directive d value => rfl
  | remark => rfl

theorem isRemark_revise : (s.revise table file base).1.statement.isRemark = s.isRemark := by
  unfold revise
  split
  · split <;> rfl
  · rfl
  · dsimp only
    split
    · exact isRemark_relocate base s
    · rfl

variable {s} in
theorem revise_remark (h : s.isRemark = true) : s.revise table file base = ({ statement := s }, base) := by
  have hbody := isRemark_iff.mp h
  have hopen : s.isRelocatable = false := by simp only [isRelocatable, hbody]
  unfold revise
  rw [hbody, hopen]
  rfl

end Statement

/-- The statements that are no remarks, without their numbers. -/
def bareStatements (l : List Statement) : List Statement :=
  (l.filter (!·.isRemark)).map Statement.unnumbered

section

variable {s : Statement} {l : List Statement}

theorem bareStatements_append (l l' : List Statement) :
    bareStatements (l ++ l') = bareStatements l ++ bareStatements l' := by
  rw [bareStatements, List.filter_append, List.map_append]
  rfl

theorem bareStatements_remark (h : s.isRemark = true) : bareStatements (s :: l) = bareStatements l := by
  rw [bareStatements, List.filter_cons_of_neg (by simp [h])]
  rfl

theorem bareStatements_cons (h : s.isRemark = false) :
    bareStatements (s :: l) = s.unnumbered :: bareStatements l := by
  rw [bareStatements, List.filter_cons_of_pos (by simp [h])]
  rfl

theorem bareStatements_bareStatements (l : List Statement) :
    bareStatements (bareStatements l) = bareStatements l := by
  induction l with
  | nil => rfl
  | cons s rest ih =>
      cases h : s.isRemark with
      | true => rw [bareStatements_remark h, ih]
      | false =>
          rw [bareStatements_cons h, bareStatements_cons (show s.unnumbered.isRemark = false from h), ih]
          rfl

theorem bareStatements_resolve (table : SymbolTable) (l : List Statement) :
    bareStatements (l.map (·.resolve table)) = (bareStatements l).map (·.resolve table) := by
  induction l with
  | nil => rfl
  | cons s rest ih =>
      rw [List.map_cons]
      have hs := Statement.isRemark_resolve table s
      cases h : s.isRemark with
      | true => rw [bareStatements_remark h, bareStatements_remark (hs.trans h), ih]
      | false =>
          rw [bareStatements_cons h, bareStatements_cons (hs.trans h), ih, List.map_cons,
            Statement.resolve_unnumbered]

theorem unresolvedErrors_bareStatements (table : SymbolTable) (l : List Statement) :
    (bareStatements l).flatMap (·.unresolvedErrors table) =
      (l.flatMap (·.unresolvedErrors table)).map Diagnostic.unnumbered := by
  induction l with
  | nil => rfl
  | cons s rest ih =>
      rw [List.flatMap_cons, List.map_append, ← ih]
      cases h : s.isRemark with
      | true =>
          have hnone : s.unresolvedErrors table = [] := by
            simp only [Statement.unresolvedErrors, Statement.isRemark_iff.mp h]
          rw [bareStatements_remark h, hnone]
          rfl
      | false => rw [bareStatements_cons h, List.flatMap_cons, Statement.unresolvedErrors_unnumbered]

/-- Neither remarks nor numbers have a part in the object code. -/
theorem addAll_bareStatements (b : RecordBuffer) (l : List Statement) :
    b.addAll (bareStatements l) = b.addAll l := by
  induction l generalizing b with
  | nil => rfl
  | cons s rest ih =>
      cases h : s.isRemark with
      | true =>
          have hadd : b.add s = .ok b := by simp only [RecordBuffer.add, Statement.isRemark_iff.mp h]
          rw [bareStatements_remark h, ih, RecordBuffer.addAll, hadd]
      | false =>
          have hadd : b.add s.unnumbered = b.add s := rfl
          rw [bareStatements_cons h, RecordBuffer.addAll, RecordBuffer.addAll, hadd]
          cases b.add s with
          | ok b => exact ih b
          | error fault => rfl

end

end TwoPass
