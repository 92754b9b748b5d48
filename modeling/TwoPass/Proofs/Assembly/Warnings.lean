import TwoPass.Proofs.Assembly.Constants
import TwoPass.Proofs.Assembly.Inertness
import TwoPass.Proofs.Session.Strictness

/-!
The warnings of a run without errors. Each is called for by one statement and they come in the order of the
statements, first those of the first pass and then those of the second. The second pass warns of an address
exactly where the twelve bits of its field lose a part of it.
-/

namespace TwoPass

open TwoPass.Action (Ends ends_bind ends_get ends_modify)
open Assembly (lineMessage)
open Reach (IsLow)

/-! ## What statements call for -/

namespace Statement

/-- What the first pass warns of: operands that do not suit an instruction, and data that is not known. -/
def caution? (s : Statement) : Option String :=
  match s.body with
  | .instruction i => i.mismatch
  | .directive d _ =>
    match s.operands with
    | .symbol name :: _ => if d.isData then some (d.name ++ " " ++ name ++ " emitted as zero bytes") else none
    | _ => none
  | .remark => none

/-- The address of a three-byte instruction that takes more than the twelve bits it has. -/
def cutTarget? (s : Statement) : Option Int :=
  match s.body, s.operands with
  | .instruction i, .integer target :: _ =>
    if i.format = 3 ∧ i.displacement = none ∧ ¬ IsLow target then some target else none
  | _, _ => none

/-- The warning for an address that is cut, with what is left of it. -/
def cutMessage (s : Statement) (target : Int) : String :=
  Catalogue.text Catalogue.outOfReach ++ ": " ++ s.mnemonic ++ " target " ++ Text.hex 6 target ++ " truncated to "
    ++ Text.hex 3 (target % 4096) ++ ", use +" ++ s.mnemonic

theorem caution?_eq_none {s : Statement} {d : Directive} {value : Nat} (hb : s.body = .directive d value)
    (hd : d.isData = false) : s.caution? = none := by
  simp only [caution?, hb]
  split
  · rw [hd]
    rfl
  · rfl

theorem truncation?_eq (s : Statement) : Assembly.truncation? s = s.cutTarget?.map s.cutMessage := by
  cases hb : s.body with
  | instruction i =>
      cases ho : s.operands with
      | nil => simp only [Assembly.truncation?, cutTarget?, hb, ho, Option.map_none]
      | cons o rest =>
          cases o with
          | integer target =>
              have hlow : IsLow target ↔ Reach.isDirectRange target = true := Reach.isDirectRange_iff_le.symm
              simp only [Assembly.truncation?, cutTarget?, hb, ho]
              by_cases hcut : i.format = 3 ∧ i.displacement = none ∧ ¬ IsLow target
              · rw [if_pos hcut, if_pos (by simpa [hlow, and_assoc] using hcut)]
                rfl
              · rw [if_neg hcut, if_neg (by simpa [hlow, and_assoc] using hcut)]
                rfl
          | _ => simp only [Assembly.truncation?, cutTarget?, hb, ho, Option.map_none]
  | _ => simp only [Assembly.truncation?, cutTarget?, hb, Option.map_none]

end Statement

/-- The warning is about an address out of range: behind the number of the line comes the text of that error. -/
def isRangeWarning (warning : String) : Bool :=
  (": " ++ Catalogue.text Catalogue.outOfReach).toList.isPrefixOf (unnumberedWarning warning).toList

theorem isRangeWarning_lineMessage (line : Int) (message : String) :
    isRangeWarning (lineMessage line message) =
      (Catalogue.text Catalogue.outOfReach).toList.isPrefixOf message.toList := by
  have hcolon (text : String) : (": " ++ text).toList = ':' :: ' ' :: text.toList := by simp
  rw [isRangeWarning, unnumberedWarning_lineMessage, hcolon, hcolon]
  simp

theorem isRangeWarning_cutMessage (s : Statement) (target : Int) :
    isRangeWarning (lineMessage s.line (s.cutMessage target)) = true := by
  rw [isRangeWarning_lineMessage, List.isPrefixOf_iff_prefix]
  simp only [Statement.cutMessage, String.toList_append, List.append_assoc]
  exact List.prefix_append _ _

theorem isRangeWarning_of_head {line : Int} {message : String} (h : message.toList.head? ≠ some 'd') :
    isRangeWarning (lineMessage line message) = false := by
  have htext : (Catalogue.text Catalogue.outOfReach).toList = 'd' :: "isplacement out of range".toList := by decide
  rw [isRangeWarning_lineMessage, htext]
  cases hm : message.toList with
  | nil => rfl
  | cons c rest =>
      have hc : 'd' ≠ c := by
        rintro rfl
        rw [hm] at h
        exact h rfl
      simp [List.isPrefixOf, hc]

/-- No warning of the first pass is about a range: it begins with the name of an operator. -/
theorem Statement.isRangeWarning_caution {file text message : String} {line offset : Int} {s : Statement}
    (h : parse file text line offset = .ok s) (hm : s.caution? = some message) :
    isRangeWarning (lineMessage s.line message) = false := by
  have hname (name rest : String) (hne : name.toList ≠ []) (hn : name.toList.head? ≠ some 'd') :
      (name ++ rest).toList.head? ≠ some 'd' := by
    rw [String.toList_append, List.head?_append_of_ne_nil _ hne]
    exact hn
  apply isRangeWarning_of_head
  cases hb : s.body with
  | instruction i =>
      have hop : ∀ op ∈ opcodes, op.mnemonic.toList ≠ [] ∧ op.mnemonic.toList.head? ≠ some 'd' := by decide
      have hwell := (parse_parsed h).wellFormed
      simp only [WellFormed, hb] at hwell
      obtain ⟨hne, hn⟩ := hop i.opcode hwell.opcode
      simp only [caution?, hb, parse_mismatch h hb, Instruction.mismatch?] at hm
      split at hm
      · cases hm
      · cases hm
        simp only [String.append_assoc]
        exact hname _ _ hne hn
  | directive d value =>
      simp only [caution?, hb] at hm
      split at hm
      · split at hm
        · cases hm
          rw [String.append_assoc, String.append_assoc]
          cases d <;> exact hname _ _ (by decide) (by decide)
        · cases hm
      · cases hm
  | remark => simp [caution?, hb] at hm

namespace Assembly

variable {a b : Assembly} {s : Statement}

/-! ## The first pass -/

def cautions (statements : List Statement) : List String :=
  statements.filterMap fun s => s.caution?.map (lineMessage s.line)

/-- As long as there is no error, the log has the warnings that the statements call for. -/
def Cautioned (a : Assembly) : Prop :=
  a.errors.hasErrors = false → a.errors.warnings = cautions a.statements

theorem cautioned_of_hasErrors (h : a.errors.hasErrors = true) : Cautioned a := by
  intro hclean
  rw [h] at hclean
  cases hclean

/-- The warning that a change adds to the log. -/
def Change.warning? : Change → Option String
  | .warn message => some message
  | _ => none

theorem warnings_effect (a : Assembly) (change : Change) :
    (change.effect a).errors.warnings = a.errors.warnings ++ change.warning?.toList := by
  cases change with
  | warn message => rfl
  | _ => exact (List.append_nil _).symm

theorem runAll_warnings (l : List Change) (a : Assembly) :
    Ends (runAll l) a (fun _ b => b.errors.warnings = a.errors.warnings ++ l.filterMap (·.warning?))
      (fun _ _ => True) := by
  induction l generalizing a with
  | nil => exact (List.append_nil _).symm
  | cons change rest ih =>
      refine (change.run_effect a).bind ?_
      rintro _ _ rfl
      refine (ih _).imp fun _ b hb => ?_
      rw [hb, warnings_effect]
      cases hw : change.warning? <;> simp [hw]

theorem warnings_defineChanges (a : Assembly) (name : String) (address line : Int) :
    (defineChanges a name address line).filterMap (·.warning?) = [] := by
  unfold defineChanges
  split <;> rfl

theorem warnings_labelChanges (a : Assembly) (s : Statement) :
    (labelChanges a s).filterMap (·.warning?) = [] := by
  unfold labelChanges
  split
  · rfl
  · exact warnings_defineChanges _ _ _ _

theorem warnings_sizedChanges {changes : Nat → List Change}
    (h : ∀ size, (changes size).filterMap (·.warning?) = []) :
    (sizedChanges s changes).filterMap (·.warning?) = [] := by
  unfold sizedChanges
  split
  · exact h _
  · rfl

theorem warnings_operandChanges {i : Instruction} (hb : s.body = .instruction i)
    (h : ∀ d, .report d ∉ operandChanges a s i) : (operandChanges a s i).filterMap (·.warning?) = cautions [s] := by
  have hcaution : s.caution? = i.mismatch := by simp [Statement.caution?, hb]
  unfold operandChanges at h ⊢
  cases hm : i.mismatch with
  | none => simp [cautions, hcaution, hm]
  | some shape =>
      rw [hm] at h
      dsimp only at h ⊢
      split at h
      · exact absurd (List.mem_cons_of_mem _ (List.mem_singleton_self _)) (h _)
      · rename_i hstrict
        rw [if_neg hstrict]
        simp [warnChanges, Change.warning?, cautions, hcaution, hm]

theorem warnings_directiveChanges {d : Directive} {value : Nat} (hb : s.body = .directive d value) :
    (directiveChanges s d).filterMap (·.warning?) = cautions [s] := by
  have hnone (hc : s.caution? = none) : cautions [s] = [] := by simp [cautions, hc]
  unfold directiveChanges
  split
  · rename_i hreserve
    have hdata : d.isData = false := by
      cases d <;> first | rfl | cases hreserve
    rw [hnone (Statement.caution?_eq_none hb hdata)]
    exact warnings_sizedChanges fun _ => rfl
  · split
    · rename_i name rest ho
      split
      · rename_i hdata
        simp [warnChanges, Change.warning?, cautions, Statement.caution?, hb, ho, hdata]
      · rename_i hdata
        exact (hnone (Statement.caution?_eq_none hb (by simpa using hdata))).symm
    · exact (hnone (by simp only [Statement.caution?, hb])).symm

theorem warnings_bookChanges (h : ∀ d, .report d ∉ bookChanges a s) :
    (bookChanges a s).filterMap (·.warning?) = cautions [s] := by
  have hadvance : (advanceChanges s).filterMap (·.warning?) = [] := warnings_sizedChanges fun _ => rfl
  unfold bookChanges at h ⊢
  cases hb : s.body with
  | remark => simp [cautions, Statement.caution?, hb]
  | directive d value =>
      cases d with
      | start =>
          have hnone : cautions [s] = [] := by simp [cautions, Statement.caution?_eq_none hb rfl]
          rw [hnone]
          exact warnings_defineChanges _ _ _ _
      | _ =>
          simp only [List.filterMap_append, warnings_labelChanges, warnings_directiveChanges hb, hadvance,
            List.nil_append, List.append_nil]
  | instruction i =>
      rw [hb] at h
      have hoperands : ∀ d, .report d ∉ operandChanges a s i := fun d hd => h d (by simp [hd])
      simp only [List.filterMap_append, warnings_labelChanges, warnings_operandChanges hb hoperands, hadvance,
        List.nil_append, List.append_nil]

/-- A statement that is placed has had its warning by the end. -/
theorem placeChanges_cautioned (h : Cautioned a) :
    Ends (runAll (placeChanges a s)) a (fun _ => Cautioned) (fun _ _ => True) := by
  change Ends (runAll (bookChanges a s)) { a with statements := a.statements ++ [s] } _ _
  by_cases hreport : ∃ d, .report d ∈ bookChanges a s
  · obtain ⟨d, hd⟩ := hreport
    exact (runAll_reported hd).imp fun _ b hb => cautioned_of_hasErrors hb
  · let I (b : Assembly) : Prop :=
      b.statements = a.statements ++ [s] ∧ (a.errors.hasErrors = true → b.errors.hasErrors = true)
    have hkeep : Ends (runAll (bookChanges a s)) { a with statements := a.statements ++ [s] } (fun _ => I)
        (fun _ _ => True) := by
      refine runAll_ends (fun change hc b hb => ⟨?_, ?_⟩) (fun _ _ _ _ _ _ => trivial) ⟨rfl, id⟩
      · rw [(booking_of_mem change hc).statements, hb.1]
      · exact fun ha => change.hasErrors_effect (hb.2 ha)
    refine (hkeep.and (runAll_warnings _ _)).mono ?_ fun _ _ _ => trivial
    rintro _ b ⟨⟨hstatements, herrors⟩, hwarnings⟩ hclean
    have ha : a.errors.hasErrors = false := Bool.eq_false_iff.mpr fun ha => by
      rw [herrors ha] at hclean
      cases hclean
    rw [hwarnings, hstatements, warnings_bookChanges (not_exists.mp hreport), h ha]
    exact List.filterMap_append.symm

theorem placeLine_cautioned (number : Nat) (text : String) (a : Assembly) (h : Cautioned a) :
    Ends (placeLine number text) a (fun _ => Cautioned) (fun _ _ => True) := by
  refine placeLine_invariant ?_ fun _ _ => trivial
  unfold lineChanges
  split
  · exact placeChanges_cautioned h
  · rename_i d _
    have hd : .report d ∈ reportChanges number d := by simp [reportChanges]
    exact (runAll_reported hd).imp fun _ b hb => cautioned_of_hasErrors hb
  · exact h

theorem placed_of_pass1 {settings : Settings} {file : String} {a₀ : Assembly} {lines : List String} {ok : Bool}
    (h₀ : create settings file = .ok a₀) (h : pass1 lines a₀ = .ok ok a) : Placed a₀ a := by
  have hplaced := (pass1_settled lines h₀).placed
  rwa [Action.after, h] at hplaced

theorem parsed_of_pass1 {settings : Settings} {file : String} {a₀ : Assembly} {lines : List String} {ok : Bool}
    (h₀ : create settings file = .ok a₀) (h : pass1 lines a₀ = .ok ok a) (hs : s ∈ a.statements) :
    ∃ text line offset, Statement.parse file text line offset = .ok s := by
  have hscope := (pass1_scope lines h₀).1
  rw [Action.after, h] at hscope
  obtain ⟨k, text, -, -, offset, hparse⟩ := hscope s hs
  exact ⟨text, _, offset, hparse⟩

/-- The warnings behind a first pass without errors. -/
theorem pass1_warnings {settings : Settings} {file : String} {a₀ : Assembly} {lines : List String} {ok : Bool}
    (h₀ : create settings file = .ok a₀) (h : pass1 lines a₀ = .ok ok a) (hclean : a.errors.hasErrors = false) :
    a.errors.warnings = cautions a.statements := by
  have hlimit : a.limitReached = false := by rw [limitReached, hclean]; rfl
  have hstart : Cautioned { a₀ with phase := .pass1Running } := by
    obtain ⟨limit, -, rfl⟩ := create_eq_ok_iff.mp h₀
    exact fun _ => rfl
  obtain ⟨results, c, journal, hc, rfl⟩ := exists_parseLines (create_fresh h₀).1 h hlimit
  have hcautioned : Cautioned c := (placeLines_invariant placeLine_cautioned 1 lines hstart).of_ok hc
  exact hcautioned hclean

/-! ## The second pass -/

def cutWarnings (statements : List Statement) : List String :=
  statements.filterMap fun s => s.cutTarget?.map fun target => lineMessage s.line (s.cutMessage target)

theorem warnings_truncationChanges (l : List Statement) :
    (truncationChanges l).filterMap (·.warning?) = cutWarnings l := by
  rw [truncationChanges, List.filterMap_flatMap, cutWarnings, List.filterMap_eq_flatMap_toList]
  refine List.flatMap_congr fun s _ => ?_
  rw [s.truncation?_eq]
  cases s.cutTarget? <;> rfl

theorem warnTruncations_warnings (l : List Statement) (a : Assembly) :
    Ends (warnTruncations l) a (fun _ b => b.errors.warnings = a.errors.warnings ++ cutWarnings l)
      (fun _ _ => True) := by
  rw [warnTruncations_eq, ← warnings_truncationChanges]
  exact runAll_warnings _ _

theorem pass2_warnings (a : Assembly) : Ends pass2 a
    (fun ok b => ok = true → b.errors.warnings = a.errors.warnings ++ cutWarnings b.statements)
    (fun _ _ => True) := by
  have hall : Ends (untilFull resolveAll) { a with phase := .pass2Running }
      (fun _ b => b.errors.warnings = a.errors.warnings) (fun _ b => b.errors.warnings = a.errors.warnings) := by
    refine untilFull_ends ((resolveAll_ends _).mono ?_ ?_) fun _ _ _ h => h
    · rintro _ b ⟨hb, -⟩
      rw [hb.kept]
    · rintro _ b ⟨hb, -⟩
      rw [hb.kept]
  simp only [pass2, ends_bind, ends_get]
  split
  · trivial
  · split
    · intro hok
      cases hok
    · rw [ends_bind, enter, ends_modify]
      refine Ends.bind (Ends.imp_error hall fun _ _ _ => trivial) fun _ b hb => ?_
      rw [ends_bind, ends_get]
      split
      · rename_i herrors
        intro hok
        simp [herrors] at hok
      · have hwarn := (warnTruncations_ends (E := fun _ _ => True) b.statements).and
          (warnTruncations_warnings b.statements b)
        refine Ends.bind (hwarn.imp_error fun _ _ _ => trivial) ?_
        rintro _ c ⟨hc, hwarnings⟩ -
        rw [Warned] at hc
        change c.errors.warnings = a.errors.warnings ++ cutWarnings c.statements
        rw [hwarnings, hb, hc]

end Assembly

/-! ## What the field holds -/

/-- What the machine takes the field for: a signed number where it counts from the program counter. -/
def Fetched.reading (f : Fetched) : Int :=
  if f.isPcRelative then signed f.displacement else f.displacement

/-- Only a three-byte instruction has a displacement, which comes with the one flag that says what it counts from
and has room in twelve bits. -/
def Instruction.InField (i : Instruction) : Prop :=
  i.IsPlain ∨
    i.format = 3 ∧ ∃ d, i.displacement = some d ∧
      ((i.flags.pcRelative = true ∧ i.flags.baseRelative = false ∧ -2048 ≤ d ∧ d < 2048) ∨
        (i.flags.pcRelative = false ∧ i.flags.baseRelative = true ∧ 0 ≤ d ∧ d < 4096))

theorem Instruction.unplaced_isPlain (i : Instruction) : i.unplaced.IsPlain :=
  ⟨rfl, rfl, rfl⟩

theorem Instruction.withReach_inField {i : Instruction} (hf : i.format = 3) (next : Int) (base : Option Int)
    (target : Int) : (i.withReach (.choose next base target)).InField := by
  rcases Reach.choose_cases next base target with
    ⟨hnear, h⟩ | ⟨-, b, -, hmin, hmax, h⟩ | ⟨-, -, -, h⟩ | ⟨-, -, -, h⟩
  · rw [h]
    exact .inr ⟨hf, _, rfl, .inl ⟨rfl, rfl, hnear.1, by have := hnear.2; omega⟩⟩
  · rw [h]
    exact .inr ⟨hf, _, rfl, .inr ⟨rfl, rfl, hmin, by omega⟩⟩
  · rw [h]
    exact .inl i.unplaced_isPlain
  · rw [h]
    exact .inl i.unplaced_isPlain

theorem Statement.instruction?_eq_some {s : Statement} {i : Instruction} :
    s.instruction? = some i ↔ s.body = .instruction i := by
  cases hb : s.body <;> simp [instruction?, hb]

/-- The field of a three-byte instruction holds the address, unless that is cut. -/
theorem Statement.reading_iff {s : Statement} {i : Instruction} {target : Int} {rest : List Operand}
    (hw : s.WellFormed) (hb : s.body = .instruction i) (hf : i.format = 3) (ho : s.operands = .integer target :: rest)
    (hi : i.InField) :
    ∃ code f, s.code = .ok code ∧ Fetched.ofBytes? (byteDigits code) = some f ∧
      (f.reading = i.displacement.getD target ↔ s.cutTarget? = none) := by
  simp only [WellFormed, hb] at hw
  have haddress : i.address? s.operands = some (i.displacement.getD target) := by
    rw [ho, Instruction.address?]
    cases i.displacement <;> rfl
  obtain ⟨code, f, hcode, hbytes, hp, hbase, hd⟩ := Instruction.exists_fetched hw.opcode hf haddress
  refine ⟨code, f, by rw [Statement.code, hb]; exact hcode, hbytes, ?_⟩
  have hcut : s.cutTarget? = none ↔ ¬ (i.displacement = none ∧ ¬ IsLow target) := by
    simp [cutTarget?, hb, ho, hf]
  rw [hcut, Fetched.reading, hp, hd]
  rcases hi with ⟨hnone, hpc, -⟩ | ⟨-, d, hsome, ⟨hpc, -, hmin, hmax⟩ | ⟨hpc, -, hmin, hmax⟩⟩
  · rw [hnone, hpc, IsLow]
    simp only [Option.getD_none, Bool.false_eq_true, if_false, true_and, not_not]
    omega
  · rw [hsome, hpc]
    simp [Fetched.signed_emod hmin hmax]
  · rw [hsome, hpc]
    simp only [Option.getD_some, Bool.false_eq_true, if_false, reduceCtorEq, false_and, not_false_eq_true, iff_true]
    omega

namespace Assembly

variable {a b : Assembly}

theorem Resolved.inField {file : String} (h : Resolved a b) (hl : Laid file a.statements) :
    ∀ s ∈ b.statements, ∀ i, s.body = .instruction i → i.InField := by
  have hplain : ∀ s ∈ a.statements, ∀ i, s.body = .instruction i → i.InField := by
    intro s hs i hb
    obtain ⟨line, offset, hparsed⟩ := hl.parsed s hs
    exact .inl (hparsed.instruction i hb).2
  intro s' hs' i hb
  cases hrel : a.settings.relativeAddressing with
  | false =>
      rw [h.plain hrel] at hs'
      obtain ⟨s, hs, rfl⟩ := List.mem_map.mp hs'
      rw [s.resolve_body] at hb
      exact hplain s hs i hb
  | true =>
      rw [(h.plan hrel).1, plan_eq, List.map_map] at hs'
      obtain ⟨⟨s, k⟩, hs, rfl⟩ := List.mem_map.mp hs'
      simp only [Function.comp] at hb
      cases hr : s.reference? a.symbols with
      | none =>
          rw [Statement.revise_other hr, s.resolve_body] at hb
          exact hplain s (List.fst_mem_of_mem_zipIdx hs) i hb
      | some target =>
          obtain ⟨i₀, -, hb₀, hf, -⟩ := Statement.reference?_eq_some hr
          rw [(Statement.revise_reference hr hb₀).1] at hb
          cases hb
          exact Instruction.withReach_inField hf _ _ _

/-- After a second pass without errors, the warnings about ranges are those for the addresses that are cut, in the
order of the statements, and every other three-byte instruction has its displacement or its address whole. -/
theorem pass2_truncations {settings : Settings} {file : String} {lines : List String} {a₀ : Assembly} {ok : Bool}
    (h₀ : create settings file = .ok a₀) (h₁ : pass1 lines a₀ = .ok ok a) (h₂ : pass2 a = .ok true b) :
    b.errors.warnings.filter isRangeWarning = cutWarnings b.statements ∧
      ∀ s ∈ b.statements, ∀ (i : Instruction) (target : Int) (rest : List Operand), s.body = .instruction i →
        i.format = 3 → s.operands = .integer target :: rest →
        ∃ code f, s.code = .ok code ∧ Fetched.ofBytes? (byteDigits code) = some f ∧
          (f.reading = i.displacement.getD target ↔ s.cutTarget? = none) := by
  have hpassed : Passed a true b := (pass2_passed a).of_ok h₂
  obtain ⟨hclean, hresolved⟩ := hpassed.resolved rfl
  have hlaid := (placed_of_pass1 h₀ h₁).laid
  refine ⟨?_, fun s hs i target rest hb hf ho => ?_⟩
  · have hcautions : (cautions a.statements).filter isRangeWarning = [] := by
      rw [List.filter_eq_nil_iff]
      intro warning hw
      obtain ⟨s, hs, hcaution⟩ := List.mem_filterMap.mp hw
      obtain ⟨message, hm, rfl⟩ := Option.map_eq_some_iff.mp hcaution
      obtain ⟨text, line, offset, hparse⟩ := parsed_of_pass1 h₀ h₁ hs
      rw [Statement.isRangeWarning_caution hparse hm]
      simp
    have hcuts : (cutWarnings b.statements).filter isRangeWarning = cutWarnings b.statements := by
      rw [List.filter_eq_self]
      intro warning hw
      obtain ⟨s, hs, hcut⟩ := List.mem_filterMap.mp hw
      obtain ⟨target, -, rfl⟩ := Option.map_eq_some_iff.mp hcut
      exact isRangeWarning_cutMessage s target
    rw [(pass2_warnings a).of_ok h₂ rfl, pass1_warnings h₀ h₁ hclean, List.filter_append, hcautions, hcuts,
      List.nil_append]
  · have hwell := hpassed.reworked.wellFormed hlaid.wellFormed s hs
    exact Statement.reading_iff hwell hb hf ho (hresolved.inField hlaid s hs i hb)

/-- Two addresses that are cut, with two warnings of the first pass between them, and a jump that is not. -/
theorem pass2_truncations_two :
    let lines := ["P       START  0", "        LDA    5000", "        BYTE   NIL", "        ADDR   A",
      "        STA    -1", "LOOP    J      LOOP"]
    ∃ (a₀ a b : Assembly) (s : Statement) (i : Instruction) (code : List Char) (f : Fetched),
      create { relativeAddressing := true } "two.asm" = .ok a₀ ∧ pass1 lines a₀ = .ok true a ∧
      pass2 a = .ok true b ∧ b.errors.warnings.length = 4 ∧
      b.errors.warnings.filter isRangeWarning =
        ["line 2: displacement out of range: LDA target 001388 truncated to 388, use +LDA",
          "line 5: displacement out of range: STA target -00001 truncated to FFF, use +STA"] ∧
      s ∈ b.statements ∧ s.body = .instruction i ∧ i.format = 3 ∧ s.operands = [.integer 9] ∧
      s.code = .ok code ∧ Fetched.ofBytes? (byteDigits code) = some f ∧ f.reading = -3 := by
  intro lines
  obtain ⟨a₀, h₀⟩ : ∃ a₀, create { relativeAddressing := true } "two.asm" = .ok a₀ := ⟨_, rfl⟩
  have hrun :
      let a : Assembly := (pass1 lines).after a₀
      let b : Assembly := pass2.after a
      (pass1 lines).value? a₀ = some true ∧ pass2.value? a = some true ∧ b.errors.warnings.length = 4 ∧
      cutWarnings b.statements =
        ["line 2: displacement out of range: LDA target 001388 truncated to 388, use +LDA",
          "line 5: displacement out of range: STA target -00001 truncated to FFF, use +STA"] ∧
      ∃ s ∈ b.statements, ∃ i ∈ s.instruction?, i.format = 3 ∧ s.operands = [.integer 9] ∧
        i.displacement = some (-3) ∧ s.cutTarget? = none := by
    cases h₀
    decide +kernel
  obtain ⟨h₁, h₂, hcount, hcuts, s, hs, i, hi, hf, ho, hd, hnone⟩ := hrun
  have h₁ := Action.eq_ok_of_value? h₁
  have h₂ := Action.eq_ok_of_value? h₂
  obtain ⟨hwarnings, hfields⟩ := pass2_truncations h₀ h₁ h₂
  have hb := Statement.instruction?_eq_some.mp hi
  obtain ⟨code, f, hcode, hbytes, hreading⟩ := hfields s hs i 9 [] hb hf ho
  refine ⟨a₀, _, _, s, i, code, f, h₀, h₁, h₂, hcount, hwarnings.trans hcuts, hs, hb, hf, ho, hcode, hbytes, ?_⟩
  rw [hreading.mpr hnone, hd]
  rfl

end Assembly

end TwoPass
