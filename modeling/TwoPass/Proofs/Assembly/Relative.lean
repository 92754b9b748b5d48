import TwoPass.Proofs.Assembly.Revision
import TwoPass.Proofs.Machine.Fetch

/-!
Relative addressing is sound: where both passes succeed and the object program is made, every three-byte
instruction that names a symbol leads the machine to the address of that symbol, by whichever of the three
ways was chosen and whatever the base register holds at that place.
-/

namespace TwoPass

open TwoPass.Action (Ends ends_bind ends_get)

/-! ## The choice of a displacement -/

/-- What each choice promises. -/
def Reach.Sound (next : Int) (base : Option Int) (target : Int) : Reach → Prop
  | .pcRelative d => d = target - next ∧ -2048 ≤ d ∧ d < 2048
  | .baseRelative d => ∃ b, base = some b ∧ d = target - b ∧ 0 ≤ d ∧ d < 4096
  | .direct => 0 ≤ target ∧ target < 4096
  | .outOfReach => False

theorem Reach.isPcRange_iff {n : Int} : isPcRange n = true ↔ -2048 ≤ n ∧ n < 2048 := by
  simp [isPcRange]

theorem Reach.isDirectRange_iff {n : Int} : isDirectRange n = true ↔ 0 ≤ n ∧ n < 4096 := by
  simp [isDirectRange]

theorem Reach.choose_sound {next target : Int} {base : Option Int} {reach : Reach}
    (h : choose next base target = reach) (hr : reach ≠ .outOfReach) : reach.Sound next base target := by
  unfold choose at h
  split at h
  · rename_i hpc; subst h; exact ⟨rfl, isPcRange_iff.mp hpc⟩
  · split at h
    · split at h
      · rename_i _ b hd; subst h; exact ⟨b, rfl, rfl, isDirectRange_iff.mp hd⟩
      · split at h
        · rename_i hd; subst h; exact isDirectRange_iff.mp hd
        · exact absurd h.symm hr
    · split at h
      · rename_i hd; subst h; exact isDirectRange_iff.mp hd
      · exact absurd h.symm hr

/-- The code made for a choice leads to the target. -/
theorem Instruction.withReach_reaches {i : Instruction} {offset target : Int} {base : Option Int}
    {reach : Reach} (rest : List Operand) (hop : i.opcode ∈ opcodes) (hf : i.format = 3)
    (h : reach.Sound (offset + 3) base target) :
    ∃ code f, (i.withReach reach).code (.integer target :: rest) = .ok code ∧
      Fetched.ofBytes? (byteDigits code) = some f ∧ f.Reaches offset base target := by
  cases reach with
  | pcRelative d =>
      obtain ⟨hd, hlow, hhigh⟩ := h
      obtain ⟨code, f, hcode, hbytes, hp, hb, hdisp⟩ :=
        exists_fetched (i := i.withReach (.pcRelative d)) hop hf (show _ = some d from rfl)
      change f.isPcRelative = true at hp
      change f.isBaseRelative = false at hb
      refine ⟨code, f, hcode, hbytes, by simp [hb], fun _ => ?_, by simp [hb], by simp [hp]⟩
      rw [hdisp, Fetched.signed_emod hlow hhigh]
      omega
  | baseRelative d =>
      obtain ⟨b, hbase, hd, hlow, hhigh⟩ := h
      obtain ⟨code, f, hcode, hbytes, hp, hb, hdisp⟩ :=
        exists_fetched (i := i.withReach (.baseRelative d)) hop hf (show _ = some d from rfl)
      change f.isPcRelative = false at hp
      change f.isBaseRelative = true at hb
      refine ⟨code, f, hcode, hbytes, by simp [hp], by simp [hp], fun _ => ⟨b, hbase, ?_⟩, by simp [hb]⟩
      rw [hdisp]
      omega
  | direct =>
      obtain ⟨hlow, hhigh⟩ := h
      obtain ⟨code, f, hcode, hbytes, hp, hb, hdisp⟩ :=
        exists_fetched (i := i.withReach .direct) hop hf
          (show address? _ (.integer target :: rest) = some target from rfl)
      change f.isPcRelative = false at hp
      change f.isBaseRelative = false at hb
      refine ⟨code, f, hcode, hbytes, by simp [hp], by simp [hp], by simp [hb], fun _ _ => ?_⟩
      rw [hdisp]
      omega
  | outOfReach => exact h.elim

/-! ## The base register -/

namespace Statement

def isBaseChange (s : Statement) : Bool :=
  match s.body with
  | .directive .base _ | .directive .noBase _ => true
  | _ => false

/-- What the base register holds behind a statement that changes it. -/
def newBase? (table : SymbolTable) (s : Statement) : Option Int :=
  match s.body with
  | .directive .base _ => baseValue? table s.operands
  | _ => none

end Statement

/-- What the base register holds behind these statements: the value of the last `BASE`, unless a `NOBASE`
comes after it. -/
def baseIn (table : SymbolTable) (statements : List Statement) : Option Int :=
  (statements.reverse.find? (·.isBaseChange)).bind (·.newBase? table)

theorem baseIn_snoc (table : SymbolTable) (l : List Statement) (s : Statement) :
    baseIn table (l ++ [s]) = if s.isBaseChange then s.newBase? table else baseIn table l := by
  cases h : s.isBaseChange <;> simp [baseIn, h]

theorem Statement.revise_base (table : SymbolTable) (file : String) (base : Option Int) (s : Statement) :
    (s.revise table file base).2 = if s.isBaseChange then s.newBase? table else base := by
  cases hb : s.body with
  | instruction i => simp [revise, isBaseChange, hb]
  | remark => simp [revise, isBaseChange, hb]
  | directive d value =>
      cases d with
      | base => cases hv : baseValue? table s.operands <;> simp [revise, isBaseChange, newBase?, hb, hv]
      | _ => simp [revise, isBaseChange, newBase?, hb]

/-- The scan holds the base register as the statements before say. -/
theorem revisions_append (table : SymbolTable) (file : String) (s : Statement) (rest : List Statement) :
    (before done : List Statement) → ∃ left right, left.length = before.length ∧
      revisions table file (baseIn table done) (before ++ s :: rest) =
        left ++ (s.revise table file (baseIn table (done ++ before))).1 :: right
  | [], done => ⟨[], _, rfl, by rw [List.append_nil]; rfl⟩
  | t :: before, done => by
      obtain ⟨left, right, hlen, h⟩ := revisions_append table file s rest before (done ++ [t])
      refine ⟨(t.revise table file (baseIn table done)).1 :: left, right, by simp [hlen], ?_⟩
      simp only [List.cons_append, revisions, List.cons.injEq, true_and]
      rw [Statement.revise_base, ← baseIn_snoc, h]
      simp

theorem Statement.resolve_eq_self {s : Statement} (table : SymbolTable) (h : s.isBaseChange = true) :
    s.resolve table = s := by
  cases hb : s.body with
  | instruction i => simp [isBaseChange, hb] at h
  | _ => simp only [resolve, hb]

theorem Statement.resolve_body (s : Statement) (table : SymbolTable) :
    (s.resolve table).body = s.body := by
  cases hb : s.body <;> simp only [resolve, hb]

theorem baseIn_map_resolve (table : SymbolTable) (l : List Statement) :
    baseIn table (l.map (·.resolve table)) = baseIn table l := by
  induction l using List.reverseRecOn with
  | nil => rfl
  | append_singleton l s ih =>
      -- Only instructions are resolved, and none of them changes the base register.
      have hc : (s.resolve table).isBaseChange = s.isBaseChange := by
        simp only [Statement.isBaseChange, s.resolve_body]
      rw [List.map_append, List.map_singleton, baseIn_snoc, baseIn_snoc, ih, hc]
      split
      · rename_i h; rw [Statement.resolve_eq_self table h]
      · rfl

/-! ## One instruction -/

namespace Statement

variable {s : Statement} {i : Instruction} {rest : List Operand}

theorem resolve_symbol {table : SymbolTable} {name : String} (hb : s.body = .instruction i)
    (ho : s.operands = .symbol name :: rest) (hu : s.unresolvedErrors table = []) :
    ∃ address, table.address? name = some address ∧
      (s.resolve table).operands = .integer address :: rest.map (·.resolve table) := by
  simp only [unresolvedErrors, hb, ho, List.filterMap_cons, Operand.symbolName?] at hu
  cases ha : table.address? name with
  | none => simp [ha] at hu
  | some address => exact ⟨address, rfl, by simp only [resolve, hb, ho, List.map_cons, Operand.resolve, ha]⟩

theorem relocate_reaches {base : Option Int} {target : Int} (hb : s.body = .instruction i)
    (hop : i.opcode ∈ opcodes) (hf : i.format = 3) (ho : s.operands = .integer target :: rest)
    (hp : (s.relocate base).problem = none) :
    ∃ code f, (s.relocate base).statement.code = .ok code ∧
      Fetched.ofBytes? (byteDigits code) = some f ∧ f.Reaches s.offset base target := by
  have hsize : i.size = .ok 3 := Instruction.size_of_format (by rw [hf]; rfl)
  have hthree : s.offset + ((3 : Nat) : Int) = s.offset + 3 := rfl
  simp only [relocate, hb, hsize, ho, Instruction.target?, hthree, code] at hp ⊢
  have hr : Reach.choose (s.offset + 3) base target ≠ .outOfReach := by
    intro h
    rw [if_pos h] at hp
    cases hp
  exact Instruction.withReach_reaches rest hop hf (Reach.choose_sound rfl hr)

theorem revise_instruction {table : SymbolTable} {file : String} {base : Option Int}
    (hb : s.body = .instruction i) (hr : s.isRelocatable = true) :
    (s.revise table file base).1 = s.relocate base := by
  simp only [revise, hb, hr, if_true]

/-- An instruction that names a symbol leads to it, unless something is wrong. -/
theorem revise_reaches {table : SymbolTable} {file name : String} {line offset : Int} {base : Option Int}
    (hs : s.Parsed file line offset) (hb : s.body = .instruction i) (hf : i.format = 3)
    (ho : s.operands = .symbol name :: rest) (hu : s.unresolvedErrors table = [])
    (hp : ((s.resolve table).revise table file base).1.problem = none) :
    ∃ code f address, ((s.resolve table).revise table file base).1.statement.code = .ok code ∧
      Fetched.ofBytes? (byteDigits code) = some f ∧ table.address? name = some address ∧
      f.Reaches s.offset base address := by
  obtain ⟨address, haddress, ho'⟩ := resolve_symbol hb ho hu
  have hb' : (s.resolve table).body = .instruction i := (s.resolve_body table).trans hb
  have hw := hs.wellFormed
  simp only [WellFormed, hb] at hw
  have hrelocatable : (s.resolve table).isRelocatable = true := by
    simp [isRelocatable, hb', ho', hf, (hs.instruction i hb).1, ho, Operand.symbolName?]
  rw [revise_instruction hb' hrelocatable] at hp ⊢
  obtain ⟨code, f, hcode, hbytes, hreach⟩ := relocate_reaches hb' hw.opcode hf ho' hp
  rw [(Revised.resolve s table).offset] at hreach
  exact ⟨code, f, address, hcode, hbytes, haddress, hreach⟩

theorem isLoaded_of_isEmitted (h : s.isEmitted = true) : s.isLoaded = true := by
  cases hb : s.body with
  | instruction i => simp only [isLoaded, hb]
  | directive d value =>
      simp only [isEmitted, hb] at h
      simp only [isLoaded, hb]
      cases d <;> first | rfl | cases h
  | remark => simp [isEmitted, hb] at h

end Statement

theorem ObjectProgram.image_infix {limit : RecordLimit} {left right : List Statement} {s : Statement}
    {name : String} {start length : Int} {p : ObjectProgram}
    (hp : build limit (left ++ s :: right) name start length = .ok p)
    (h : ∀ t ∈ left ++ s :: right, t.WellFormed) (hs : s.isLoaded = true) : s.image <:+: p.image := by
  rw [image_of_build hp fun t ht => (h t ht).even_code, List.filter_append, List.filter_cons_of_pos hs,
    List.flatMap_append, List.flatMap_cons, ← List.append_assoc]
  exact List.infix_append _ _ _

namespace Assembly

theorem plan_split {a : Assembly} {k : Nat} {s : Statement} (h : a.statements[k]? = some s) :
    ∃ left right, left.length = k ∧ a.plan = left ++
      ((s.resolve a.symbols).revise a.symbols a.file (baseIn a.symbols (a.statements.take k))).1 :: right := by
  obtain ⟨hk, rfl⟩ := List.getElem?_eq_some_iff.mp h
  obtain ⟨left, right, hlen, hplan⟩ := revisions_append a.symbols a.file (a.statements[k].resolve a.symbols)
    ((a.statements.drop (k + 1)).map (·.resolve a.symbols))
    ((a.statements.take k).map (·.resolve a.symbols)) []
  rw [List.length_map, List.length_take_of_le (by omega)] at hlen
  rw [List.nil_append, baseIn_map_resolve] at hplan
  refine ⟨left, right, hlen, ?_⟩
  rw [← hplan, ← List.map_cons, ← List.map_append, ← List.drop_eq_getElem_cons hk, List.take_append_drop]
  rfl

/-- The object program `p` was made of the statements of `a`, and only `b` holds it. -/
structure Made (a : Assembly) (p : ObjectProgram) (b : Assembly) : Prop where
  build : ObjectProgram.build a.limit a.statements a.name a.start a.length = .ok p
  kept : b = { a with phase := .objectGenerated, object := some p, journal := b.journal }

theorem generateObject_made (a : Assembly) : Ends generateObject a
    (fun object b => (object = none → a.errors.hasErrors = true) ∧ ∀ p, object = some p → Made a p b)
    (fun _ _ => True) := by
  simp only [generateObject, ends_bind, ends_get]
  split
  · rename_i herrors
    exact ⟨fun _ => herrors, nofun⟩
  · split
    · trivial
    · rw [ends_bind]
      cases hbuild : ObjectProgram.build a.limit a.statements a.name a.start a.length with
      | error fault => trivial
      | ok p =>
          refine ⟨nofun, fun q hq => ?_⟩
          cases hq
          exact ⟨hbuild, rfl⟩

theorem generateObject_ends (a : Assembly) : Ends generateObject a
    (fun object b => ∀ p, object = some p →
      ObjectProgram.build a.limit a.statements a.name a.start a.length = .ok p ∧
      b.statements = a.statements ∧ b.symbols = a.symbols) (fun _ _ => True) := by
  refine (generateObject_made a).imp fun _ b h p hp => ?_
  have hmade := h.2 p hp
  exact ⟨hmade.build, by rw [hmade.kept], by rw [hmade.kept]⟩

/-- Where both passes succeed and the object program is made, a three-byte instruction that names a symbol
is loaded at its address and leads the machine to the address of the symbol. -/
theorem relative_reaches {settings : Settings} {file : String} {lines : List String} {a₀ a₁ a₂ a₃ : Assembly}
    {p : ObjectProgram} (hrel : settings.relativeAddressing = true) (h₀ : create settings file = .ok a₀)
    (h₁ : pass1 lines a₀ = .ok true a₁) (h₂ : pass2 a₁ = .ok true a₂)
    (h₃ : generateObject a₂ = .ok (some p) a₃) {k : Nat} {s : Statement} {i : Instruction} {name : String}
    {rest : List Operand} (hs : a₁.statements[k]? = some s) (hb : s.body = .instruction i)
    (hf : i.format = 3) (ho : s.operands = .symbol name :: rest) :
    ∃ (s' : Statement) (code : List Char) (f : Fetched) (address : Int),
      a₃.statements[k]? = some s' ∧ s'.code = .ok code ∧ bytesAt s.offset code <:+: p.image ∧
      Fetched.ofBytes? (byteDigits code) = some f ∧ a₃.symbols.address? name = some address ∧
      f.Reaches s.offset (baseIn a₃.symbols (a₁.statements.take k)) address := by
  obtain ⟨hp₀, hi₀, hsettings, -⟩ := placed_create h₀
  have hplaced : Placed a₀ a₁ := ((pass1_ends lines hp₀ hi₀).of_ok h₁).1.placed
  obtain ⟨hreworked, hresolved⟩ := (pass2_ends a₁).of_ok h₂
  obtain ⟨hbuild, hstatements, hsymbols⟩ := (generateObject_ends a₂).of_ok h₃ p rfl
  obtain ⟨hunresolved, hplan⟩ := hresolved rfl
  obtain ⟨hplan, hproblem⟩ := hplan (by rw [hplaced.settings, hsettings, hrel])
  have hmem : s ∈ a₁.statements := List.mem_of_getElem? hs
  obtain ⟨left, right, rfl, hsplit⟩ := plan_split hs
  rw [hsplit] at hproblem hplan
  rw [List.map_append, List.map_cons] at hplan
  obtain ⟨line, offset, hparsed⟩ := hplaced.laid.parsed s hmem
  obtain ⟨code, f, address, hcode, hbytes, haddress, hreach⟩ :=
    Statement.revise_reaches hparsed hb hf ho (hunresolved s hmem)
      (hproblem _ (List.mem_append_right left List.mem_cons_self))
  have hrevised := (Statement.Revised.resolve s a₁.symbols).trans
    (.revise _ a₁.symbols a₁.file (baseIn a₁.symbols (a₁.statements.take left.length)))
  have hloaded : bytesAt s.offset code <:+: p.image := by
    rw [hplan] at hbuild
    have himage := ObjectProgram.image_infix hbuild
      (hplan ▸ hreworked.wellFormed hplaced.laid.wellFormed)
      (Statement.isLoaded_of_isEmitted (by rw [hrevised.isEmitted, Statement.isEmitted, hb]))
    rwa [Statement.image, hcode, hrevised.offset] at himage
  rw [hsymbols, hreworked.symbols, hstatements, hplan]
  exact ⟨_, code, f, address, by simp, hcode, hloaded, hbytes, haddress, hreach⟩

/-- A target that only the base register reaches. -/
theorem relative_reaches_base :
    ∃ (a₀ a₁ a₂ a₃ : Assembly) (p : ObjectProgram) (s : Statement) (i : Instruction),
      create { relativeAddressing := true } "far.asm" = .ok a₀ ∧
      pass1 ["P       START  1000", "        BASE   FAR", "        LDA    FAR", "        RESB   4096",
        "FAR     WORD   5"] a₀ = .ok true a₁ ∧
      pass2 a₁ = .ok true a₂ ∧ generateObject a₂ = .ok (some p) a₃ ∧ a₁.statements[2]? = some s ∧
      s.body = .instruction i ∧ i.format = 3 ∧ s.operands = [.symbol "FAR"] ∧
      ∃ (s' : Statement) (code : List Char) (f : Fetched) (address : Int),
        a₃.statements[2]? = some s' ∧ s'.code = .ok code ∧ bytesAt s.offset code <:+: p.image ∧
        Fetched.ofBytes? (byteDigits code) = some f ∧ a₃.symbols.address? "FAR" = some address ∧
        f.Reaches s.offset (baseIn a₃.symbols (a₁.statements.take 2)) address ∧
        f = ⟨0x03, 0x4000⟩ := by
  obtain ⟨lines, hlines⟩ : ∃ lines, lines = ["P       START  1000", "        BASE   FAR",
    "        LDA    FAR", "        RESB   4096", "FAR     WORD   5"] := ⟨_, rfl⟩
  obtain ⟨a₀, h₀⟩ : ∃ a₀, create { relativeAddressing := true } "far.asm" = .ok a₀ := ⟨_, rfl⟩
  obtain ⟨s, i, hb, hf, ho, hrun⟩ : ∃ (s : Statement) (i : Instruction), s.body = .instruction i ∧
      i.format = 3 ∧ s.operands = [.symbol "FAR"] ∧
      let a₁ : Assembly := (pass1 lines).after a₀
      let a₂ : Assembly := pass2.after a₁
      (pass1 lines).value? a₀ = some true ∧ pass2.value? a₁ = some true ∧
      (generateObject.value? a₂).join.isSome = true ∧ a₁.statements[2]? = some s ∧
      (generateObject.after a₂).statements[2]?.map (·.code) = some (.ok "034000".toList) := by
    refine ⟨{ location := ⟨"far.asm", 3, labelColumn⟩, offset := 0x1000, operator := "LDA"
              operands := [.symbol "FAR"], operandText := "FAR", body := .instruction _ },
      { opcode := ⟨"LDA", [.general], [3, 4], 0⟩, format := 3, flags := { baseMachine := true }
        references := ["FAR"] }, rfl, rfl, rfl, ?_⟩
    cases h₀
    subst hlines
    decide +kernel
  obtain ⟨h₁, h₂, h₃, hs, hdigits⟩ := hrun
  obtain ⟨p, hp⟩ := Option.isSome_iff_exists.mp h₃
  have h₁ := Action.eq_ok_of_value? h₁
  have h₂ := Action.eq_ok_of_value? h₂
  have h₃ := Action.eq_ok_of_value? (Option.join_eq_some_iff.mp hp)
  obtain ⟨s', code, f, address, hs', hcode, hloaded, hbytes, haddress, hreach⟩ :=
    relative_reaches rfl h₀ h₁ h₂ h₃ hs hb hf ho
  rw [hs', Option.map_some, hcode] at hdigits
  cases hdigits
  subst hlines
  exact ⟨a₀, _, _, _, p, s, i, h₀, h₁, h₂, h₃, hs, hb, hf, ho, s', _, f, address, hs', hcode, hloaded,
    hbytes, haddress, hreach, Option.some.inj (hbytes.symm.trans (by decide))⟩

end Assembly

end TwoPass
