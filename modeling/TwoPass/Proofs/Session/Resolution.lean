import TwoPass.Session
import TwoPass.Proofs.Assembly.Completion

/-!
What a session answers when it assembles a text. It has an object program to show exactly when the error
log is empty, and then every symbol of an instruction stands for the one statement of that label, before or
after the reference, while all other operands are those that were written.
-/

namespace TwoPass

open TwoPass.Action (Ends ends_after ends_bind ends_get ends_modify ends_onPart)
open Layout

/-! ## Labels -/

namespace Layout

/-- Labels are distinct where no statement defines one again. -/
theorem pairwise_label {file : String} {l : List Statement} (h : redefinitions file l = []) :
    l.Pairwise fun s t => s.label = t.label → s.label = "" := by
  induction l using List.reverseRecOn with
  | nil => exact .nil
  | append_singleton l t ih =>
      rw [redefinitions_snoc, List.append_eq_nil_iff, Option.toList_eq_nil_iff] at h
      obtain ⟨hold, hnew⟩ := h
      refine List.pairwise_append.mpr ⟨ih hold, List.pairwise_singleton _ _, ?_⟩
      intro s hs u hu heq
      obtain rfl := List.mem_singleton.mp hu
      by_cases hempty : u.label = ""
      · rw [heq, hempty]
      · rw [redefinition?, if_neg hempty, Option.map_eq_none_iff, List.find?_eq_none] at hnew
        exact absurd (beq_iff_eq.mpr heq) (hnew s hs)

/-- A label that is not empty picks out its statement. -/
theorem filter_label {l : List Statement} {t : Statement}
    (h : l.Pairwise fun s t => s.label = t.label → s.label = "") (ht : t ∈ l) (hl : t.label ≠ "") :
    l.filter (·.label == t.label) = [t] := by
  induction l with
  | nil => cases ht
  | cons s rest ih =>
      obtain ⟨hs, hrest⟩ := List.pairwise_cons.mp h
      rcases List.mem_cons.mp ht with rfl | ht
      · have hnone : rest.filter (·.label == t.label) = [] := by
          refine List.filter_eq_nil_iff.mpr fun u hu heq => ?_
          exact hl (hs u hu (beq_iff_eq.mp heq).symm)
        rw [List.filter_cons_of_pos (by simp), hnone]
      · have hne : s.label ≠ t.label := fun heq => hl (heq ▸ hs t ht heq)
        rw [List.filter_cons_of_neg (by simpa using hne)]
        exact ih hrest ht

end Layout

/-! ## Operands -/

/-- `o'` is the address of the one statement that `o` names, or `o` itself if `o` is no symbol. -/
def Operand.ResolvedIn (statements : List Statement) (o o' : Operand) : Prop :=
  match o with
  | .symbol name => ∃ t, statements.filter (·.label == name) = [t] ∧ o' = .integer t.offset
  | _ => o' = o

/-- Of `s` only symbols of an instruction, its displacement and its flags differ in `s'`. -/
structure Statement.ResolvedIn (statements : List Statement) (s s' : Statement) : Prop where
  frame : s'.toFrame = { s.toFrame with operands := s'.operands }
  operands : s.instruction?.isSome = true →
    List.Forall₂ (Operand.ResolvedIn statements) s.operands s'.operands
  other : s.instruction? = none → s' = s

namespace Assembly

variable {a₀ a b : Assembly} {p : ObjectProgram}

theorem Complete.pairwise_label (h : Complete a p b) (hs : Settled a₀ a) :
    b.statements.Pairwise fun s t => s.label = t.label → s.label = "" := by
  have hnone : redefinitions a.file a.statements = [] := by
    rw [← hs.placed.recorded.redefined]
    have hclean := h.clean
    rw [ErrorLog.hasErrors, Bool.not_eq_false', List.isEmpty_iff] at hclean
    rw [hclean]
    rfl
  have hlabels : List.Forall₂ (· = ·) (a.statements.map (·.label)) (b.statements.map (·.label)) := by
    rw [List.forall₂_map_left_iff, List.forall₂_map_right_iff]
    exact h.statements.imp fun _ _ hc => hc.label.symm
  rw [List.forall₂_eq_eq_eq] at hlabels
  -- The property speaks of labels only, and these are the same in both lists.
  have hpairwise : (a.statements.map (·.label)).Pairwise fun x y => x = y → x = "" :=
    List.pairwise_map.mpr (Layout.pairwise_label hnone)
  rw [hlabels] at hpairwise
  exact List.pairwise_map.mp hpairwise

/-- A name that is resolved belongs to one statement, and the table has its address. -/
theorem Complete.labelled (h : Complete a p b) (hs : Settled a₀ a) {name : String} {address : Int}
    (ha : a.symbols.address? name = some address) :
    ∃ t, b.statements.filter (·.label == name) = [t] ∧ address = t.offset := by
  have hrec := hs.placed.recorded
  have hname : name ∈ labels a.statements := by
    rw [← List.mem_eraseDups, ← hrec.names]
    by_contra hn
    rw [← SymbolTable.find?_eq_none] at hn
    simp [SymbolTable.address?, hn] at ha
  obtain ⟨s, hfind, haddress⟩ := hrec.address? hname
  have hlabel : s.label = name := by simpa using List.find?_some hfind
  have hempty : name ≠ "" := by
    simp only [labels, List.mem_filter, decide_eq_true_eq] at hname
    exact hname.2
  obtain ⟨k, hk, hget⟩ := List.mem_iff_getElem.mp (List.mem_of_find?_eq_some hfind)
  have hlen := h.statements.length_eq
  have hcompleted := (List.forall₂_iff_get.mp h.statements).2 k hk (hlen ▸ hk)
  simp only [List.get_eq_getElem, hget] at hcompleted
  refine ⟨b.statements[k], ?_, ?_⟩
  · rw [← hlabel, ← hcompleted.label]
    refine filter_label (h.pairwise_label hs) (List.getElem_mem _) ?_
    rw [hcompleted.label, hlabel]
    exact hempty
  · rw [hcompleted.revised.offset]
    exact Option.some.inj (ha.symm.trans haddress)

theorem Complete.resolved (h : Complete a p b) (hs : Settled a₀ a) :
    List.Forall₂ (Statement.ResolvedIn b.statements) a.statements b.statements := by
  have hboth := (List.forall₂_and_left _ _).mpr ⟨h.unresolved, h.statements⟩
  refine hboth.imp fun s s' ⟨hu, hc⟩ => ⟨hc.revised.frame, fun hi => ?_, hc.eq_self⟩
  have hoperands : s'.operands = s.operands.map (·.resolve a.symbols) := by
    rw [hc.operands]
    cases hb : s.body with
    | instruction i => simp only [Statement.resolve, hb]
    | _ => simp [Statement.instruction?, hb] at hi
  rw [hoperands, List.forall₂_map_right_iff]
  refine List.forall₂_same.mpr fun o ho => ?_
  cases o with
  | symbol name =>
      obtain ⟨address, ha⟩ := Statement.exists_address hi hu ho
      obtain ⟨t, ht, rfl⟩ := h.labelled hs ha
      exact ⟨t, ht, by simp only [Operand.resolve, ha]⟩
  | _ => rfl

end Assembly

/-! ## The session -/

namespace Session

/-- What assembling lines under `settings` answers and leaves. -/
structure Outcome (settings : Settings) (file : String) (lines : List String) (result : Option String)
    (session : Session) : Prop where
  answer : result = none ↔ session.assembly.errors.hasErrors = true
  complete : ∀ text, result = some text → ∃ a₀ p, Assembly.create settings file = .ok a₀ ∧
    Assembly.Complete ((Assembly.pass1 lines).after a₀) p session.assembly ∧ text = p.render

theorem assembleText_outcome (session : Session) (source file : String) :
    Ends (assembleText source file) session (Outcome session.settings file (sourceLines source))
      (fun _ _ => True) := by
  simp only [assembleText, restart, note, record, onAssembly, ends_bind, ends_get, ends_modify, ends_onPart]
  cases hcreate : Assembly.create session.settings file with
  | error fault => trivial
  | ok a₀ =>
      change Ends (Assembly.pass1 (sourceLines source)) a₀ _ _
      refine (ends_after _ a₀).mono ?_ fun _ _ _ => trivial
      rintro _ a rfl
      refine (Assembly.pass2_passed _).mono ?_ fun _ _ _ => trivial
      intro ok b hb
      cases ok with
      | false =>
          have herrors : b.errors.hasErrors = true := by simpa using hb.answer.symm
          exact ⟨⟨fun _ => herrors, fun _ => rfl⟩, nofun⟩
      | true =>
          have herrors : b.errors.hasErrors = false := by simpa using hb.answer.symm
          rw [if_pos rfl, ends_bind, ends_onPart]
          refine (Assembly.generateObject_made _).mono ?_ fun _ _ _ => trivial
          rintro (_ | p) c ⟨hnone, hmade⟩
          · have hsome := hnone rfl
            rw [herrors] at hsome
            cases hsome
          · have hm := hmade p rfl
            have hc : c.errors.hasErrors = false := by rw [hm.kept]; exact herrors
            refine ⟨⟨nofun, fun h => ?_⟩, fun text ht => ⟨a₀, p, hcreate, hb.complete hm, ?_⟩⟩
            · rw [hc] at h
              cases h
            · cases ht
              rfl

/-- The passes behind an object program, each on what the one before it has left but for the journal. -/
theorem exists_passes {session session' : Session} {source file text : String}
    (h : assembleText source file session = .ok (some text) session') :
    ∃ a₀ ok a b, Assembly.create session.settings file = .ok a₀ ∧
      Assembly.pass1 (sourceLines source) a₀ = .ok ok a ∧
      Assembly.pass2 { a with journal := [] } = .ok true b ∧
      session'.assembly.statements = b.statements ∧ session'.assembly.symbols = b.symbols ∧
      session'.assembly.errors = b.errors := by
  have hends : Ends (assembleText source file) session
      (fun result s => result ≠ none → ∃ a₀ ok a b, Assembly.create session.settings file = .ok a₀ ∧
        Assembly.pass1 (sourceLines source) a₀ = .ok ok a ∧
        Assembly.pass2 { a with journal := [] } = .ok true b ∧
        s.assembly.statements = b.statements ∧ s.assembly.symbols = b.symbols ∧ s.assembly.errors = b.errors)
      (fun _ _ => True) := by
    simp only [assembleText, restart, note, record, onAssembly, ends_bind, ends_get, ends_modify, ends_onPart]
    cases hcreate : Assembly.create session.settings file with
    | error fault => trivial
    | ok a₀ =>
        change Ends (Assembly.pass1 (sourceLines source)) a₀ _ _
        cases hfirst : Assembly.pass1 (sourceLines source) a₀ with
        | error failure a => rw [Ends, hfirst]; trivial
        | ok ok a =>
            rw [Ends, hfirst]
            change Ends Assembly.pass2 { a with journal := [] } _ _
            cases hsecond : Assembly.pass2 { a with journal := [] } with
            | error failure b => rw [Ends, hsecond]; trivial
            | ok resolved b =>
                rw [Ends, hsecond]
                cases resolved with
                | false => exact fun hnone => absurd rfl hnone
                | true =>
                    dsimp only
                    rw [if_pos rfl, ends_bind, ends_onPart]
                    refine (Assembly.generateObject_made _).mono ?_ fun _ _ _ => trivial
                    rintro (_ | p) c ⟨-, hmade⟩
                    · exact fun hnone => absurd rfl hnone
                    · intro _
                      have hc := (hmade p rfl).kept
                      exact ⟨a₀, ok, a, b, rfl, hfirst, hsecond, by rw [hc], by rw [hc], by rw [hc]⟩
  exact hends.of_ok h (Option.some_ne_none text)

theorem exists_text {session : Session} {source file : String}
    (h : ((assembleText source file).value? session).join.isSome = true) :
    ∃ text, assembleText source file session = .ok (some text) ((assembleText source file).after session) := by
  obtain ⟨text, htext⟩ := Option.isSome_iff_exists.mp h
  exact ⟨text, Action.eq_ok_of_value? (Option.join_eq_some_iff.mp htext)⟩

/-- A session that has assembled a text answers with an object program unless an error was logged. Where
it does, no label is defined twice, symbols of instructions have become the addresses of the statements they
name, and all other operands are as they were placed. -/
theorem assembleText_resolved {session session' : Session} {source file : String} {result : Option String}
    (h : assembleText source file session = .ok result session') :
    (result = none ↔ session'.assembly.errors.errors ≠ []) ∧
    (result ≠ none → ∃ a₀, Assembly.create session.settings file = .ok a₀ ∧
      let final := session'.assembly.statements
      final.Pairwise (fun s t => s.label = t.label → s.label = "") ∧
      List.Forall₂ (Statement.ResolvedIn final)
        ((Assembly.pass1 (sourceLines source)).after a₀).statements final) := by
  have houtcome := (assembleText_outcome session source file).of_ok h
  refine ⟨?_, fun hresult => ?_⟩
  · rw [houtcome.answer, ErrorLog.hasErrors, Bool.not_eq_true', List.isEmpty_eq_false_iff]
  · obtain ⟨text, rfl⟩ := Option.ne_none_iff_exists'.mp hresult
    obtain ⟨a₀, p, hcreate, hcomplete, -⟩ := houtcome.complete text rfl
    have hsettled := Assembly.pass1_settled (sourceLines source) hcreate
    exact ⟨a₀, hcreate, hcomplete.pairwise_label hsettled, hcomplete.resolved hsettled⟩

/-- References forwards and backwards, to `START` and under relative addressing. -/
theorem assembleText_resolved_loop :
    let source := "P       START  1000\nLOOP    LDA    NEXT,X\n        J      LOOP\nNEXT    WORD   5\n" ++
      "        +J     P"
    ∃ (session session' : Session) (text : String),
      create { relativeAddressing := true } false {} = .ok session ∧
      assembleText source "loop.asm" session = .ok (some text) session' ∧
      session'.assembly.errors.errors = [] ∧
      (∃ a₀, Assembly.create session.settings "loop.asm" = .ok a₀ ∧
        let final := session'.assembly.statements
        final.Pairwise (fun s t => s.label = t.label → s.label = "") ∧
        List.Forall₂ (Statement.ResolvedIn final)
          ((Assembly.pass1 (sourceLines source)).after a₀).statements final) ∧
      session'.assembly.statements.map (·.operands) =
        [[.integer 0x1000], [.integer 0x1006], [.integer 0x1000], [.integer 5], [.integer 0x1000]] := by
  intro source
  obtain ⟨session, hcreate⟩ : ∃ session, create { relativeAddressing := true } false {} = .ok session :=
    ⟨_, rfl⟩
  have hrun : ((assembleText source "loop.asm").value? session).join.isSome = true ∧
      ((assembleText source "loop.asm").after session).assembly.statements.map (·.operands) =
        [[.integer 0x1000], [.integer 0x1006], [.integer 0x1000], [.integer 5], [.integer 0x1000]] := by
    cases hcreate
    decide +kernel
  obtain ⟨hsome, hoperands⟩ := hrun
  obtain ⟨text, h⟩ := exists_text hsome
  obtain ⟨hanswer, hresolved⟩ := assembleText_resolved h
  have hnone : ((assembleText source "loop.asm").after session).assembly.errors.errors = [] := by
    by_contra hne
    cases hanswer.mpr hne
  exact ⟨session, _, text, hcreate, h, hnone, hresolved nofun, hoperands⟩

end Session

end TwoPass
