import TwoPass.Proofs.Session.Strictness

/-!
A file and its text. Reading a file brings its line breaks into one form, and that leaves the lines what they were,
so a session answers to a file as it answers to the text that the file holds, whatever it has assembled before.
-/

namespace TwoPass

open TwoPass.Action (Agree Ends bind_run)

/-! ## Lines -/

namespace Text

theorem splitLines_break {c : Char} {rest : List Char} (hc : isLineBreak c = true)
    (hpair : ∀ tail, c = '\r' → rest ≠ '\n' :: tail) : splitLines (c :: rest) = [] :: splitLines rest := by
  rw [splitLines.eq_3 c rest fun tail h => hpair tail h, if_pos hc]

/-- Breaks in one form leave the lines as they are. -/
theorem splitLines_unifyBreaks (cs : List Char) : splitLines (unifyBreaks cs) = splitLines cs := by
  fun_induction unifyBreaks cs with
  | case1 => rfl
  | case2 rest ih =>
      rw [splitLines_break rfl (by simp), ih]
      rfl
  | case3 c rest hpair ih =>
      by_cases hc : c = '\r'
      · rw [if_pos hc, splitLines_break rfl (by simp), ih, splitLines_break (by rw [hc]; rfl) hpair]
      · rw [if_neg hc, splitLines.eq_3 c _ fun _ h _ => hc h, splitLines.eq_3 c rest fun _ h _ => hc h, ih]

end Text

theorem sourceLines_unifyBreaks (source : String) :
    sourceLines (String.ofList (Text.unifyBreaks source.toList)) = sourceLines source := by
  rw [sourceLines, sourceLines, String.toList_ofList, Text.splitLines_unifyBreaks]

/-! ## Sessions -/

namespace Session

variable {s t : Session} {path content : String}

/-- All that assembling asks of a text is what its lines are. -/
theorem assembleText_congr {source source' : String} (h : sourceLines source = sourceLines source')
    (file : String) : assembleText source file = assembleText source' file := by
  rw [assembleText, assembleText, h]

theorem assembleFile_run (hpath : Path.hasNull path = false)
    (hfile : s.files.contents (Path.plain path) = .ok content) :
    assembleFile path s = assembleText content (Path.plain path) s := by
  have hcheck : checkPath path s = .ok () s := by
    rw [checkPath, hpath]
    rfl
  have hread : s.files.read (Path.plain path) = .ok (String.ofList (Text.unifyBreaks content.toList)) := by
    rw [FileStore.read, hfile]
    rfl
  rw [assembleFile, bind_run, hcheck]
  dsimp only
  rw [bind_run, Action.get_run]
  dsimp only
  rw [hread, bind_run]
  exact congrFun (assembleText_congr (sourceLines_unifyBreaks content) _) s

/-- An assembly starts afresh, so sessions with the same settings give the same answer. -/
theorem assembleText_again {source file : String} {a₀ : Assembly} (hsettings : t.settings = s.settings)
    (hcreate : Assembly.create s.settings file = .ok a₀) :
    Ends (assembleText source file) s
      (fun result s' => ∃ t', assembleText source file t = .ok result t' ∧ t'.assembly = s'.assembly)
      (fun failure s' => ∃ t', assembleText source file t = .error failure t' ∧ t'.assembly = s'.assembly) := by
  have hfile : a₀.file = file := (Assembly.placed_create hcreate).2.2.2
  have hsame : ∀ {s' t' : Session}, Alike id file s' t' → t'.assembly = s'.assembly := fun h => h.same
  have hfirst : Agree (Assembly.Retuned id file) (Assembly.pass1 (sourceLines source))
      (Assembly.pass1 (sourceLines source)) :=
    Assembly.agree_pass1 _ fun _ _ _ _ _ _ _ => Assembly.checksAlike_of_strict fun _ => rfl
  have halike := assembleText_alike hcreate (hsettings ▸ hcreate) ⟨hfile, rfl⟩ hfirst
    (Assembly.agree_pass2 fun _ => rfl)
  refine halike.mono ?_ ?_
  · rintro result s' ⟨t', ht', h⟩
    exact ⟨t', ht', hsame h⟩
  · rintro failure s' ⟨t', ht', h⟩
    exact ⟨t', ht', hsame h⟩

/-- A session assembles a file as it assembles the text of the file under the plain name of the file, and so does any
other session with the same settings. Whatever breaks a text has, it has the same lines once they are in one form. -/
theorem assembleFile_agrees {a₀ : Assembly} (hpath : Path.hasNull path = false)
    (hfile : s.files.contents (Path.plain path) = .ok content) (hsettings : t.settings = s.settings)
    (hcreate : Assembly.create s.settings (Path.plain path) = .ok a₀) :
    assembleFile path s = assembleText content (Path.plain path) s ∧
    Ends (assembleFile path) s
      (fun result s' => ∃ t', assembleText content (Path.plain path) t = .ok result t' ∧
        t'.assembly = s'.assembly)
      (fun failure s' => ∃ t', assembleText content (Path.plain path) t = .error failure t' ∧
        t'.assembly = s'.assembly) ∧
    ∀ cs, Text.splitLines (Text.unifyBreaks cs) = Text.splitLines cs := by
  have hrun := assembleFile_run hpath hfile
  refine ⟨hrun, ?_, Text.splitLines_unifyBreaks⟩
  rw [Ends, hrun]
  exact assembleText_again hsettings hcreate

/-- All forms of breaks in one file, with an error in its fourth line; the other session tells of its progress. -/
theorem assembleFile_agrees_mixed :
    let content := "P       START  1000\r\r\nTOP     LDA    TOP\x0b        J      NIL\n\r        RESB   3\r"
    ∃ s t s' t' : Session, create {} false (.ofList [("mix.asm", .text content)]) = .ok s ∧
      create {} true {} = .ok t ∧ Path.hasNull "./mix.asm" = false ∧ s.files.contents "mix.asm" = .ok content ∧
      assembleFile "./mix.asm" s = .ok none s' ∧ assembleText content "mix.asm" t = .ok none t' ∧
      t'.assembly = s'.assembly ∧ s'.assembly.errors.errors.map (·.line) = [some 4] := by
  intro content
  obtain ⟨s, hs⟩ : ∃ s, create {} false (.ofList [("mix.asm", .text content)]) = .ok s := ⟨_, rfl⟩
  obtain ⟨t, ht⟩ : ∃ t, create {} true {} = .ok t := ⟨_, rfl⟩
  obtain ⟨a₀, h₀⟩ : ∃ a₀, Assembly.create {} "mix.asm" = .ok a₀ := ⟨_, rfl⟩
  have hsettings : s.settings = {} ∧ t.settings = {} := by cases hs; cases ht; exact ⟨rfl, rfl⟩
  have hplain : Path.plain "./mix.asm" = "mix.asm" := by decide +kernel
  have hpath : Path.hasNull "./mix.asm" = false := by decide +kernel
  have hfile : s.files.contents "mix.asm" = .ok content := by cases hs; decide +kernel
  have hrun : (assembleFile "./mix.asm").value? s = some none ∧
      ((assembleFile "./mix.asm").after s).assembly.errors.errors.map (·.line) = [some 4] := by
    cases hs
    decide +kernel
  have h := Action.eq_ok_of_value? hrun.1
  obtain ⟨-, hagree, -⟩ := assembleFile_agrees hpath (hplain ▸ hfile) (t := t) (by rw [hsettings.1, hsettings.2])
    (by rw [hsettings.1, hplain]; exact h₀)
  rw [hplain] at hagree
  obtain ⟨t', ht', hassembly⟩ := hagree.of_ok h
  exact ⟨s, t, _, t', hs, ht, hpath, hfile, h, ht', hassembly, hrun.2⟩

end Session

end TwoPass
