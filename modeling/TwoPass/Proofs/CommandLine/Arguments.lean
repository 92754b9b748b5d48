import TwoPass.CommandLine.Arguments

/-!
Command lines that are accepted. Every option with a value has been looked at when the files to be written are
checked, so all paths of a job can be asked for, and the file to be read has been found.
-/

namespace TwoPass.CommandLine

/-! ## Scanning -/

/-- Options with values are among the options in use. -/
def Scan.Ordered (scan : Scan) : Prop :=
  ∀ entry ∈ scan.values, entry.1 ∈ scan.order

variable {scan : Scan}

theorem Scan.Ordered.useFlag (h : scan.Ordered) (switch : Switch) : (scan.useFlag switch).Ordered :=
  fun entry hentry => List.mem_append_left _ (h entry hentry)

theorem Scan.Ordered.useValue (h : scan.Ordered) (switch : Switch) (value : String) :
    (scan.useValue switch value).Ordered := by
  intro entry hentry
  rcases List.mem_append.mp hentry with hentry | hentry
  · exact List.mem_append_left _ (h entry hentry)
  · rw [List.mem_singleton.mp hentry]
    exact List.mem_append_right _ (List.mem_singleton.mpr rfl)

theorem scanLong_ordered {argument : List Char} {pending : Pending} (h : scan.Ordered)
    (hscan : scanLong scan argument = .ok pending) : pending.1.Ordered := by
  unfold scanLong at hscan
  dsimp only at hscan
  split at hscan
  · cases hscan
  · split at hscan
    · split at hscan
      · cases hscan
        exact h.useValue _ _
      · cases hscan
        exact h
    · split at hscan
      · cases hscan
        exact h.useFlag _
      · cases hscan

theorem scanShort_ordered {letters : List Char} {pending : Pending} (h : scan.Ordered)
    (hscan : scanShort scan letters = .ok pending) : pending.1.Ordered := by
  induction letters generalizing scan with
  | nil =>
      cases hscan
      exact h
  | cons c rest ih =>
      unfold scanShort at hscan
      dsimp only at hscan
      split at hscan
      · cases hscan
      · split at hscan
        · split at hscan
          · cases hscan
            exact h
          · cases hscan
            exact h.useValue _ _
        · exact ih (h.useFlag _) hscan

theorem scanOption_ordered {argument : List Char} {pending : Pending} (h : scan.Ordered)
    (hscan : scanOption scan argument = .ok pending) : pending.1.Ordered := by
  unfold scanOption at hscan
  split at hscan
  · exact scanLong_ordered h hscan
  · exact scanShort_ordered h hscan

theorem scanAll_ordered {arguments : List String} {scan' : Scan} (h : scan.Ordered)
    (hscan : scanAll scan arguments = .ok scan') : scan'.Ordered := by
  fun_induction scanAll scan arguments with
  | case1 scan =>
      cases hscan
      exact h
  | case2 scan rest =>
      cases hscan
      exact h
  | case3 scan argument rest hdashes hoption e he => cases hscan
  | case4 scan argument rest hdashes hoption next hnext ih => exact ih (scanOption_ordered h hnext) hscan
  | case5 scan argument hdashes hoption next switch name hnext => cases hscan
  | case6 scan argument hdashes hoption next switch name hnext value rest ih =>
      exact ih ((scanOption_ordered h hnext).useValue switch value) hscan
  | case7 scan argument rest hdashes hoption ih => exact ih h hscan

/-! ## Checks -/

variable {files : FileStore}

theorem mem_order_of_value? (h : scan.Ordered) {switch : Switch} {path : String}
    (hvalue : scan.value? switch = some path) : switch ∈ scan.order := by
  obtain ⟨before, after, hsplit, -⟩ := List.lookup_eq_some_iff.mp hvalue
  exact h (switch, path) (List.mem_reverse.mp (by rw [hsplit]; simp))

theorem checkOutputs_hasNull {switches : List Switch} (h : checkOutputs files scan switches = .ok ())
    {switch : Switch} (hswitch : switch ∈ switches) {path : String} (hvalue : scan.value? switch = some path) :
    Path.hasNull path = false := by
  induction switches with
  | nil => cases hswitch
  | cons first rest ih =>
      rw [checkOutputs] at h
      cases hfirst : checkOutput files scan first with
      | error e =>
          rw [hfirst] at h
          cases h
      | ok _ =>
          rw [hfirst] at h
          rcases List.mem_cons.mp hswitch with rfl | hswitch
          · rw [checkOutput, hvalue] at hfirst
            dsimp only at hfirst
            cases hnull : Path.hasNull path with
            | false => rfl
            | true =>
                rw [inquire, hnull, if_pos rfl] at hfirst
                cases hfirst
          · exact ih h hswitch

theorem checkInput_eq {input : String} (h : checkInput files scan = .ok input) :
    Path.hasNull input = false ∧ ∃ node, files.look? input = some node ∧ node ≠ .directory := by
  unfold checkInput at h
  split at h
  · cases h
  · rename_i path more harguments
    cases hnull : Path.hasNull path with
    | true =>
        rw [inquire, hnull, if_pos rfl] at h
        cases h
    | false =>
        rw [inquire, hnull, if_neg (by simp)] at h
        split at h
        · cases h
        · cases h
        · cases h
        · rename_i node hfile hlook
          cases h
          exact ⟨hnull, node, Except.ok.inj hlook, hfile⟩

/-! ## Jobs -/

theorem usable_jobOf {input : String} (hinput : checkInput files scan = .ok input)
    (hvalues : ∀ switch path, scan.value? switch = some path → Path.hasNull path = false) :
    (jobOf scan input).Usable files := by
  have hpath (switch : Switch) (path : String) (h : (scan.value? switch).map Path.plain = some path) :
      ∃ text, Path.Spells text path := by
    obtain ⟨text, hvalue, rfl⟩ := Option.map_eq_some_iff.mp h
    exact ⟨text, hvalues switch text hvalue, rfl⟩
  obtain ⟨hnull, node, hlook, hnode⟩ := checkInput_eq hinput
  refine ⟨⟨input, node, ⟨hnull, rfl⟩, hlook, hnode⟩, ?_⟩
  rintro path (h | h | h)
  · exact hpath .output path h
  · exact hpath .listing path h
  · exact hpath .symbols path h

/-- A run is asked for only after all checks. -/
theorem requestOf_assemble {job : Job} (h : requestOf files scan = .ok (.assemble job)) :
    checkOutputs files scan scan.order = .ok () ∧ ∃ input, checkInput files scan = .ok input ∧
      job = jobOf scan input := by
  unfold requestOf at h
  split at h
  · cases h
  · cases h
  · split at h
    · cases h
    · rename_i houtputs
      split at h
      · cases h
      · rename_i input hinput
        split at h
        · cases h
          exact ⟨houtputs, input, hinput, rfl⟩
        · cases h

theorem parse_usable {arguments : List String} {job : Job} (h : parse files arguments = .ok (.assemble job)) :
    job.Usable files := by
  unfold parse at h
  cases hscan : scanAll {} arguments with
  | error e =>
      rw [hscan] at h
      cases h
  | ok scan =>
      rw [hscan] at h
      obtain ⟨houtputs, input, hinput, rfl⟩ := requestOf_assemble h
      have hordered : scan.Ordered := scanAll_ordered (fun entry hentry => by cases hentry) hscan
      refine usable_jobOf hinput fun switch path hvalue => ?_
      exact checkOutputs_hasNull houtputs (mem_order_of_value? hordered hvalue) hvalue

theorem sound_readArguments : Reader.Sound readArguments := by
  intro files arguments job h
  unfold readArguments at h
  split at h
  · cases h
  · cases h
  · cases h
  · cases h
  · rename_i hparse
    cases h
    exact parse_usable hparse

end TwoPass.CommandLine
