import TwoPass.CommandLine.Run
import TwoPass.Proofs.CommandLine.Arguments
import TwoPass.Proofs.Session.Writing

/-!
What a run leaves in the files. If the source cannot be assembled, nothing is written; if errors are reported, the
listing is written and nothing else; otherwise object program, listing and symbols are written, as far as they are
asked for. All other places stay as they were, also if a write fails or the console refuses a message. If the console
takes all messages, the exit code says which of these happened and whether all could be written.
-/

namespace TwoPass.CommandLine

open TwoPass.Action (Ends bind_run ends_bind ends_get ends_onPart)

variable {console : Console} {job : Job} {a : Assembly}

/-! ## Settings -/

/-- The environment has one of the words for something that is switched on, in any letter case. -/
def SwitchesOn (environment : String → Option String) (name : String) : Prop :=
  ∃ text, environment name = some text ∧
    String.ofList (Text.lowerAscii (Text.trim text.toList)) ∈ ["1", "true", "yes", "on"]

/-- Settings from an environment and a job. Both can switch something on, and neither can switch it off for the other;
limits are those of the environment if it has any, and at least one. -/
structure Combines (environment : String → Option String) (job : Job) (settings : Settings) : Prop where
  strict : settings.strictOperands = true ↔ job.strict = true ∨ SwitchesOn environment "SICXE_STRICT_OPERANDS"
  relative : settings.relativeAddressing = true ↔
    job.relative = true ∨ SwitchesOn environment "SICXE_RELATIVE_ADDRESSING"
  maxErrors : settings.maxErrors =
    match (environment "SICXE_MAX_ERRORS").bind Number.parseSetting with
    | some limit => max 1 limit
    | none => 100
  recordLimit : settings.recordLimit = 60

theorem parseSwitch_eq_true {text : String} : Settings.parseSwitch text = some true ↔
    String.ofList (Text.lowerAscii (Text.trim text.toList)) ∈ ["1", "true", "yes", "on"] := by
  rw [← List.contains_iff_mem, Settings.parseSwitch]
  split
  · simp_all
  · split <;> simp_all

theorem switch_iff {environment : String → Option String} {name : String} {flag : Bool} :
    (((environment name).bind Settings.parseSwitch).getD false || flag) = true ↔
      flag = true ∨ SwitchesOn environment name := by
  unfold SwitchesOn
  cases h : environment name with
  | none => simp
  | some text =>
      rw [Option.bind_some, Bool.or_eq_true, or_comm]
      refine or_congr_right ?_
      rw [Option.getD_eq_iff, or_iff_left (by simp), parseSwitch_eq_true]
      simp

theorem combines_jobSettings (environment : String → Option String) (job : Job) :
    Combines environment job (jobSettings environment job) := by
  refine ⟨switch_iff, switch_iff, ?_, rfl⟩
  change ((environment "SICXE_MAX_ERRORS").bind Settings.parseLimit).getD 100 = _
  unfold Settings.parseLimit
  cases environment "SICXE_MAX_ERRORS" with
  | none => rfl
  | some text =>
      dsimp only [Option.bind_some]
      cases Number.parseSetting text <;> rfl

/-- Nothing about the settings is left open. -/
theorem Combines.unique {environment : String → Option String} {settings settings' : Settings}
    (h : Combines environment job settings) (h' : Combines environment job settings') : settings = settings' := by
  have hstrict := Bool.eq_iff_iff.mpr (h.strict.trans h'.strict.symm)
  have hrelative := Bool.eq_iff_iff.mpr (h.relative.trans h'.relative.symm)
  have herrors := h.maxErrors.trans h'.maxErrors.symm
  have hrecords := h.recordLimit.trans h'.recordLimit.symm
  cases settings
  cases settings'
  simp_all

/-- The environment leaves the limit of text records alone, so there is always a session. -/
theorem exists_session (environment : String → Option String) (files : FileStore) (job : Job) :
    ∃ session, Session.create (jobSettings environment job) job.verbose files = .ok session ∧
      session.files = files := by
  have hstandard : (jobSettings environment job).recordLimit = 60 := rfl
  have hlimit : RecordLimit.ofInt 60 = .ok .standard := dif_pos (by decide)
  rw [Session.create, Assembly.create, hstandard, hlimit]
  refine ⟨_, rfl, ?_⟩
  rfl

/-! ## Paths -/

/-- The path for the object program: the given one, or that of the source with another ending. -/
def Job.HasObjectPath (job : Job) (path : String) : Prop :=
  match job.output with
  | some given => path = given
  | none => Path.Renamed ".obj" job.input path

theorem Job.Usable.noNull {files : FileStore} (h : job.Usable files) {path : String}
    (hpath : job.output = some path ∨ job.listing = some path ∨ job.symbols = some path) :
    Path.hasNull path = false := by
  obtain ⟨text, hnull, rfl⟩ := h.targets path hpath
  exact Path.hasNull_plain hnull

theorem Job.Usable.objectPath {files : FileStore} (h : job.Usable files) :
    Path.hasNull job.objectPath = false ∧ Path.plain job.objectPath = job.objectPath ∧
      job.HasObjectPath job.objectPath := by
  unfold Job.objectPath Job.HasObjectPath
  cases houtput : job.output with
  | some path =>
      obtain ⟨text, -, rfl⟩ := h.targets path (.inl houtput)
      exact ⟨h.noNull (.inl houtput), Path.plain_plain text, rfl⟩
  | none =>
      obtain ⟨text, node, ⟨hnull, hinput⟩, hlook, hnode⟩ := h.source
      rw [hinput, Option.getD_none]
      refine ⟨?_, ?_, ?_⟩
      · exact Path.hasNull_withEnding (Path.hasNull_plain hnull) (by decide)
      · exact Path.plain_withEnding (Path.plain text) (by decide) (by decide)
      · exact Path.renamed_withEnding objectEnding (FileStore.plainNames_ne_nil hlook hnode)

namespace Run

/-! ## Messages -/

theorem session_append (r : Run) (channel : Channel) (text : String) : (r.append channel text).session = r.session := by
  cases channel <;> rfl

/-- A message leaves the session alone, and gets through if every message does. -/
theorem print_ends (console : Console) (channel : Channel) (text : String) (r : Run) :
    Ends (print console channel text) r (fun _ t => t.session = r.session)
      (fun _ t => t.session = r.session ∧ ¬ console.IsOpen) := by
  rw [print, ends_bind, ends_get]
  cases hrefuses : console.refuses channel (r.printed channel) text with
  | none => exact session_append r channel text
  | some fault =>
      refine ⟨rfl, fun hopen => ?_⟩
      rw [hopen] at hrefuses
      cases hrefuses

theorem progress_ends (console : Console) (message : String) (r : Run) :
    Ends (progress console message) r (fun _ t => t.session = r.session)
      (fun _ t => t.session = r.session ∧ ¬ console.IsOpen) := by
  rw [progress, ends_bind, ends_get]
  split
  · exact print_ends console _ _ r
  · rfl

/-! ## Actions that write -/

/-- How the writing of orders breaks off: with the first that cannot be written, or where a message is refused. -/
def BreaksOff (console : Console) (files : FileStore) (orders : List (String × String)) (failure : Failure)
    (left : FileStore) : Prop :=
  (∃ fault, failure = .fault (.file fault) ∧ files.writeAll orders = (left, some fault)) ∨
    ¬ console.IsOpen ∧ ∃ done, done <+: orders ∧ (files.writeAll done).1 = left

/-- In a run that has assembled `a`, the action writes the orders in turn and gives `value`. -/
def Writes {α : Type} (console : Console) (a : Assembly) (orders : List (String × String)) (value : α)
    (x : Action α) : Prop :=
  ∀ r, r.session.assembly = a →
    Ends x r
      (fun v t => v = value ∧ t.session.assembly = a ∧
        r.session.files.writeAll orders = (t.session.files, none))
      (fun failure t => BreaksOff console r.session.files orders failure t.session.files)

section

variable {α β : Type} {files : FileStore} {orders more : List (String × String)} {value : α} {result : β}

theorem BreaksOff.append {failure : Failure} {left : FileStore} (h : BreaksOff console files orders failure left)
    (more : List (String × String)) : BreaksOff console files (orders ++ more) failure left := by
  rcases h with ⟨fault, rfl, hwritten⟩ | ⟨hclosed, done, hdone, hleft⟩
  · exact .inl ⟨fault, rfl, by rw [FileStore.writeAll_append, hwritten]⟩
  · exact .inr ⟨hclosed, done, hdone.trans (List.prefix_append orders more), hleft⟩

theorem BreaksOff.after {failure : Failure} {files' left : FileStore}
    (h : BreaksOff console files' more failure left) (hwritten : files.writeAll orders = (files', none)) :
    BreaksOff console files (orders ++ more) failure left := by
  rcases h with ⟨fault, rfl, hmore⟩ | ⟨hclosed, done, hdone, hleft⟩
  · exact .inl ⟨fault, rfl, by rw [FileStore.writeAll_append, hwritten]; exact hmore⟩
  · refine .inr ⟨hclosed, orders ++ done, (List.prefix_append_right_inj orders).mpr hdone, ?_⟩
    rw [FileStore.writeAll_append, hwritten]
    exact hleft

theorem Writes.bind {x : Action α} {f : α → Action β} (hx : Writes console a orders value x)
    (hf : Writes console a more result (f value)) : Writes console a (orders ++ more) result (x >>= f) := by
  intro r hr
  rw [ends_bind]
  refine (hx r hr).mono ?_ fun _ t hbroken => hbroken.append more
  rintro _ t ⟨rfl, ht, hwritten⟩
  refine (hf t ht).mono ?_ fun _ u hbroken => hbroken.after hwritten
  rintro _ u ⟨rfl, hu, hmore⟩
  exact ⟨rfl, hu, by rw [FileStore.writeAll_append, hwritten]; exact hmore⟩

theorem writes_pure (value : α) : Writes console a [] value (pure value) :=
  fun _ hr => ⟨rfl, hr, rfl⟩

theorem writes_get_bind {f : Run → Action α}
    (h : ∀ r, r.session.assembly = a → Writes console a orders value (f r)) :
    Writes console a orders value (get >>= f) :=
  fun r hr => h r hr r hr

/-- What leaves the session alone writes nothing. -/
theorem writes_nothing {x : Action Unit} (h : ∀ r, Ends x r (fun _ t => t.session = r.session)
    (fun _ t => t.session = r.session ∧ ¬ console.IsOpen)) : Writes console a [] () x := by
  intro r hr
  refine (h r).mono ?_ ?_
  · intro _ t ht
    exact ⟨rfl, ht ▸ hr, by rw [ht]; rfl⟩
  · rintro _ t ⟨ht, hclosed⟩
    exact .inr ⟨hclosed, [], List.prefix_rfl, by rw [ht]; rfl⟩

theorem writes_progress (message : String) : Writes console a [] () (progress console message) :=
  writes_nothing (progress_ends console message)

theorem writes_onSession {x : Session.Action Unit} (h : ∀ s, s.assembly = a → Session.Writes orders x s) :
    Writes console a orders () (onSession x) := by
  intro r hr
  rw [onSession, ends_onPart]
  refine (h r.session hr).mono ?_ fun _ _ hfault => .inl hfault
  rintro _ t ⟨ht, hwritten⟩
  exact ⟨rfl, ht.trans hr, hwritten⟩

theorem writes_produce {write : String → Session.Action Unit} {path content : String} (words : String)
    (h : ∀ s, s.assembly = a → Session.Writes [(path, content)] (write path) s) :
    Writes console a [(path, content)] () (produce console write words path) :=
  (writes_onSession h).bind (writes_progress _)

theorem writes_whenGiven {path? : Option String} {action : String → Action Unit} {content : String}
    (h : ∀ path, path? = some path → Writes console a [(path, content)] () (action path)) :
    Writes console a (path?.toList.map fun path => (path, content)) () (whenGiven path? action) := by
  cases path? with
  | none => exact writes_pure ()
  | some path => exact h path rfl

end

/-! ## Ends of a run -/

/-- The text for the listing, if one is asked for. -/
def listingOrder (job : Job) (listing : String) : List (String × String) :=
  job.listing.toList.map fun path => (path, listing ++ "\n")

def symbolOrder (job : Job) (a : Assembly) : List (String × String) :=
  job.symbols.toList.map fun path => (path, a.symbolFile)

variable {files : FileStore} {listing : String}

theorem writes_reject (hjob : job.Usable files) (hlisting : a.listing = .ok listing) :
    Writes console a (listingOrder job listing) .build (reject console job) := by
  have hwrite : Writes console a (listingOrder job listing) ()
      (whenGiven job.listing fun path => onSession (Session.writeListing path)) := by
    refine writes_whenGiven fun path hpath => writes_onSession fun s hs => ?_
    exact Session.writes_writeListing (hjob.noNull (.inr (.inl hpath))) (hs ▸ hlisting)
  rw [← List.append_nil (listingOrder job listing)]
  exact writes_get_bind fun _ _ => (writes_nothing (print_ends console _ _)).bind (hwrite.bind (writes_pure _))

theorem writes_summarize : Writes console a [] () (summarize console) :=
  writes_get_bind fun _ _ => (writes_progress _).bind (writes_progress _)

theorem writes_deliver {p : ObjectProgram} (hjob : job.Usable files) (hobject : a.object = some p)
    (hlisting : a.listing = .ok listing) :
    Writes console a ((job.objectPath, p.render) :: (listingOrder job listing ++ symbolOrder job a)) .success
      (deliver console job) := by
  have hobjectFile : Writes console a [(job.objectPath, p.render)] ()
      (produce console Session.writeObject "Wrote " job.objectPath) :=
    writes_produce _ fun s hs =>
      Session.writes_writeObject hjob.objectPath.1 hjob.objectPath.2.1 (hs ▸ hobject)
  have hlistingFile : Writes console a (listingOrder job listing) ()
      (whenGiven job.listing (produce console Session.writeListing "Wrote listing to ")) :=
    writes_whenGiven fun path hpath => writes_produce _ fun s hs =>
      Session.writes_writeListing (hjob.noNull (.inr (.inl hpath))) (hs ▸ hlisting)
  have hsymbolFile : Writes console a (symbolOrder job a) ()
      (whenGiven job.symbols (produce console Session.writeSymbols "Wrote symbols to ")) :=
    writes_whenGiven fun path hpath => writes_produce _ fun s hs =>
      hs ▸ Session.writes_writeSymbols (hjob.noNull (.inr (.inr hpath)))
  rw [← List.append_nil (symbolOrder job a)]
  exact hobjectFile.bind (hlistingFile.bind (hsymbolFile.bind (writes_summarize.bind (writes_pure _))))

theorem writes_finish (console : Console) {value : Option String} {s : Session} (hjob : job.Usable files)
    (h : Session.Assembled value s) (hlisting : s.assembly.listing = .ok listing) :
    if s.assembly.errors.hasErrors then
      Writes console s.assembly (listingOrder job listing) .build (finish console job)
    else ∃ p, s.assembly.object = some p ∧ value = some p.render ∧
      Writes console s.assembly ((job.objectPath, p.render) :: (listingOrder job listing ++ symbolOrder job s.assembly))
        .success (finish console job) := by
  cases herrors : s.assembly.errors.hasErrors with
  | true =>
      refine writes_get_bind fun r hr => ?_
      rw [hr, herrors]
      exact writes_reject hjob hlisting
  | false =>
      obtain ⟨p, hobject, hvalue⟩ := h.object herrors
      refine ⟨p, hobject, hvalue, writes_get_bind fun r hr => ?_⟩
      rw [hr, herrors]
      exact writes_deliver hjob hobject hlisting

/-- A run goes on from what the session has assembled, unless its first message is refused. The journal is drained. -/
theorem perform_cases (console : Console) (job : Job) (session : Session) :
    (¬ console.IsOpen ∧ ∃ failure r, r.session = session ∧ perform console job { session } = .error failure r) ∨
      match Session.assembleFile job.input session with
      | .ok _ s => ∃ r : Run, r.session = { s with journal := [] } ∧
          perform console job { session } = finish console job r
      | .error failure s => ∃ r : Run, r.session = { s with journal := [] } ∧
          perform console job { session } = .error failure r := by
  rw [perform, bind_run]
  rcases (progress_ends console ("Assembling " ++ job.input ++ "...") { session }).cases with
    ⟨_, r, hprogress, hr⟩ | ⟨failure, r, hprogress, hr, hclosed⟩
  · rw [hprogress]
    refine .inr ?_
    dsimp only
    rw [bind_run, onSession, Action.onPart, show r.session = session from hr]
    cases Session.assembleFile job.input session with
    | ok value s => exact ⟨r.drain s, rfl, rfl⟩
    | error failure s => exact ⟨r.drain s, rfl, rfl⟩
  · rw [hprogress]
    exact .inl ⟨hclosed, failure, r, hr, rfl⟩

theorem lament_ends (console : Console) (job : Job) (failure : Failure) (r : Run) :
    Ends (lament console job failure) r (fun exit t => exit = exitCode failure ∧ t.session = r.session)
      (fun _ t => t.session = r.session ∧ ¬ console.IsOpen) := by
  rw [lament, ends_bind]
  exact (print_ends console _ _ r).mono (fun _ _ ht => ⟨rfl, ht⟩) fun _ _ h => h

end Run

/-! ## Outcomes -/

/-- A failure changes no file any more, and shows in the exit code if it can be reported. -/
theorem outcomeOf_error (console : Console) (job : Job) (failure : Failure) (r : Run) :
    (outcomeOf console job (.error failure r)).files = r.session.files ∧
      (console.IsOpen → (outcomeOf console job (.error failure r)).exit = exitCode failure) := by
  unfold outcomeOf
  rcases (Run.lament_ends console job failure r).cases with
    ⟨_, t, hlament, rfl, ht⟩ | ⟨_, t, hlament, ht, hclosed⟩
  · simp [hlament, Run.outcome, ht]
  · simp [hlament, Run.outcome, ht, hclosed]

/-- The orders were written in turn as far as possible, and the exit code is `code` if all of them were. Nothing else
has changed, whatever became of the orders and the messages about them. -/
structure Outcome.Delivers (outcome : Outcome) (console : Console) (files : FileStore)
    (orders : List (String × String)) (code : Nat) : Prop where
  kept : files.Kept orders outcome.files
  exit : console.IsOpen → outcome.exit.number = if (files.writeAll orders).2.isNone then code else 2
  /-- If all could be written, to different places, then each place has its text, but for those that keep none. -/
  texts : console.IsOpen → (files.writeAll orders).2 = none →
    (orders.map fun order => files.place? order.1).Nodup →
    ∀ order ∈ orders, files.look? order.1 ≠ some .sink → outcome.files.look? order.1 = some (.text order.2)

variable {files : FileStore} {orders : List (String × String)}

theorem delivers_of_closed {outcome : Outcome} (hclosed : ¬ console.IsOpen) (hkept : files.Kept orders outcome.files)
    (code : Nat) : outcome.Delivers console files orders code :=
  ⟨hkept, fun hopen => absurd hopen hclosed, fun hopen => absurd hopen hclosed⟩

theorem delivers_of_files {outcome : Outcome} {code : Nat} (hfiles : outcome.files = (files.writeAll orders).1)
    (hexit : console.IsOpen → outcome.exit.number = if (files.writeAll orders).2.isNone then code else 2) :
    outcome.Delivers console files orders code := by
  refine ⟨?_, hexit, fun _ hall hdistinct => ?_⟩
  · rw [hfiles]
    exact FileStore.kept_writeAll files orders
  · rw [hfiles]
    exact FileStore.look?_writeAll hall (List.pairwise_map.mp hdistinct)

theorem delivers_of_writes {exit : ExitCode} {x : Run.Action ExitCode} (h : Run.Writes console a orders exit x)
    (job : Job) {r : Run} (hr : r.session.assembly = a) :
    (outcomeOf console job (x r)).Delivers console r.session.files orders exit.number := by
  rcases (h r hr).cases with ⟨_, t, hx, rfl, -, hwritten⟩ | ⟨failure, t, hx, hbroken⟩
  · rw [hx]
    refine delivers_of_files ?_ fun _ => ?_
    · rw [hwritten]
      rfl
    · rw [hwritten]
      rfl
  · obtain ⟨hfiles, hexit⟩ := outcomeOf_error console job failure t
    rw [hx]
    rcases hbroken with ⟨fault, rfl, hwritten⟩ | ⟨hclosed, done, hdone, hleft⟩
    · refine delivers_of_files ?_ fun hopen => ?_
      · rw [hfiles, hwritten]
      · rw [hexit hopen, hwritten]
        rfl
    · refine delivers_of_closed hclosed ?_ _
      rw [hfiles, ← hleft]
      exact (FileStore.kept_writeAll _ done).mono fun _ horder => hdone.subset horder

section

variable {session s : Session}

theorem perform_fails {failure : Failure} (h : Session.assembleFile job.input session = .error failure s) :
    (outcomeOf console job (Run.perform console job { session })).files = session.files ∧
      (console.IsOpen → (outcomeOf console job (Run.perform console job { session })).exit = exitCode failure) := by
  have hkept := Session.keepsFiles_assembleFile job.input session
  have hperform := Run.perform_cases console job session
  rw [Ends, h] at hkept
  rw [h] at hperform
  rcases hperform with ⟨hclosed, failure', r, hr, hperform⟩ | ⟨r, hr, hperform⟩
  · rw [hperform, (outcomeOf_error console job failure' r).1, hr]
    exact ⟨rfl, fun hopen => absurd hopen hclosed⟩
  · obtain ⟨hfiles, hexit⟩ := outcomeOf_error console job failure r
    rw [hperform, hfiles, hr]
    exact ⟨hkept, hexit⟩

theorem perform_delivers {value : Option String} {exit : ExitCode}
    (h : Session.assembleFile job.input session = .ok value s)
    (hfinish : Run.Writes console s.assembly orders exit (Run.finish console job)) :
    (outcomeOf console job (Run.perform console job { session })).Delivers console session.files orders
      exit.number := by
  have hkept := Session.keepsFiles_assembleFile job.input session
  have hperform := Run.perform_cases console job session
  rw [Ends, h] at hkept
  rw [h] at hperform
  rcases hperform with ⟨hclosed, failure, r, hr, hperform⟩ | ⟨r, hr, hperform⟩
  · refine delivers_of_closed hclosed ?_ _
    rw [hperform, (outcomeOf_error console job failure r).1, hr]
    exact .refl session.files orders
  · have hfiles : r.session.files = session.files := by
      rw [hr]
      exact hkept
    rw [hperform, ← hfiles]
    exact delivers_of_writes hfinish job (by rw [hr])

end

/-- What a run leaves in the files, by how its assembly ends. It is the same for every reader of arguments that can be
relied on, and for every console. -/
theorem runWith_delivers {reader : Reader} (hreader : reader.Sound) (console : Console)
    (environment : String → Option String) {files : FileStore} {arguments : List String} {job : Job}
    (h : reader files arguments = .ok (.call job)) :
    ∃ settings session outcome, Combines environment job settings ∧
      Session.create settings job.verbose files = .ok session ∧
      runWith reader console environment files arguments = .ok outcome ∧
      match Session.assembleFile job.input session with
      | .error failure _ => outcome.files = files ∧ (console.IsOpen → outcome.exit = exitCode failure)
      | .ok value s => ∃ listing orders code, s.assembly.listing = .ok listing ∧
        (if s.assembly.errors.hasErrors then
          orders = Run.listingOrder job listing ∧ code = 1
        else ∃ p, s.assembly.object = some p ∧ value = some p.render ∧ job.HasObjectPath job.objectPath ∧ code = 0 ∧
          orders = (job.objectPath, p.render) :: (Run.listingOrder job listing ++ Run.symbolOrder job s.assembly)) ∧
        files.Kept orders outcome.files ∧
        (console.IsOpen → outcome.exit.number = if (files.writeAll orders).2.isNone then code else 2) ∧
        (console.IsOpen → (files.writeAll orders).2 = none → (orders.map fun order => files.place? order.1).Nodup →
          ∀ order ∈ orders, files.look? order.1 ≠ some .sink → outcome.files.look? order.1 = some (.text order.2)) := by
  have hjob := hreader files arguments job h
  obtain ⟨session, hsession, hfiles⟩ := exists_session environment files job
  have hrun : runWith reader console environment files arguments =
      .ok (outcomeOf console job (Run.perform console job { session })) := by
    rw [runWith, h]
    dsimp only
    rw [runJob, hsession]
  refine ⟨_, session, _, combines_jobSettings environment job, hsession, hrun, ?_⟩
  have hassembled := Session.assembleFile_assembled session job.input
  unfold Ends at hassembled
  cases hassemble : Session.assembleFile job.input session with
  | error failure s =>
      rw [← hfiles]
      exact perform_fails hassemble
  | ok value s =>
      rw [hassemble] at hassembled
      obtain ⟨listing, hlisting⟩ := hassembled.listed
      have hfinish := Run.writes_finish console hjob hassembled hlisting
      rw [← hfiles]
      cases herrors : s.assembly.errors.hasErrors with
      | true =>
          rw [herrors] at hfinish
          have hdelivers := perform_delivers hassemble hfinish
          refine ⟨listing, _, _, hlisting, ?_, hdelivers.kept, hdelivers.exit, hdelivers.texts⟩
          rw [if_pos herrors]
          exact ⟨rfl, rfl⟩
      | false =>
          rw [herrors] at hfinish
          obtain ⟨p, hobject, hvalue, hfinish⟩ := hfinish
          have hdelivers := perform_delivers hassemble hfinish
          refine ⟨listing, _, _, hlisting, ?_, hdelivers.kept, hdelivers.exit, hdelivers.texts⟩
          rw [if_neg (by simp [herrors])]
          exact ⟨p, hobject, hvalue, hjob.objectPath.2.2, rfl, rfl⟩

/-- Three files are written, at places that the paths name each in its own way; the object program goes beside the
source. -/
theorem runWith_delivers_three :
    let files := FileStore.ofList [("a.asm", .text "P       START  1000\n        J      P"), ("b", .text "kept")]
    let arguments := ["./a.asm", "-l", "/home/user/work/a.lst", "-s", "../../a.sym", "--strict"]
    let job : Job :=
      { input := "a.asm", listing := some "/home/user/work/a.lst", symbols := some "../../a.sym", strict := true }
    let object := "HP     001000000003\nT001000033C0000\nE001000\n"
    let symbols := "# Symbol table\n# Generated by sicasm\nP 001000\n"
    readArguments files arguments = .ok (.call job) ∧
      ∃ outcome listing, runWith readArguments .standard (fun _ => none) files arguments = .ok outcome ∧
        outcome.exit.number = 0 ∧ outcome.files.look? "a.obj" = some (.text object) ∧
        outcome.files.look? "a.lst" = some (.text (listing ++ "\n")) ∧
        outcome.files.look? "/home/a.sym" = some (.text symbols) ∧ outcome.files.look? "b" = some (.text "kept") := by
  intro files arguments job object symbols
  have hcall : readArguments files arguments = .ok (.call job) := by decide +kernel
  have hopen : Console.standard.IsOpen := fun _ _ _ => rfl
  obtain ⟨settings, session, outcome, hcombines, hsession, hrun, hassembled⟩ :=
    runWith_delivers sound_readArguments .standard (fun _ => none) hcall
  have hsettings : settings = { strictOperands := true } :=
    (hcombines.unique (combines_jobSettings _ job)).trans (by decide +kernel)
  subst hsettings
  have hvalue : (Session.assembleFile job.input).value? session = some (some object) := by
    cases hsession
    decide +kernel
  rw [Action.eq_ok_of_value? hvalue] at hassembled
  obtain ⟨listing, orders, code, hlisting, horders, hkept, hexit, htexts⟩ := hassembled
  obtain ⟨hclean, hsymbols, hall⟩ :
      ((Session.assembleFile job.input).after session).assembly.errors.hasErrors = false ∧
      ((Session.assembleFile job.input).after session).assembly.symbolFile = symbols ∧
      (files.writeAll [("a.obj", object), ("/home/user/work/a.lst",
          ((Session.assembleFile job.input).after session).assembly.listing.toOption.getD "" ++ "\n"),
        ("../../a.sym", symbols)]).2.isNone = true := by
    cases hsession
    decide +kernel
  rw [if_neg (by simp [hclean])] at horders
  obtain ⟨p, -, hobject, -, rfl, rfl⟩ := horders
  rw [hlisting, Except.toOption, Option.getD_some, Option.isNone_iff_eq_none] at hall
  rw [← Option.some.inj hobject, Run.symbolOrder, hsymbols, show job.objectPath = "a.obj" by decide +kernel]
    at hkept hexit htexts
  change files.Kept [("a.obj", object), ("/home/user/work/a.lst", listing ++ "\n"), ("../../a.sym", symbols)] _ at hkept
  have hcode : outcome.exit.number = 0 := (hexit hopen).trans (if_pos (Option.isNone_iff_eq_none.mpr hall))
  have hplaces : files.place? "a.lst" = files.place? "/home/user/work/a.lst" ∧
      files.place? "/home/a.sym" = files.place? "../../a.sym" := by decide +kernel
  have hdistinct : (["a.obj", "/home/user/work/a.lst", "../../a.sym"].map files.place?).Nodup := by decide +kernel
  have hfree : ∀ path ∈ ["a.obj", "/home/user/work/a.lst", "../../a.sym"], files.look? path ≠ some .sink ∧
      files.place? "b" ≠ files.place? path := by decide +kernel
  have htext (order : String × String) (horder : order ∈ [("a.obj", object),
      ("/home/user/work/a.lst", listing ++ "\n"), ("../../a.sym", symbols)]) :
      outcome.files.look? order.1 = some (.text order.2) :=
    htexts hopen hall hdistinct order horder
      (hfree order.1 (List.mem_map_of_mem horder)).1
  have hspelled {path path' : String} (h : files.place? path = files.place? path') :
      outcome.files.look? path = outcome.files.look? path' := by
    rw [FileStore.look?_eq, FileStore.look?_eq, hkept.places, hkept.places, h]
  refine ⟨hcall, outcome, listing, hrun, hcode, htext ("a.obj", object) (by simp), ?_, ?_, ?_⟩
  · rw [hspelled hplaces.1]
    exact htext ("/home/user/work/a.lst", listing ++ "\n") (by simp)
  · rw [hspelled hplaces.2]
    exact htext ("../../a.sym", symbols) (by simp)
  · rw [hkept.look? "b" fun order horder => (hfree order.1 (List.mem_map_of_mem horder)).2]
    decide +kernel

end TwoPass.CommandLine
