import TwoPass.Proofs.Files.Path
import TwoPass.Proofs.Files.Store
import TwoPass.Proofs.Session.Resolution

/-!
What a session does to files. Assembling leaves them alone, whether or not it fails. Afterwards there is a listing
of the assembly in any case, and an object program if no error was reported; to write one of them is a single
write to the store, or fails as that does.
-/

namespace TwoPass

open TwoPass.Action (Ends ends_bind ends_get ends_modify ends_onPart ends_pure)

/-! ## Listings -/

namespace Assembly

theorem exists_listStatement {s : Statement} (h : s.WellFormed) : ∃ lines, listStatement s = .ok lines := by
  obtain ⟨_, code, -, hcode, -⟩ := Statement.size_code h
  unfold listStatement
  split
  · exact ⟨_, rfl⟩
  · rw [hcode]
    exact ⟨_, rfl⟩

theorem exists_listStatements {l : List Statement} (h : ∀ s ∈ l, s.WellFormed) :
    ∃ lines, listStatements l = .ok lines := by
  induction l with
  | nil => exact ⟨[], rfl⟩
  | cons s rest ih =>
      obtain ⟨lines, hs⟩ := exists_listStatement (h s List.mem_cons_self)
      obtain ⟨more, hrest⟩ := ih fun t ht => h t (List.mem_cons_of_mem s ht)
      exact ⟨lines ++ more, by rw [listStatements, hs, hrest]⟩

/-- Statements that were parsed have code, so they can be listed. -/
theorem exists_listing {a : Assembly} (h : ∀ s ∈ a.statements, s.WellFormed) : ∃ text, a.listing = .ok text := by
  obtain ⟨lines, hlines⟩ := exists_listStatements h
  rw [listing, hlines]
  exact ⟨_, rfl⟩

end Assembly

namespace Session

/-! ## Assembling -/

/-- An action that leaves the files alone. -/
def KeepsFiles {α : Type} (x : Action α) : Prop :=
  ∀ s, Ends x s (fun _ t => t.files = s.files) (fun _ t => t.files = s.files)

section

variable {α β : Type}

theorem KeepsFiles.bind {x : Action α} {f : α → Action β} (hx : KeepsFiles x) (hf : ∀ value, KeepsFiles (f value)) :
    KeepsFiles (x >>= f) := by
  intro s
  refine (hx s).bind fun value t ht => ?_
  refine (hf value t).mono (fun _ u hu => hu.trans ht) fun _ u hu => hu.trans ht

theorem keepsFiles_pure (value : α) : KeepsFiles (pure value) :=
  fun _ => rfl

theorem keepsFiles_get : KeepsFiles get :=
  fun _ => rfl

theorem keepsFiles_note (message : String) : KeepsFiles (note message) :=
  fun _ => rfl

theorem keepsFiles_orFault (result : Except Fault α) : KeepsFiles (Action.orFault result) := by
  intro s
  cases result <;> rfl

theorem keepsFiles_onAssembly (x : Assembly.Action α) : KeepsFiles (onAssembly x) := by
  intro s
  rw [onAssembly, ends_onPart]
  unfold Ends
  cases x s.assembly <;> rfl

end

theorem keepsFiles_assembleText (source file : String) : KeepsFiles (assembleText source file) := by
  have hrestart : KeepsFiles (restart file) :=
    keepsFiles_get.bind fun s => (keepsFiles_orFault _).bind fun a => fun _ => rfl
  refine hrestart.bind fun _ => (keepsFiles_note _).bind fun _ => (keepsFiles_onAssembly _).bind fun _ =>
    keepsFiles_get.bind fun s => (keepsFiles_note _).bind fun _ => (keepsFiles_onAssembly _).bind fun resolved => ?_
  cases resolved with
  | false => exact keepsFiles_pure none
  | true =>
      refine (keepsFiles_onAssembly _).bind fun object => ?_
      cases object with
      | none => exact keepsFiles_pure none
      | some p => exact (keepsFiles_note _).bind fun _ => keepsFiles_pure _

theorem keepsFiles_assembleFile (path : String) : KeepsFiles (assembleFile path) := by
  have hcheck : KeepsFiles (checkPath path) := by
    intro s
    unfold checkPath
    split <;> rfl
  refine hcheck.bind fun _ => keepsFiles_get.bind fun s => KeepsFiles.bind ?_ fun source =>
    keepsFiles_assembleText source _
  intro t
  cases s.files.read (Path.plain path) <;> rfl

theorem assembleText_wellFormed (session : Session) (source file : String) :
    Ends (assembleText source file) session (fun _ s => ∀ t ∈ s.assembly.statements, t.WellFormed)
      (fun _ _ => True) := by
  simp only [assembleText, restart, note, record, onAssembly, ends_bind, ends_get, ends_modify, ends_onPart]
  cases hcreate : Assembly.create session.settings file with
  | error fault => trivial
  | ok a₀ =>
      obtain ⟨hplaced, hstep, -⟩ := Assembly.placed_create hcreate
      change Ends (Assembly.pass1 (sourceLines source)) a₀ _ _
      refine (Assembly.pass1_ends _ hplaced hstep).mono ?_ fun _ _ _ => trivial
      rintro _ a ⟨hsettled, -⟩
      have ha : ∀ t ∈ a.statements, t.WellFormed := hsettled.placed.laid.wellFormed
      refine (Assembly.pass2_passed _).mono ?_ fun _ _ _ => trivial
      intro ok b hb
      have hb' : ∀ t ∈ b.statements, t.WellFormed := hb.reworked.wellFormed ha
      cases ok with
      | false => exact hb'
      | true =>
          rw [if_pos rfl, ends_bind, ends_onPart]
          refine (Assembly.generateObject_made _).mono ?_ fun _ _ _ => trivial
          rintro (_ | p) c ⟨hnone, hmade⟩
          · have herrors : b.errors.hasErrors = false := by simpa using hb.answer.symm
            rw [show Assembly.errors _ = b.errors from rfl, herrors] at hnone
            cases hnone rfl
          · have hc : c.statements = b.statements := by rw [(hmade p rfl).kept]
            exact fun t ht => hb' t (hc ▸ ht)

/-- What assembling a file answers and leaves. -/
structure Assembled (value : Option String) (s : Session) : Prop where
  listed : ∃ text, s.assembly.listing = .ok text
  object : s.assembly.errors.hasErrors = false → ∃ p, s.assembly.object = some p ∧ value = some p.render

theorem assembleText_assembled (session : Session) (source file : String) :
    Ends (assembleText source file) session Assembled (fun _ _ => True) := by
  refine ((assembleText_outcome session source file).and (assembleText_wellFormed session source file)).mono ?_
    fun _ _ _ => trivial
  rintro value s ⟨houtcome, hwell⟩
  refine ⟨Assembly.exists_listing hwell, fun hclean => ?_⟩
  cases value with
  | none =>
      have herrors := houtcome.answer.mp rfl
      rw [hclean] at herrors
      cases herrors
  | some text =>
      obtain ⟨_, p, -, hcomplete, rfl⟩ := houtcome.complete text rfl
      exact ⟨p, hcomplete.object, rfl⟩

theorem assembleFile_assembled (session : Session) (path : String) :
    Ends (assembleFile path) session Assembled (fun _ _ => True) := by
  rw [assembleFile, ends_bind]
  unfold checkPath
  split
  · trivial
  · rw [ends_pure, ends_bind, ends_get, ends_bind]
    cases session.files.read (Path.plain path) with
    | error fault => trivial
    | ok source => exact assembleText_assembled session source _

/-! ## Writing -/

/-- From `s` the action writes the orders in turn and changes nothing else but the journal. -/
def Writes (orders : List (String × String)) (x : Action Unit) (s : Session) : Prop :=
  Ends x s (fun _ t => t.assembly = s.assembly ∧ s.files.writeAll orders = (t.files, none))
    (fun failure t => ∃ fault, failure = .fault (.file fault) ∧ s.files.writeAll orders = (t.files, some fault))

variable {s : Session} {path : String}

theorem writes_write (hpath : Path.hasNull path = false) (content : String) :
    Writes [(path, content)] (write path content) s := by
  unfold Writes write checkPath
  rw [hpath, if_neg (by simp), ends_bind, ends_pure, ends_bind, ends_get, FileStore.writeAll_single]
  rcases hwrite : s.files.write path content with ⟨files, _ | fault⟩
  · exact ⟨rfl, rfl⟩
  · exact ⟨fault, rfl, rfl⟩

theorem Writes.note {orders : List (String × String)} {x : Action Unit} (h : Writes orders x s) {y : Action Unit}
    (hy : ∀ t, Ends y t (fun _ u => u.assembly = t.assembly ∧ u.files = t.files) (fun _ _ => False)) :
    Writes orders (do x; y) s := by
  refine Ends.bind h fun _ t ht => (hy t).mono ?_ fun _ _ hf => hf.elim
  rintro _ u ⟨hassembly, hfiles⟩
  rw [hassembly, hfiles]
  exact ht

theorem writes_writeObject {p : ObjectProgram} (hpath : Path.hasNull path = false) (hplain : Path.plain path = path)
    (hobject : s.assembly.object = some p) : Writes [(path, p.render)] (writeObject path) s := by
  unfold writeObject Writes
  rw [ends_bind, ends_get, hobject, hplain]
  exact (writes_write hpath p.render).note fun _ => ⟨rfl, rfl⟩

theorem writes_writeListing {text : String} (hpath : Path.hasNull path = false)
    (hlisting : s.assembly.listing = .ok text) : Writes [(path, text ++ "\n")] (writeListing path) s := by
  have hfile : s.assembly.listingFile = .ok (text ++ "\n") := by
    rw [Assembly.listingFile, hlisting]
    rfl
  unfold writeListing Writes
  rw [ends_bind, ends_get, hfile, ends_bind]
  exact (writes_write hpath _).note fun _ => ⟨rfl, rfl⟩

theorem writes_writeSymbols (hpath : Path.hasNull path = false) :
    Writes [(path, s.assembly.symbolFile)] (writeSymbols path) s := by
  unfold writeSymbols Writes
  rw [ends_bind, ends_get]
  exact (writes_write hpath _).note fun _ => ⟨rfl, rfl⟩

end Session

end TwoPass
