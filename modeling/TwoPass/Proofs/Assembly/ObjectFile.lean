import TwoPass.Proofs.Assembly.Calls
import TwoPass.Proofs.Machine.Decode
import TwoPass.Proofs.Object.Columns

/-!
Object files of assemblies. Whatever has been called before, no address is negative and the program name is one
that a line can hold, so the columns of an object file depend on the sizes of its numbers alone.
-/

namespace TwoPass

open TwoPass.Action (Ends ends_bind ends_discard ends_get ends_modify)

/-! ## Text records of statements -/

theorem mem_of_mem_byteDigits : {code : List Char} → {byte : Char × Char} → byte ∈ byteDigits code →
    byte.1 ∈ code ∧ byte.2 ∈ code
  | [], _, h => by cases h
  | [_], _, h => by cases h
  | high :: low :: rest, byte, h => by
      rw [byteDigits] at h
      rcases List.mem_cons.mp h with rfl | h
      · simp
      · obtain ⟨hhigh, hlow⟩ := mem_of_mem_byteDigits h
        simp [hhigh, hlow]

theorem exists_mem_byteDigits : {code : List Char} → {c : Char} → code.length % 2 = 0 → c ∈ code →
    ∃ byte ∈ byteDigits code, c = byte.1 ∨ c = byte.2
  | [], _, _, h => by cases h
  | [_], _, he, _ => by simp at he
  | high :: low :: rest, c, he, h => by
      have hrest : rest.length % 2 = 0 := by simp only [List.length_cons] at he; omega
      simp only [byteDigits, List.mem_cons] at h ⊢
      rcases h with rfl | rfl | h
      · exact ⟨_, .inl rfl, .inl rfl⟩
      · exact ⟨_, .inl rfl, .inr rfl⟩
      · obtain ⟨byte, hb, hc⟩ := exists_mem_byteDigits hrest h
        exact ⟨byte, .inr hb, hc⟩

theorem mem_bytesAt {start x : Int} {code : List Char} {byte : Char × Char} :
    (x, byte) ∈ bytesAt start code → start ≤ x ∧ byte ∈ byteDigits code := by
  intro h
  obtain ⟨k, hk, heq⟩ := List.mem_mapIdx.mp h
  cases heq
  exact ⟨by omega, List.getElem_mem hk⟩

theorem exists_mem_bytesAt {code : List Char} {byte : Char × Char} (h : byte ∈ byteDigits code) (start : Int) :
    ∃ x, (x, byte) ∈ bytesAt start code := by
  obtain ⟨k, hk, rfl⟩ := List.getElem_of_mem h
  exact ⟨start + k, List.mem_mapIdx.mpr ⟨k, hk, rfl⟩⟩

theorem Statement.WellFormed.digits {s : Statement} {code : List Char} (h : s.WellFormed)
    (hc : s.code = .ok code) : ∀ c ∈ code, Text.isUpperHex c = true := by
  obtain ⟨n, code', -, hcode, hhex⟩ := size_code h
  cases hc.symm.trans hcode
  split at hhex
  · exact hhex.digits
  · simp [hhex]

namespace ObjectProgram

variable {limit : RecordLimit} {statements : List Statement} {name : String} {start length : Int}
  {p : ObjectProgram}

theorem name_of_build (hp : build limit statements name start length = .ok p) : p.name = name := by
  unfold build at hp
  cases hb : RecordBuffer.addAll { limit := limit.digits } statements with
  | error fault => simp [hb, Except.map] at hp
  | ok b => simp only [hb, Except.map] at hp; cases hp; rfl

/-- A byte of a text record is a byte of a statement. -/
theorem exists_source (hp : build limit statements name start length = .ok p)
    (h : ∀ s ∈ statements, s.WellFormed) {r : TextRecord} (hr : r ∈ p.texts) {x : Int} {byte : Char × Char}
    (hx : (x, byte) ∈ r.image) :
    ∃ s ∈ statements, s.offset ≤ x ∧ ∃ code, s.code = .ok code ∧ byte ∈ byteDigits code := by
  have himage := image_of_build hp fun s hs => (h s hs).even_code
  have hmem : (x, byte) ∈ p.image := List.mem_flatMap.mpr ⟨r, hr, hx⟩
  rw [himage] at hmem
  obtain ⟨s, hs, hbyte⟩ := List.mem_flatMap.mp hmem
  obtain ⟨code, hcode, -⟩ := (h s (List.mem_filter.mp hs).1).even_code
  rw [Statement.image, hcode] at hbyte
  obtain ⟨hle, hdigit⟩ := mem_bytesAt hbyte
  exact ⟨s, (List.mem_filter.mp hs).1, hle, code, hcode, hdigit⟩

theorem printable_of_build (hp : build limit statements name start length = .ok p) (hname : IsLine name.toList)
    (hstart : 0 ≤ start) (hlength : 0 ≤ length) (h : ∀ s ∈ statements, s.WellFormed ∧ 0 ≤ s.offset) :
    p.Printable := by
  have hwell : ∀ s ∈ statements, s.WellFormed := fun s hs => (h s hs).1
  obtain ⟨rfl, rfl⟩ := range_of_build hp
  refine ⟨by rwa [name_of_build hp], hstart, hlength, fun r hr => ?_⟩
  have hsolid := solid_of_build hp (fun s hs => (hwell s hs).even_code) r hr
  refine ⟨?_, hsolid.even, fun c hc => ?_⟩
  · have hfirst : r.start ∈ r.image.map (·.1) := by
      rw [r.addresses, mem_span]
      have := hsolid.length_pos
      omega
    obtain ⟨⟨x, byte⟩, hx, rfl⟩ := List.mem_map.mp hfirst
    obtain ⟨s, hs, hle, -⟩ := exists_source hp hwell hr hx
    exact Int.le_trans (h s hs).2 hle
  · obtain ⟨byte, hbyte, hdigit⟩ := exists_mem_byteDigits hsolid.even hc
    obtain ⟨x, hx⟩ := exists_mem_bytesAt hbyte r.start
    obtain ⟨s, hs, -, code, hcode, hmem⟩ := exists_source hp hwell hr hx
    obtain ⟨hhigh, hlow⟩ := mem_of_mem_byteDigits hmem
    rcases hdigit with rfl | rfl
    · exact (hwell s hs).digits hcode _ hhigh
    · exact (hwell s hs).digits hcode _ hlow

end ObjectProgram

/-! ## Labels -/

theorem isLineBreak_toUpper {c : Char} (h : SourceLine.isNameChar c = true) :
    Text.isLineBreak c.toUpper = false :=
  Text.forall_ascii (P := fun c => SourceLine.isNameChar c = true → Text.isLineBreak c.toUpper = false)
    (by decide +kernel) (SourceLine.toNat_lt_of_isNameChar h) h

theorem SourceLine.isLine_label {file text whole : String} {line : Int} {fields : Fields}
    (h : read file line text = .ok (.code fields whole)) : IsLine fields.label.toList := by
  obtain ⟨label, -, hlabel, -, heq, -⟩ := read_code h
  intro c hc
  rw [heq, String.toList_ofList, Text.upperChars, List.mem_flatMap] at hc
  obtain ⟨d, hd, hc⟩ := hc
  have hname := hlabel.resolve_left (List.ne_nil_of_mem hd)
  have hchar := isNameChar_of_isName hname d hd
  rw [Text.upperChar, if_pos (toNat_lt_of_isNameChar hchar), List.mem_singleton] at hc
  rw [hc]
  exact isLineBreak_toUpper hchar

theorem Statement.isLine_label {file text : String} {line offset : Int} {s : Statement}
    (h : parse file text line offset = .ok s) : IsLine s.label.toList := by
  rcases parse_cases h with ⟨-, hlabel⟩ | ⟨fields, whole, hread, hlabel, -⟩
  · simp [IsLine, hlabel]
  · rw [hlabel]
    exact SourceLine.isLine_label hread

theorem Statement.offset_nonneg {file text : String} {line offset : Int} {s : Statement}
    (h : parse file text line offset = .ok s) (ho : 0 ≤ offset) : 0 ≤ s.offset := by
  have hparsed := parse_parsed h
  cases hs : s.isStart with
  | false => rwa [hparsed.offset hs]
  | true =>
      obtain ⟨value, hb⟩ := isStart_iff.mp hs
      rw [(hparsed.start value hb).2.1]
      exact Int.natCast_nonneg value

namespace Assembly

variable {α β : Type} {a b : Assembly}

/-! ## What every call keeps -/

/-- Addresses are not negative, the program counter is not before the load address, and the name stays on its
line. -/
structure Loadable (a : Assembly) : Prop where
  name : IsLine a.name.toList
  start : 0 ≤ a.start
  pc : a.start ≤ a.pc
  statements : ∀ s ∈ a.statements, s.WellFormed ∧ 0 ≤ s.offset

/-- However the action ends, the assembly is still loadable. -/
def Preserves (x : Action α) : Prop :=
  ∀ a : Assembly, Loadable a → Ends x a (fun _ => Loadable) (fun _ => Loadable)

namespace Preserves

variable {x : Action α} {f : α → Action β}

theorem pure (value : α) : Preserves (Pure.pure value) :=
  fun _ h => h

theorem throw (failure : Failure) : Preserves (throw failure : Action α) :=
  fun _ h => h

theorem bind (hx : Preserves x) (hf : ∀ value, Preserves (f value)) : Preserves (x >>= f) :=
  fun a ha => (hx a ha).bind fun value b hb => hf value b hb

theorem get_bind {f : Assembly → Action β} (hf : ∀ a, Loadable a → Preserves (f a)) : Preserves (get >>= f) := by
  intro a ha
  rw [ends_bind, ends_get]
  exact hf a ha a ha

theorem modify {g : Assembly → Assembly} (hg : ∀ a, Loadable a → Loadable (g a)) : Preserves (modify g) := by
  intro a ha
  rw [ends_modify]
  exact hg a ha

theorem orFault (result : Except Fault α) : Preserves (Action.orFault result) := by
  intro a ha
  cases result <;> exact ha

theorem untilFull {x : Action Unit} (hx : Preserves x) : Preserves (untilFull x) := by
  intro a ha
  refine untilFull_ends (hx a ha) fun _ b journal hb => ?_
  exact ⟨hb.name, hb.start, hb.pc, hb.statements⟩

end Preserves

theorem preserves_note (level : Level) (message : String) : Preserves (note level message) :=
  .modify fun _ h => ⟨h.name, h.start, h.pc, h.statements⟩

theorem preserves_enter (phase : Phase) : Preserves (enter phase) :=
  .modify fun _ h => ⟨h.name, h.start, h.pc, h.statements⟩

theorem preserves_close (phase : Phase) (summary : Assembly → String) : Preserves (close phase summary) :=
  (preserves_enter _).bind fun _ => .get_bind fun _ _ => (preserves_note _ _).bind fun _ => .pure _

theorem Booking.loadable {file text : String} {line offset : Int} {s : Statement} {change : Change}
    (hs : Statement.parse file text line offset = .ok s) (hc : Booking file s change) (h : Loadable a) :
    Loadable (change.effect a) := by
  cases hc with
  | origin hb =>
      -- `START` may move the counter back, but never before the address that it gives.
      exact ⟨Statement.isLine_label hs, Int.natCast_nonneg _, Int.le_refl _, h.statements⟩
  | advance hsize =>
      exact ⟨h.name, h.start, Int.le_trans h.pc (Int.le_add_of_nonneg_right (Int.natCast_nonneg _)), h.statements⟩
  | _ => exact ⟨h.name, h.start, h.pc, h.statements⟩

theorem preserves_placeLine (number : Nat) (text : String) : Preserves (placeLine number text) := by
  intro a ha
  have hchanges : ∀ change ∈ lineChanges a number text, ∀ b, Loadable b → Loadable (change.effect b) := by
    refine forall_mem_lineChanges (fun s hs b hb => ?_) (fun s hs change hc b hb => hc.loadable hs hb) ?_ ?_
    · refine ⟨hb.name, hb.start, hb.pc, List.forall_mem_append.mpr ⟨hb.statements, ?_⟩⟩
      simp [(Statement.parse_parsed hs).wellFormed, Statement.offset_nonneg hs (Int.le_trans ha.start ha.pc)]
    · exact fun _ _ b hb => ⟨hb.name, hb.start, hb.pc, hb.statements⟩
    · exact fun _ _ b hb => ⟨hb.name, hb.start, hb.pc, hb.statements⟩
  exact placeLine_invariant (runAll_ends hchanges (fun _ _ _ _ hb _ => hb) ha) fun _ _ => ha

theorem preserves_placeLines (number : Nat) (lines : List String) : Preserves (placeLines number lines) :=
  fun _ ha => placeLines_invariant preserves_placeLine number lines ha

theorem preserves_pass1 (lines : List String) : Preserves (pass1 lines) := by
  refine .get_bind fun a _ => ?_
  split
  · exact .throw _
  · have hlines : Preserves (do discard (parseLines lines)) := fun b hb =>
      ends_discard.mpr (preserves_placeLines 1 lines b hb)
    exact (preserves_enter _).bind fun _ => hlines.untilFull.bind fun _ => preserves_close _ _

theorem Reworked.loadable (h : Reworked a b) (ha : Loadable a) : Loadable b := by
  refine ⟨?_, ?_, ?_, ?_⟩
  · rw [h.kept]; exact ha.name
  · rw [h.kept]; exact ha.start
  · rw [h.kept]; exact ha.pc
  · refine Statement.forall_mem_of_forall₂ h.revised ha.statements fun s s' hs hr => ?_
    exact ⟨hr.wellFormed hs.1, hr.offset ▸ hs.2⟩

theorem preserves_pass2 : Preserves pass2 :=
  fun a ha => (pass2_ends a).mono (fun _ _ h => h.1.loadable ha) fun _ _ h => h.loadable ha

theorem preserves_generateObject : Preserves generateObject := by
  refine .get_bind fun a _ => ?_
  split
  · exact (preserves_note _ _).bind fun _ => .pure _
  · split
    · exact .throw _
    · refine (Preserves.orFault _).bind fun p => ?_
      refine .bind (.modify fun _ h => ⟨h.name, h.start, h.pc, h.statements⟩) fun _ => ?_
      exact (preserves_note _ _).bind fun _ => .pure _

theorem Loadable.after (h : Loadable a) (c : Call) : Loadable (c.after a) := by
  cases c with
  | parseLines lines => exact (preserves_placeLines 1 lines a h).after
  | pass1 lines => exact (preserves_pass1 lines a h).after
  | pass2 => exact (preserves_pass2 a h).after
  | generateObject => exact (preserves_generateObject a h).after

theorem Loadable.run (h : Loadable a) (calls : List Call) : Loadable (run calls a) := by
  induction calls generalizing a with
  | nil => exact h
  | cons c calls ih => exact ih (h.after c)

theorem loadable_create {settings : Settings} {file : String} {a₀ : Assembly} (h : create settings file = .ok a₀) :
    Loadable a₀ := by
  obtain ⟨limit, -, rfl⟩ := create_eq_ok_iff.mp h
  exact ⟨by simp [IsLine], Int.le_refl 0, Int.le_refl 0, by simp⟩

theorem Loadable.printable (h : Loadable a) {p : ObjectProgram} (hp : generateObject a = .ok (some p) b) :
    p.Printable := by
  have hmade : Made a p b := ((generateObject_made a).of_ok hp).2 p rfl
  have hpc := h.pc
  exact ObjectProgram.printable_of_build hmade.build h.name h.start (by rw [length]; omega) h.statements

/-- Whatever the source and the settings are and whatever has been called, the object file keeps to its columns
exactly if no address has more than 24 bits and no text record more than 255 bytes, and a file that does is read
back by them. -/
theorem generateObject_columns {settings : Settings} {file : String} {a₀ b : Assembly} {p : ObjectProgram}
    (calls : List Call) (h : create settings file = .ok a₀)
    (hp : generateObject (run calls a₀) = .ok (some p) b) :
    (p.FixedColumns ↔ p.start < 0x1000000 ∧ p.length < 0x1000000 ∧
      ∀ r ∈ p.texts, r.start < 0x1000000 ∧ r.length ≤ 255) ∧
    (p.FixedColumns → ObjectFile.read? p.render = some
      { name := Text.padRight 6 (p.name.toList.take 6), start := p.start, length := p.length
        texts := p.texts.map fun r => (r, (r.length : Int)), entry := p.start }) := by
  have hprintable := ((loadable_create h).run calls).printable hp
  have hiff := ObjectProgram.fixedColumns_iff hprintable
  refine ⟨hiff.trans ⟨fun hf => ⟨hf.start, hf.length, hf.texts⟩, ?_⟩, fun hc => ?_⟩
  · rintro ⟨hstart, hlength, htexts⟩
    exact ⟨hstart, hlength, htexts⟩
  · exact ObjectFile.read?_render hprintable (hiff.mp hc)

/-- A text record at the last address that six digits can give, and one at the address after that. -/
theorem generateObject_columns_last :
    let calls := fun gap => [Call.pass1 ["PROGRAM START  FFFFF0", "        BYTE   5", "        RESB   " ++ gap,
      "        FIX"], .pass2]
    ∃ a₀ b c p q, create {} "last.asm" = .ok a₀ ∧ generateObject (run (calls "14") a₀) = .ok (some p) b ∧
      generateObject (run (calls "15") a₀) = .ok (some q) c ∧ p.FixedColumns ∧ ¬ q.FixedColumns ∧
      ObjectFile.read? p.render = some ⟨"PROGRA".toList, 0xFFFFF0, 16,
        [(⟨0xFFFFF0, "05".toList⟩, 1), (⟨0xFFFFFF, "C4".toList⟩, 1)], 0xFFFFF0⟩ := by
  intro calls
  obtain ⟨a₀, h⟩ : ∃ a₀, create {} "last.asm" = .ok a₀ := ⟨_, rfl⟩
  have hvalues : generateObject.value? (run (calls "14") a₀) = some (some
        ⟨"PROGRAM", 0xFFFFF0, 16, [⟨0xFFFFF0, "05".toList⟩, ⟨0xFFFFFF, "C4".toList⟩]⟩) ∧
      generateObject.value? (run (calls "15") a₀) = some (some
        ⟨"PROGRAM", 0xFFFFF0, 17, [⟨0xFFFFF0, "05".toList⟩, ⟨0x1000000, "C4".toList⟩]⟩) := by
    cases h
    decide +kernel
  have hp := Action.eq_ok_of_value? hvalues.1
  have hq := Action.eq_ok_of_value? hvalues.2
  obtain ⟨hfits, hread⟩ := generateObject_columns (calls "14") h hp
  have hcolumns := hfits.mpr (by decide)
  refine ⟨a₀, _, _, _, _, h, hp, hq, hcolumns, ?_, hread hcolumns⟩
  rw [(generateObject_columns (calls "15") h hq).1]
  decide

end Assembly

end TwoPass
