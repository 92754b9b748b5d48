import TwoPass.Object.Pack

/-!
The load image: every byte of object code with the address it is loaded at. Packing code into text
records keeps the image, wherever a record ends and however long code is cut.
-/

namespace TwoPass

/-! ## Bytes and their addresses -/

/-- The bytes of object code, each as its two digits. -/
def byteDigits : List Char → List (Char × Char)
  | high :: low :: rest => (high, low) :: byteDigits rest
  | _ => []

/-- The bytes of object code that begins at an address, each with its own address. -/
def bytesAt (start : Int) (code : List Char) : List (Int × Char × Char) :=
  (byteDigits code).mapIdx fun k byte => (start + k, byte)

theorem length_byteDigits : (code : List Char) → (byteDigits code).length = code.length / 2
  | [] => rfl
  | [_] => by simp [byteDigits]
  | _ :: _ :: rest => by simp only [byteDigits, List.length_cons, length_byteDigits rest]; omega

theorem byteDigits_append {ys : List Char} :
    (xs : List Char) → xs.length % 2 = 0 → byteDigits (xs ++ ys) = byteDigits xs ++ byteDigits ys
  | [], _ => rfl
  | [_], h => by simp at h
  | a :: b :: rest, h => by
      have hr : rest.length % 2 = 0 := by simp only [List.length_cons] at h; omega
      simp only [List.cons_append, byteDigits, byteDigits_append rest hr]

@[simp] theorem bytesAt_nil (start : Int) : bytesAt start [] = [] := rfl

/-- Code behind whole bytes stands as many addresses further on. -/
theorem bytesAt_append {xs : List Char} (hx : xs.length % 2 = 0) (start : Int) (ys : List Char) :
    bytesAt start (xs ++ ys) = bytesAt start xs ++ bytesAt (start + (xs.length / 2 : Nat)) ys := by
  simp only [bytesAt, byteDigits_append xs hx, List.mapIdx_append, length_byteDigits]
  congr 2
  funext k byte
  rw [show start + ((k + xs.length / 2 : Nat) : Int) = start + ((xs.length / 2 : Nat) : Int) + k by omega]

def TextRecord.image (r : TextRecord) : List (Int × Char × Char) :=
  bytesAt r.start r.data

/-- What a loader makes of the text records, record by record. -/
def ObjectProgram.image (p : ObjectProgram) : List (Int × Char × Char) :=
  p.texts.flatMap (·.image)

/-- Whether a statement is loaded: remarks and reservations are not. -/
def Statement.isLoaded (s : Statement) : Bool :=
  match s.body with
  | .remark => false
  | .directive d _ => !d.isReserve
  | .instruction _ => true

/-- The bytes a statement asks to be loaded. -/
def Statement.image (s : Statement) : List (Int × Char × Char) :=
  match s.code with
  | .ok code => bytesAt s.offset code
  | .error _ => []

/-! ## The record buffer -/

namespace RecordBuffer

/-- Closed records first, then the code that waits. -/
def image (b : RecordBuffer) : List (Int × Char × Char) :=
  b.records.flatMap (·.image) ++ bytesAt b.start b.data

/-- Records break between bytes, never inside one. -/
structure Aligned (b : RecordBuffer) : Prop where
  limit_even : b.limit % 2 = 0
  data_even : b.data.length % 2 = 0

theorem flush_image (b : RecordBuffer) : b.flush.image = b.image := by
  unfold flush
  split
  · rfl
  · simp only [image, List.flatMap_append, List.flatMap_cons, List.flatMap_nil, List.append_nil,
      bytesAt_nil, TextRecord.image]

theorem Aligned.flush {b : RecordBuffer} (h : b.Aligned) : b.flush.Aligned := by
  unfold RecordBuffer.flush
  split
  · exact h
  · exact ⟨h.limit_even, rfl⟩

theorem flush_data (b : RecordBuffer) : b.flush.data = [] := by
  unfold flush
  split
  · rename_i h; exact List.isEmpty_iff.mp h
  · rfl

/-- Cutting long code loses no byte and moves none. -/
theorem cut_image {limit : Nat} (hl : limit % 2 = 0) (address : Int) (code : List Char) :
    (cut limit address code).1.flatMap (·.image) ++ (cut limit address code).2.image =
      bytesAt address code := by
  fun_induction cut limit address code with
  | case1 address code h full last hcut ih =>
      have ht : (code.take limit).length = limit := by
        rw [List.length_take]; omega
      rw [hcut] at ih
      have hs := bytesAt_append (by rw [ht]; exact hl) address (code.drop limit)
      rw [List.take_append_drop, ht] at hs
      rw [hs, ← ih]
      simp only [List.flatMap_cons, List.append_assoc, TextRecord.image]
  | case2 address code h => simp [TextRecord.image]

theorem cut_even {limit : Nat} (hl : limit % 2 = 0) (address : Int) {code : List Char}
    (hc : code.length % 2 = 0) : (cut limit address code).2.data.length % 2 = 0 := by
  fun_induction cut limit address code with
  | case1 address code h full last hcut ih =>
      have hd : (code.drop limit).length % 2 = 0 := by rw [List.length_drop]; omega
      have := ih hd
      rwa [hcut] at this
  | case2 address code h => exact hc

/-- The buffer with no code waiting, after code was put into records of its own. -/
def begun (b : RecordBuffer) (address : Int) (code : List Char) : RecordBuffer :=
  { b with
    records := b.records ++ (cut b.limit address code).1
    start := (cut b.limit address code).2.start
    data := (cut b.limit address code).2.data }

/-- Code either begins a record or goes on with the one that is open. -/
theorem append_cases (b : RecordBuffer) (address : Int) {code : List Char} (hc : code ≠ []) :
    b.append address code = b.flush.begun address code ∧
        (b.data = [] ∨ address ≠ b.next ∨ b.limit < b.data.length + code.length) ∨
      b.append address code = { b with data := b.data ++ code } ∧
        b.data ≠ [] ∧ address = b.next ∧ b.data.length + code.length ≤ b.limit := by
  have hce : code.isEmpty = false := List.isEmpty_eq_false_iff.mpr hc
  cases hb : b.breaks address code with
  | true =>
      left
      have he : b.flush.data.isEmpty = true := by rw [flush_data]; rfl
      refine ⟨by simp only [append, hb, hce, he, ↓reduceIte, Bool.false_eq_true, begun], Or.inr ?_⟩
      simp only [breaks, Bool.and_eq_true, Bool.or_eq_true, bne_iff_ne, decide_eq_true_eq] at hb
      exact hb.2
  | false =>
      by_cases hd : b.data = []
      · left
        have hf : b.flush = b := by simp [flush, hd]
        have he : b.data.isEmpty = true := List.isEmpty_iff.mpr hd
        exact ⟨by simp only [append, hb, hce, he, hf, ↓reduceIte, Bool.false_eq_true, begun], Or.inl hd⟩
      · right
        have he : b.data.isEmpty = false := List.isEmpty_eq_false_iff.mpr hd
        simp only [breaks, he, Bool.not_false, Bool.true_and, Bool.or_eq_false_iff, bne_eq_false_iff_eq,
          decide_eq_false_iff_not, Nat.not_lt] at hb
        refine ⟨?_, hd, hb.1, hb.2⟩
        have hbr : b.breaks address code = false := by simp [breaks, hb.1, hb.2]
        simp only [append, hbr, hce, he, ↓reduceIte, Bool.false_eq_true]

theorem begun_image {b : RecordBuffer} (h : b.Aligned) (hd : b.data = []) (address : Int)
    (code : List Char) : (b.begun address code).image = b.image ++ bytesAt address code := by
  have hcut := cut_image h.limit_even address code
  simp only [TextRecord.image] at hcut
  simp only [image, begun, hd, bytesAt_nil, List.append_nil, List.flatMap_append, List.append_assoc,
    TextRecord.image, hcut]

theorem append_image {b : RecordBuffer} (h : b.Aligned) (address : Int) {code : List Char}
    (hc : code ≠ []) : (b.append address code).image = b.image ++ bytesAt address code := by
  rcases b.append_cases address hc with ⟨he, _⟩ | ⟨he, _, ha, _⟩
  · rw [he, begun_image h.flush b.flush_data, flush_image]
  · rw [he, ha]
    simp only [image, bytesAt_append h.data_even, List.append_assoc, next]

theorem Aligned.append {b : RecordBuffer} (h : b.Aligned) (address : Int) {code : List Char}
    (hc : code ≠ []) (hn : code.length % 2 = 0) : (b.append address code).Aligned := by
  rcases b.append_cases address hc with ⟨he, _⟩ | ⟨he, _, _, _⟩
  · rw [he]
    exact ⟨h.flush.limit_even, cut_even h.flush.limit_even address hn⟩
  · rw [he]
    have := h.data_even
    exact ⟨h.limit_even, by simp only [List.length_append]; omega⟩

/-- One statement: what it adds to the image, if its code is whole bytes. -/
theorem add_image {b : RecordBuffer} (h : b.Aligned) {s : Statement} {code : List Char}
    (hs : s.code = .ok code) (hn : code.length % 2 = 0) :
    ∃ b', b.add s = .ok b' ∧ b'.Aligned ∧
      b'.image = b.image ++ (if s.isLoaded then s.image else []) := by
  have hcode : ∃ b', (s.code).map (fun code => if code.isEmpty then b else b.append s.offset code) =
        .ok b' ∧ b'.Aligned ∧ b'.image = b.image ++ s.image := by
    rw [hs]
    refine ⟨_, rfl, ?_⟩
    simp only [Statement.image, hs]
    by_cases hc : code = []
    · simp only [hc, List.isEmpty_nil, ↓reduceIte, bytesAt_nil, List.append_nil, and_true]; exact h
    · rw [if_neg (by simpa using hc)]
      exact ⟨h.append s.offset hc hn, append_image h s.offset hc⟩
  cases hb : s.body with
  | remark => exact ⟨b, by simp [add, hb], h, by simp [Statement.isLoaded, hb]⟩
  | instruction i => simpa [add, hb, Statement.isLoaded] using hcode
  | directive d value =>
      cases hd : d.isReserve with
      | true =>
          exact ⟨b.flush, by simp [add, hb, hd], h.flush, by simp [Statement.isLoaded, hb, hd, flush_image]⟩
      | false => simpa [add, hb, hd, Statement.isLoaded] using hcode

/-- All statements in order. -/
theorem addAll_image {b : RecordBuffer} (h : b.Aligned) {statements : List Statement}
    (hs : ∀ s ∈ statements, ∃ code, s.code = .ok code ∧ code.length % 2 = 0) :
    ∃ b', b.addAll statements = .ok b' ∧
      b'.image = b.image ++ (statements.filter (·.isLoaded)).flatMap (·.image) := by
  induction statements generalizing b with
  | nil => exact ⟨b, rfl, by simp⟩
  | cons s rest ih =>
      obtain ⟨code, hcode, hn⟩ := hs s (by simp)
      obtain ⟨b₁, h₁, ha, hi⟩ := add_image h hcode hn
      obtain ⟨b₂, h₂, hi₂⟩ := ih ha (fun t ht => hs t (by simp [ht]))
      refine ⟨b₂, by simp only [addAll, h₁, h₂], ?_⟩
      rw [hi₂, hi, List.filter_cons]
      split <;> simp

end RecordBuffer

namespace ObjectProgram

variable {limit : RecordLimit} {statements : List Statement} {name : String} {start length : Int}

theorem exists_build (h : ∀ s ∈ statements, ∃ code, s.code = .ok code ∧ code.length % 2 = 0) :
    ∃ p, build limit statements name start length = .ok p := by
  have ha : ({ limit := limit.digits } : RecordBuffer).Aligned := ⟨limit.even, rfl⟩
  obtain ⟨b, hb, _⟩ := RecordBuffer.addAll_image ha h
  exact ⟨_, by rw [build, hb]; rfl⟩

theorem image_of_build {p : ObjectProgram} (hp : build limit statements name start length = .ok p)
    (h : ∀ s ∈ statements, ∃ code, s.code = .ok code ∧ code.length % 2 = 0) :
    p.image = (statements.filter (·.isLoaded)).flatMap (·.image) := by
  have ha : ({ limit := limit.digits } : RecordBuffer).Aligned := ⟨limit.even, rfl⟩
  obtain ⟨b, hb, hi⟩ := RecordBuffer.addAll_image ha h
  rw [build, hb] at hp
  cases hp
  have hf := RecordBuffer.flush_image b
  rw [hi] at hf
  simpa [RecordBuffer.image, RecordBuffer.flush_data, image] using hf

/-- Loading the text records of an object program puts exactly the code of the loaded statements into
memory, each byte at the address its statement gives it, and in source order. -/
theorem build_image (limit : RecordLimit) (statements : List Statement) (name : String)
    (start length : Int)
    (h : ∀ s ∈ statements, ∃ code, s.code = .ok code ∧ code.length % 2 = 0) :
    ∃ p, build limit statements name start length = .ok p ∧
      p.image = (statements.filter (·.isLoaded)).flatMap (·.image) := by
  obtain ⟨p, hp⟩ := exists_build h
  exact ⟨p, hp, image_of_build hp h⟩

/-- Three characters in records of two bytes, a gap, and one more byte. -/
theorem build_image_gap :
    let characters : Statement :=
      { location := ⟨"P", 1, 1⟩, offset := 5, operands := [.characters [0x41, 0x42, 0x43]]
        body := .directive .byte 0 }
    let gap : Statement :=
      { location := ⟨"P", 2, 1⟩, offset := 8, operands := [.integer 2], body := .directive .reserveBytes 2 }
    let fix : Statement :=
      { location := ⟨"P", 3, 1⟩, offset := 10
        body := .instruction { opcode := ⟨"FIX", [], [1], 0xC4⟩, format := 1, flags := {} } }
    ∃ p, build ⟨4, by decide, by decide⟩ [characters, gap, fix] "P" 5 6 = .ok p ∧
      p.image = [(5, '4', '1'), (6, '4', '2'), (7, '4', '3'), (10, 'C', '4')] := by
  intro characters gap fix
  obtain ⟨p, hp, hi⟩ := build_image ⟨4, by decide, by decide⟩ [characters, gap, fix] "P" 5 6 (by
    intro s hs
    simp only [List.mem_cons, List.not_mem_nil, or_false] at hs
    rcases hs with rfl | rfl | rfl <;> exact ⟨_, rfl, by decide⟩)
  exact ⟨p, hp, hi.trans (by decide)⟩

end ObjectProgram

end TwoPass
