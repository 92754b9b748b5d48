import TwoPass.Proofs.Object.Image

/-!
The order of text records. A record covers a run of addresses, one for each of its bytes, and packing makes no
record without bytes. So records follow one another and lie inside the program exactly if the addresses
of all bytes, taken record by record, rise and lie inside the program.
-/

namespace TwoPass

/-! ## Runs of addresses -/

/-- The addresses of `n` bytes from `start` on. -/
def span (start : Int) (n : Nat) : List Int :=
  (List.range n).map fun k : Nat => start + k

theorem mem_span {start x : Int} {n : Nat} : x ∈ span start n ↔ start ≤ x ∧ x < start + n := by
  simp only [span, List.mem_map, List.mem_range]
  constructor
  · rintro ⟨k, hk, rfl⟩
    omega
  · intro ⟨hlow, hhigh⟩
    exact ⟨(x - start).toNat, by omega, by omega⟩

theorem pairwise_span (start : Int) (n : Nat) : (span start n).Pairwise (· < ·) := by
  rw [span, List.pairwise_map]
  refine List.pairwise_lt_range.imp ?_
  intro j k hjk
  omega

theorem span_before_iff {start start' : Int} {n n' : Nat} (hn : 0 < n) (hn' : 0 < n') :
    (∀ x ∈ span start n, ∀ y ∈ span start' n', x < y) ↔ start + n ≤ start' := by
  simp only [mem_span]
  constructor
  · intro h
    have := h (start + n - 1) (by omega) start' (by omega)
    omega
  · intro h x hx y hy
    omega

theorem span_inside_iff {start low high : Int} {n : Nat} (hn : 0 < n) :
    (∀ x ∈ span start n, low ≤ x ∧ x < high) ↔ low ≤ start ∧ start + n ≤ high := by
  simp only [mem_span]
  constructor
  · intro h
    have hfirst := h start (by omega)
    have hlast := h (start + n - 1) (by omega)
    omega
  · intro h x hx
    omega

theorem addresses_bytesAt (start : Int) (code : List Char) :
    (bytesAt start code).map (·.1) = span start (code.length / 2) := by
  rw [← length_byteDigits]
  apply List.ext_getElem
  · simp [bytesAt, span]
  · simp [bytesAt, span]

/-! ## Records with bytes -/

/-- A record of whole bytes, and of at least one. -/
structure TextRecord.Solid (r : TextRecord) : Prop where
  even : r.data.length % 2 = 0
  nonempty : r.data ≠ []

theorem TextRecord.Solid.length_pos {r : TextRecord} (h : r.Solid) : 0 < r.length := by
  have hpos := List.length_pos_iff.mpr h.nonempty
  have heven := h.even
  unfold TextRecord.length
  omega

theorem TextRecord.addresses (r : TextRecord) : r.image.map (·.1) = span r.start r.length :=
  addresses_bytesAt r.start r.data

namespace RecordBuffer

theorem cut_solid {limit : Nat} (hl : limit % 2 = 0) (address : Int) (code : List Char) :
    ∀ r ∈ (cut limit address code).1, r.Solid := by
  fun_induction cut limit address code with
  | case1 address code h full last hcut ih =>
      have ht : (code.take limit).length = limit := by
        rw [List.length_take]; omega
      rw [hcut] at ih
      intro r hr
      rcases List.mem_cons.mp hr with rfl | hr
      · exact ⟨by rw [ht]; exact hl, List.ne_nil_of_length_pos (by rw [ht]; exact h.1)⟩
      · exact ih r hr
  | case2 address code h => simp

structure Solid (b : RecordBuffer) : Prop extends Aligned b where
  records : ∀ r ∈ b.records, r.Solid

theorem Solid.flush {b : RecordBuffer} (h : b.Solid) : b.flush.Solid := by
  refine ⟨h.toAligned.flush, ?_⟩
  unfold RecordBuffer.flush
  split
  · exact h.records
  · rename_i hd
    intro r hr
    rcases List.mem_append.mp hr with hr | hr
    · exact h.records r hr
    · rw [List.mem_singleton.mp hr]
      exact ⟨h.data_even, by simpa using hd⟩

theorem Solid.append {b : RecordBuffer} (h : b.Solid) (address : Int) {code : List Char} (hc : code ≠ [])
    (hn : code.length % 2 = 0) : (b.append address code).Solid := by
  refine ⟨h.toAligned.append address hc hn, ?_⟩
  rcases b.append_cases address hc with ⟨he, _⟩ | ⟨he, _⟩
  · rw [he]
    intro r hr
    rcases List.mem_append.mp hr with hr | hr
    · exact h.flush.records r hr
    · exact cut_solid h.flush.limit_even address code r hr
  · rw [he]
    exact h.records

theorem map_append_cases {b b' : RecordBuffer} {s : Statement}
    (h : (s.code).map (fun code => if code.isEmpty then b else b.append s.offset code) = .ok b') :
    b' = b ∨ ∃ code, s.code = .ok code ∧ code ≠ [] ∧ b' = b.append s.offset code := by
  cases hs : s.code with
  | error fault => rw [hs] at h; cases h
  | ok code =>
      rw [hs] at h
      cases h
      by_cases hc : code = []
      · left; simp [hc]
      · right; exact ⟨code, rfl, hc, if_neg (by simpa using hc)⟩

/-- A statement leaves the buffer alone, closes the record, or adds its code. -/
theorem add_cases {b b' : RecordBuffer} {s : Statement} (h : b.add s = .ok b') :
    b' = b ∨ b' = b.flush ∨ ∃ code, s.code = .ok code ∧ code ≠ [] ∧ b' = b.append s.offset code := by
  unfold add at h
  split at h
  · cases h; exact .inl rfl
  · split at h
    · cases h; exact .inr (.inl rfl)
    · exact (map_append_cases h).imp_right .inr
  · exact (map_append_cases h).imp_right .inr

theorem Solid.add {b b' : RecordBuffer} (h : b.Solid) {s : Statement}
    (hs : ∃ code, s.code = .ok code ∧ code.length % 2 = 0) (hb : b.add s = .ok b') : b'.Solid := by
  rcases add_cases hb with rfl | rfl | ⟨code, hcode, hc, rfl⟩
  · exact h
  · exact h.flush
  · obtain ⟨_, hcode', hn⟩ := hs
    cases hcode.symm.trans hcode'
    exact h.append s.offset hc hn

theorem Solid.addAll {b b' : RecordBuffer} (h : b.Solid) {statements : List Statement}
    (hs : ∀ s ∈ statements, ∃ code, s.code = .ok code ∧ code.length % 2 = 0)
    (hb : b.addAll statements = .ok b') : b'.Solid := by
  induction statements generalizing b with
  | nil => cases hb; exact h
  | cons s rest ih =>
      cases hadd : b.add s with
      | error fault => simp [RecordBuffer.addAll, hadd] at hb
      | ok b₁ =>
          simp only [RecordBuffer.addAll, hadd] at hb
          exact ih (h.add (hs s (by simp)) hadd) (fun t ht => hs t (by simp [ht])) hb

end RecordBuffer

/-! ## Order -/

namespace ObjectProgram

/-- The addresses of all bytes, record by record. -/
def addresses (p : ObjectProgram) : List Int :=
  p.image.map (·.1)

/-- Text records rise without overlap, and lie in the range that the header gives. -/
structure InOrder (p : ObjectProgram) : Prop where
  ascending : p.texts.Pairwise fun r r' => r.start < r'.start ∧ r.stop ≤ r'.start
  inside : ∀ r ∈ p.texts, p.start ≤ r.start ∧ r.stop ≤ p.start + p.length

theorem addresses_eq (p : ObjectProgram) : p.addresses = p.texts.flatMap fun r => span r.start r.length := by
  simp only [addresses, image, List.map_flatMap, TextRecord.addresses]

theorem inOrder_iff {p : ObjectProgram} (h : ∀ r ∈ p.texts, r.Solid) :
    p.InOrder ↔ p.addresses.Pairwise (· < ·) ∧
      ∀ x ∈ p.addresses, p.start ≤ x ∧ x < p.start + p.length := by
  have hbefore : (p.texts.Pairwise fun r r' => r.start < r'.start ∧ r.stop ≤ r'.start) ↔
      p.texts.Pairwise fun r r' =>
        ∀ x ∈ span r.start r.length, ∀ y ∈ span r'.start r'.length, x < y := by
    refine List.Pairwise.iff_of_mem ?_
    intro r r' hr hr'
    have hpos := (h r hr).length_pos
    rw [span_before_iff hpos (h r' hr').length_pos, TextRecord.stop]
    omega
  have hinside : (∀ r ∈ p.texts, p.start ≤ r.start ∧ r.stop ≤ p.start + p.length) ↔
      ∀ r ∈ p.texts, ∀ x ∈ span r.start r.length, p.start ≤ x ∧ x < p.start + p.length :=
    forall₂_congr fun r hr => (span_inside_iff (h r hr).length_pos).symm
  have hruns : ∀ r ∈ p.texts, (span r.start r.length).Pairwise (· < ·) :=
    fun r _ => pairwise_span r.start r.length
  rw [addresses_eq, List.pairwise_flatMap]
  constructor
  · intro ho
    refine ⟨⟨hruns, hbefore.mp ho.ascending⟩, ?_⟩
    intro x hx
    obtain ⟨r, hr, hx⟩ := List.mem_flatMap.mp hx
    exact hinside.mp ho.inside r hr x hx
  · rintro ⟨⟨_, hasc⟩, hin⟩
    exact ⟨hbefore.mpr hasc,
      hinside.mpr fun r hr x hx => hin x (List.mem_flatMap.mpr ⟨r, hr, hx⟩)⟩

variable {limit : RecordLimit} {statements : List Statement} {name : String} {start length : Int}

theorem range_of_build {p : ObjectProgram} (hp : build limit statements name start length = .ok p) :
    p.start = start ∧ p.length = length := by
  unfold build at hp
  cases hb : RecordBuffer.addAll { limit := limit.digits } statements with
  | error fault => simp [hb, Except.map] at hp
  | ok b => simp only [hb, Except.map] at hp; cases hp; exact ⟨rfl, rfl⟩

theorem solid_of_build {p : ObjectProgram} (hp : build limit statements name start length = .ok p)
    (h : ∀ s ∈ statements, ∃ code, s.code = .ok code ∧ code.length % 2 = 0) :
    ∀ r ∈ p.texts, r.Solid := by
  have hs : ({ limit := limit.digits } : RecordBuffer).Solid := ⟨⟨limit.even, rfl⟩, by simp⟩
  unfold build at hp
  cases hb : RecordBuffer.addAll { limit := limit.digits } statements with
  | error fault => simp [hb, Except.map] at hp
  | ok b =>
      simp only [hb, Except.map] at hp
      cases hp
      exact (hs.addAll h hb).flush.records

end ObjectProgram

end TwoPass
