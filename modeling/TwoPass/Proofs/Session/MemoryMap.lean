import TwoPass.Proofs.Object.Order
import TwoPass.Proofs.Session.Resolution

/-!
The memory of an assembled program. The statements behind the last `START` fill the range of the header
without a gap: each byte of it is either code of exactly one of them or reserved by one. Nothing of the kind
holds of statements in front of that `START`, so the text records are in order only if these are.
-/

namespace TwoPass

/-! ## Bytes of a statement -/

namespace Statement

/-- The addresses of the bytes that a statement emits. -/
def addresses (s : Statement) : List Int :=
  s.image.map (·.1)

/-- Bytes that a statement sets aside without code for them. -/
def reserved (s : Statement) : Nat :=
  match s.body with
  | .directive .reserveWords count => 3 * count
  | .directive .reserveBytes count => count
  | _ => 0

variable {s : Statement}

theorem addresses_of_code {code : List Char} (h : s.code = .ok code) :
    s.addresses = span s.offset (code.length / 2) := by
  simp only [addresses, image, h, addresses_bytesAt]

theorem room_of_size {n : Nat} (h : s.size = .ok n) : s.room = n := by
  rw [room, h]
  rfl

theorem reserved_of_not_isEmitted (he : s.isEmitted = false) (hs : s.isStart = false) :
    s.reserved = s.room := by
  cases hb : s.body with
  | instruction i => simp [isEmitted, hb] at he
  | remark => simp only [reserved, room, size, hb]; rfl
  | directive d value =>
      cases d with
      | start => simp [isStart, hb] at hs
      | byte => simp [isEmitted, hb, Directive.isData, Directive.dataWidth?] at he
      | word => simp [isEmitted, hb, Directive.isData, Directive.dataWidth?] at he
      | reserveWords => simp only [reserved, room, size, hb]; exact Nat.mul_comm 3 value
      | _ => simp only [reserved, room, size, hb]; rfl

theorem reserved_of_isEmitted (he : s.isEmitted = true) : s.reserved = 0 := by
  cases hb : s.body with
  | directive d value =>
      cases d with
      | reserveWords => simp [isEmitted, hb, Directive.isData, Directive.dataWidth?] at he
      | reserveBytes => simp [isEmitted, hb, Directive.isData, Directive.dataWidth?] at he
      | _ => simp only [reserved, hb]
  | _ => simp only [reserved, hb]

theorem WellFormed.addresses_of_not_isEmitted (h : s.WellFormed) (he : s.isEmitted = false) :
    s.addresses = [] := by
  obtain ⟨n, code, -, hcode, hhex⟩ := size_code h
  simp only [he, Bool.false_eq_true, ↓reduceIte] at hhex
  rw [addresses_of_code hcode, hhex]
  rfl

theorem WellFormed.addresses_of_not_isLoaded (h : s.WellFormed) (hl : s.isLoaded = false) :
    s.addresses = [] := by
  refine h.addresses_of_not_isEmitted ?_
  cases he : s.isEmitted with
  | false => rfl
  | true => rw [isLoaded_of_isEmitted he] at hl; cases hl

/-- The room of a statement is code from end to end, or it is reserved from end to end. -/
theorem WellFormed.filled (h : s.WellFormed) (hs : s.isStart = false) :
    s.addresses = span s.offset s.room ∧ s.reserved = 0 ∨ s.addresses = [] ∧ s.reserved = s.room := by
  cases he : s.isEmitted with
  | true =>
      obtain ⟨n, code, hn, hcode, hhex⟩ := size_code h
      simp only [he, ↓reduceIte] at hhex
      have haddresses := addresses_of_code hcode
      rw [hhex.length, Nat.mul_div_cancel_left n (by decide), ← room_of_size hn] at haddresses
      exact .inl ⟨haddresses, reserved_of_isEmitted he⟩
  | false => exact .inr ⟨h.addresses_of_not_isEmitted he, reserved_of_not_isEmitted he hs⟩

end Statement

/-! ## Statements one behind the other -/

namespace Layout

/-- The addresses of all emitted bytes, statement by statement. -/
def emitted (statements : List Statement) : List Int :=
  statements.flatMap (·.addresses)

/-- The statements up to the last `START`, or none. -/
def upToStart (statements : List Statement) : List Statement :=
  (statements.reverse.dropWhile fun s => !s.isStart).reverse

/-- No statement is a `START`, the first stands at the address, and each other one behind the one before. -/
def Abut : Int → List Statement → Prop
  | _, [] => True
  | address, s :: rest => s.isStart = false ∧ s.offset = address ∧ Abut (address + s.room) rest

/-- Bytes that all statements take. -/
def extent (statements : List Statement) : Nat :=
  (statements.map (·.room)).sum

theorem upToStart_append (l : List Statement) : upToStart l ++ sinceStart l = l := by
  rw [upToStart, sinceStart, ← List.reverse_append, List.takeWhile_append_dropWhile, List.reverse_reverse]

theorem emitted_cons (s : Statement) (l : List Statement) : emitted (s :: l) = s.addresses ++ emitted l :=
  List.flatMap_cons

theorem emitted_append (l l' : List Statement) : emitted (l ++ l') = emitted l ++ emitted l' :=
  List.flatMap_append

@[simp] theorem extent_cons (s : Statement) (l : List Statement) : extent (s :: l) = s.room + extent l := by
  simp [extent]

@[simp] theorem extent_snoc (l : List Statement) (s : Statement) : extent (l ++ [s]) = extent l + s.room := by
  simp [extent]

theorem counter_eq (l : List Statement) : counter l = loadAddress l + extent (sinceStart l) := by
  -- From the end of the list, where a `START` makes all that stands before it not count.
  induction l using List.reverseRecOn with
  | nil => rfl
  | append_singleton l s ih =>
      rw [counter_snoc, sinceStart_snoc]
      cases hs : s.isStart with
      | true =>
          obtain ⟨value, hb⟩ := Statement.isStart_iff.mp hs
          rw [next_start hb, loadAddress_snoc_start l hb]
          simp [extent]
      | false =>
          rw [next_of_not_start hs, loadAddress_snoc l hs, ih]
          simp only [Bool.false_eq_true, ↓reduceIte, extent_snoc]
          omega

theorem abut_snoc {address : Int} {l : List Statement} {s : Statement} :
    Abut address (l ++ [s]) ↔ Abut address l ∧ s.isStart = false ∧ s.offset = address + extent l := by
  induction l generalizing address with
  | nil => simp [Abut, extent]
  | cons t rest ih =>
      simp only [List.cons_append, Abut, ih, extent_cons, Nat.cast_add, and_assoc, Int.add_assoc]

theorem abut_sinceStart {l : List Statement}
    (h : ∀ pre s post, l = pre ++ s :: post → s.isStart = false → s.offset = counter pre) :
    Abut (loadAddress l) (sinceStart l) := by
  induction l using List.reverseRecOn with
  | nil => trivial
  | append_singleton l s ih =>
      have hl := ih fun pre t post hl ht => h pre t (post ++ [s]) (by simp [hl]) ht
      rw [sinceStart_snoc]
      cases hs : s.isStart with
      | true => trivial
      | false =>
          rw [loadAddress_snoc l hs, if_neg (by decide), abut_snoc]
          exact ⟨hl, hs, by rw [h l s [] rfl hs, counter_eq]⟩

/-! ## The map of a range -/

/-- Emitted bytes rise within the range, and what they leave free of it is what is reserved. -/
structure Mapped (low high : Int) (l : List Statement) : Prop where
  ascending : (emitted l).Pairwise (· < ·)
  inside : ∀ x ∈ emitted l, low ≤ x ∧ x < high
  free : ∀ x, (low ≤ x ∧ x < high ∧ x ∉ emitted l) ↔ ∃ s ∈ l, s.offset ≤ x ∧ x < s.offset + s.reserved

theorem Mapped.nil (address : Int) : Mapped address address [] where
  ascending := .nil
  inside := by simp [emitted]
  free := by
    intro x
    constructor
    · rintro ⟨hlow, hhigh, -⟩
      omega
    · rintro ⟨s, hs, -⟩
      cases hs

theorem Mapped.emit {high : Int} {s : Statement} {l : List Statement} (hs : s.addresses = span s.offset s.room)
    (hr : s.reserved = 0) (h : Mapped (s.offset + s.room) high l) (hle : s.offset + s.room ≤ high) :
    Mapped s.offset high (s :: l) where
  ascending := by
    rw [emitted_cons, hs]
    refine List.pairwise_append.mpr ⟨pairwise_span _ _, h.ascending, ?_⟩
    intro x hx y hy
    have hlow := (h.inside y hy).1
    rw [mem_span] at hx
    omega
  inside := by
    intro x hx
    rw [emitted_cons, List.mem_append, hs, mem_span] at hx
    rcases hx with hx | hx
    · omega
    · have := h.inside x hx
      omega
  free := by
    intro x
    have hfree := h.free x
    rw [emitted_cons, List.mem_append, hs, mem_span]
    -- The code of `s` is the low end of the range, so only the rest can be free.
    constructor
    · rintro ⟨hlow, hhigh, hx⟩
      obtain ⟨t, ht, hin⟩ := hfree.mp ⟨by omega, hhigh, fun hl => hx (.inr hl)⟩
      exact ⟨t, by simp [ht], hin⟩
    · rintro ⟨t, ht, hin⟩
      rcases List.mem_cons.mp ht with rfl | ht
      · omega
      · obtain ⟨hlow, hhigh, hx⟩ := hfree.mpr ⟨t, ht, hin⟩
        exact ⟨by omega, hhigh, by rintro (hspan | hl) <;> [omega; exact hx hl]⟩

theorem Mapped.reserve {high : Int} {s : Statement} {l : List Statement} (hs : s.addresses = [])
    (hr : s.reserved = s.room) (h : Mapped (s.offset + s.room) high l) (hle : s.offset + s.room ≤ high) :
    Mapped s.offset high (s :: l) where
  ascending := by
    rw [emitted_cons, hs]
    exact h.ascending
  inside := by
    intro x hx
    rw [emitted_cons, hs] at hx
    have := h.inside x hx
    omega
  free := by
    intro x
    have hfree := h.free x
    rw [emitted_cons, hs, List.nil_append]
    constructor
    · rintro ⟨hlow, hhigh, hx⟩
      -- What the rest emits begins behind `s`, so the room of `s` is free as a whole.
      by_cases hin : x < s.offset + s.room
      · exact ⟨s, by simp, hlow, by omega⟩
      · obtain ⟨t, ht, hin⟩ := hfree.mp ⟨by omega, hhigh, hx⟩
        exact ⟨t, by simp [ht], hin⟩
    · rintro ⟨t, ht, hin⟩
      rcases List.mem_cons.mp ht with rfl | ht
      · refine ⟨hin.1, by omega, fun hx => ?_⟩
        have := (h.inside x hx).1
        omega
      · obtain ⟨hlow, hhigh, hx⟩ := hfree.mpr ⟨t, ht, hin⟩
        exact ⟨by omega, hhigh, hx⟩

theorem Abut.mapped {address : Int} {l : List Statement} (h : Abut address l)
    (hw : ∀ s ∈ l, s.WellFormed) : Mapped address (address + extent l) l := by
  induction l generalizing address with
  | nil => simpa [extent] using Mapped.nil address
  | cons s rest ih =>
      obtain ⟨hs, rfl, hrest⟩ := h
      have hmap := ih hrest fun t ht => hw t (by simp [ht])
      rw [extent_cons, Nat.cast_add, ← Int.add_assoc]
      rcases (hw s (by simp)).filled hs with ⟨haddresses, hr⟩ | ⟨haddresses, hr⟩
      · exact hmap.emit haddresses hr (by omega)
      · exact hmap.reserve haddresses hr (by omega)

/-! ## Along the second pass -/

theorem forall₂_takeWhile {α β : Type} {R : α → β → Prop} {p : α → Bool} {q : β → Bool}
    (hpq : ∀ x y, R x y → p x = q y) {l : List α} {l' : List β} (h : List.Forall₂ R l l') :
    List.Forall₂ R (l.takeWhile p) (l'.takeWhile q) := by
  induction h with
  | nil => exact .nil
  | @cons x y l l' hxy hrest ih =>
      rw [List.takeWhile_cons, List.takeWhile_cons, hpq x y hxy]
      split
      · exact .cons hxy ih
      · exact .nil

variable {table : SymbolTable} {l l' : List Statement}

theorem forall₂_sinceStart (h : List.Forall₂ (Statement.Completed table) l l') :
    List.Forall₂ (Statement.Completed table) (sinceStart l) (sinceStart l') := by
  rw [sinceStart, sinceStart, List.forall₂_reverse_iff]
  refine forall₂_takeWhile ?_ (List.forall₂_reverse_iff.mpr h)
  intro s s' hs
  rw [hs.isStart]

theorem Abut.completed {address : Int} (h : Abut address l)
    (hc : List.Forall₂ (Statement.Completed table) l l') : Abut address l' ∧ extent l' = extent l := by
  induction hc generalizing address with
  | nil => exact ⟨h, rfl⟩
  | @cons s s' l l' hs _ ih =>
      obtain ⟨hstart, hoffset, hrest⟩ := h
      have hroom : s'.room = s.room := by rw [Statement.room, Statement.room, hs.revised.size]
      obtain ⟨hrest', hextent⟩ := ih hrest
      rw [← hroom] at hrest'
      refine ⟨⟨hs.isStart.trans hstart, hs.revised.offset.trans hoffset, hrest'⟩, ?_⟩
      rw [extent_cons, extent_cons, hroom, hextent]

/-- Statements that are not loaded emit nothing that could be missed. -/
theorem emitted_of_isLoaded {l : List Statement} (h : ∀ s ∈ l, s.WellFormed) :
    ((l.filter (·.isLoaded)).flatMap (·.image)).map (·.1) = emitted l := by
  induction l with
  | nil => rfl
  | cons s rest ih =>
      have hrest := ih fun t ht => h t (by simp [ht])
      rw [emitted_cons, ← hrest]
      cases hs : s.isLoaded with
      | true => rw [List.filter_cons_of_pos hs, List.flatMap_cons, List.map_append, Statement.addresses]
      | false =>
          rw [List.filter_cons_of_neg (by simp [hs]), (h s (by simp)).addresses_of_not_isLoaded hs,
            List.nil_append]

end Layout

/-! ## Assemblies without errors -/

open Layout

namespace Assembly

variable {a₀ a b : Assembly} {p : ObjectProgram}

theorem Complete.inStep (h : Complete a p b) (hs : Settled a₀ a) : InStep a := by
  refine hs.inStep ?_
  cases hl : a.limitReached with
  | false => rfl
  | true => exact absurd (hasErrors_of_limitReached hl) (by simp [h.clean])

theorem Complete.mapped (h : Complete a p b) (hs : Settled a₀ a) :
    Mapped p.start (p.start + p.length) (sinceStart b.statements) := by
  have hi := h.inStep hs
  obtain ⟨habut, hextent⟩ := (abut_sinceStart hs.placed.laid.offset).completed (forall₂_sinceStart h.statements)
  have hmap := habut.mapped fun s hm => h.wellFormed hs s (mem_of_mem_sinceStart hm)
  obtain ⟨hstart, hlength⟩ := ObjectProgram.range_of_build h.build
  have hlow : p.start = loadAddress a.statements := by rw [hstart, h.start, hi.start]
  have hhigh : p.start + p.length = loadAddress a.statements + extent (sinceStart b.statements) := by
    rw [hstart, hlength, Assembly.length, h.pc, hi.pc, counter_eq, hextent]
    omega
  rw [hhigh, hlow]
  exact hmap

theorem Complete.addresses (h : Complete a p b) (hs : Settled a₀ a) :
    p.addresses = emitted (upToStart b.statements) ++ emitted (sinceStart b.statements) := by
  have hw := h.wellFormed hs
  rw [← emitted_append, upToStart_append, ← emitted_of_isLoaded hw, ObjectProgram.addresses,
    ObjectProgram.image_of_build h.build fun s hm => (hw s hm).even_code]

theorem Complete.inOrder_iff (h : Complete a p b) (hs : Settled a₀ a) :
    p.InOrder ↔ (emitted (upToStart b.statements)).Pairwise (· < ·) ∧
      ∀ x ∈ emitted (upToStart b.statements), p.start ≤ x ∧ x < p.start + p.length ∧
        ∀ y ∈ emitted (sinceStart b.statements), x < y := by
  have hmap := h.mapped hs
  have hsolid := ObjectProgram.solid_of_build h.build fun s hm => (h.wellFormed hs s hm).even_code
  rw [ObjectProgram.inOrder_iff hsolid, h.addresses hs, List.pairwise_append, List.forall_mem_append]
  constructor
  · rintro ⟨⟨hasc, -, hbefore⟩, hin, -⟩
    exact ⟨hasc, fun x hx => ⟨(hin x hx).1, (hin x hx).2, hbefore x hx⟩⟩
  · rintro ⟨hasc, h⟩
    exact ⟨⟨hasc, hmap.ascending, fun x hx => (h x hx).2.2⟩,
      fun x hx => ⟨(h x hx).1, (h x hx).2.1⟩, hmap.inside⟩

end Assembly

/-! ## The session -/

namespace Session

variable {session session' : Session} {source file text : String}

theorem exists_complete (h : assembleText source file session = .ok (some text) session') :
    ∃ a₀ a p, Assembly.Settled a₀ a ∧ Assembly.Complete a p session'.assembly ∧ text = p.render := by
  obtain ⟨a₀, p, hcreate, hcomplete, htext⟩ :=
    ((assembleText_outcome session source file).of_ok h).complete text rfl
  exact ⟨a₀, _, p, Assembly.pass1_settled (sourceLines source) hcreate, hcomplete, htext⟩

/-- The statements behind the last `START` emit rising addresses of the range in the header, and the rest
of that range is what they reserve. -/
theorem assembleText_memoryMap (h : assembleText source file session = .ok (some text) session') :
    ∃ p, session'.assembly.object = some p ∧ text = p.render ∧
      let placed := sinceStart session'.assembly.statements
      emitted placed <:+ p.addresses ∧
      (emitted placed).Pairwise (· < ·) ∧
      (∀ x ∈ emitted placed, p.start ≤ x ∧ x < p.start + p.length) ∧
      ∀ x, (p.start ≤ x ∧ x < p.start + p.length ∧ x ∉ emitted placed) ↔
        ∃ s ∈ placed, s.offset ≤ x ∧ x < s.offset + s.reserved := by
  obtain ⟨a₀, a, p, hsettled, hcomplete, htext⟩ := exists_complete h
  have hmap := hcomplete.mapped hsettled
  refine ⟨p, hcomplete.object, htext, ?_, hmap.ascending, hmap.inside, hmap.free⟩
  rw [hcomplete.addresses hsettled]
  exact List.suffix_append _ _

/-- Two programs in one source: only the second counts, with characters, words and no bytes reserved, and
an instruction. -/
theorem assembleText_memoryMap_twice :
    let source := "Q       START  2000\n        LDA    1\nP       START  1000\n        BYTE   C'EOF'\n" ++
      "        RESW   2\n        RESB   0\n        FIX\n        END    P"
    ∃ (session session' : Session) (text : String) (p : ObjectProgram),
      create {} false {} = .ok session ∧
      assembleText source "map.asm" session = .ok (some text) session' ∧
      session'.assembly.object = some p ∧ p.start = 0x1000 ∧ p.length = 10 ∧
      let placed := sinceStart session'.assembly.statements
      emitted placed = [0x1000, 0x1001, 0x1002, 0x1009] ∧
      (∀ x ∈ emitted placed, p.start ≤ x ∧ x < p.start + p.length) ∧
      ∀ x, (p.start ≤ x ∧ x < p.start + p.length ∧ x ∉ emitted placed) ↔
        ∃ s ∈ placed, s.offset ≤ x ∧ x < s.offset + s.reserved := by
  intro source
  obtain ⟨session, hcreate⟩ : ∃ session, create {} false {} = .ok session := ⟨_, rfl⟩
  have hrun : ((assembleText source "map.asm").value? session).join.isSome = true ∧
      let b := ((assembleText source "map.asm").after session).assembly
      b.object.map (fun p => (p.start, p.length)) = some (0x1000, 10) ∧
      emitted (sinceStart b.statements) = [0x1000, 0x1001, 0x1002, 0x1009] := by
    cases hcreate
    decide +kernel
  obtain ⟨hsome, hrange, hemitted⟩ := hrun
  obtain ⟨text, h⟩ := exists_text hsome
  obtain ⟨p, hp, -, -, -, hinside, hfree⟩ := assembleText_memoryMap h
  rw [hp, Option.map_some, Option.some.injEq, Prod.mk.injEq] at hrange
  exact ⟨session, _, text, p, hcreate, h, hp, hrange.1, hrange.2, hemitted, hinside, hfree⟩

/-- Text records are in order exactly if the code in front of the last `START` rises, keeps to the range in
the header and stays below the code behind that `START`; all other code is in order anyway. -/
theorem assembleText_inOrder_iff (h : assembleText source file session = .ok (some text) session') :
    ∃ p, session'.assembly.object = some p ∧ text = p.render ∧
      let early := upToStart session'.assembly.statements
      (p.InOrder ↔ (emitted early).Pairwise (· < ·) ∧
        ∀ x ∈ emitted early, p.start ≤ x ∧ x < p.start + p.length ∧
          ∀ y ∈ emitted (sinceStart session'.assembly.statements), x < y) := by
  obtain ⟨a₀, a, p, hsettled, hcomplete, htext⟩ := exists_complete h
  exact ⟨p, hcomplete.object, htext, hcomplete.inOrder_iff hsettled⟩

/-- The second program reserves the room that the first has filled. -/
theorem assembleText_inOrder_overlay :
    let source := "P       START  10\n        LDA    1\nQ       START  10\n        RESB   3\n        LDA    2"
    ∃ (session session' : Session) (text : String) (p : ObjectProgram),
      create {} false {} = .ok session ∧
      assembleText source "overlay.asm" session = .ok (some text) session' ∧
      session'.assembly.object = some p ∧
      emitted (upToStart session'.assembly.statements) = [0x10, 0x11, 0x12] ∧ p.InOrder := by
  intro source
  obtain ⟨session, hcreate⟩ : ∃ session, create {} false {} = .ok session := ⟨_, rfl⟩
  have hrun : ((assembleText source "overlay.asm").value? session).join.isSome = true ∧
      let b := ((assembleText source "overlay.asm").after session).assembly
      b.object.map (fun p => (p.start, p.length)) = some (0x10, 6) ∧
      emitted (upToStart b.statements) = [0x10, 0x11, 0x12] ∧
      emitted (sinceStart b.statements) = [0x13, 0x14, 0x15] := by
    cases hcreate
    decide +kernel
  obtain ⟨hsome, hrange, hearly, hlate⟩ := hrun
  obtain ⟨text, h⟩ := exists_text hsome
  obtain ⟨p, hp, -, hiff⟩ := assembleText_inOrder_iff h
  rw [hp, Option.map_some, Option.some.injEq, Prod.mk.injEq] at hrange
  refine ⟨session, _, text, p, hcreate, h, hp, hearly, hiff.mpr ?_⟩
  rw [hearly, hlate, hrange.1, hrange.2]
  decide

/-- A second `START` below the first puts the records out of order, although both lie in the range. -/
theorem not_inOrder_of_two_starts :
    let source := "A       START  1003\n        LDA    1\nB       START  1000\n        LDA    2\n        RESB   3\n"
    ∃ (session session' : Session) (p : ObjectProgram),
      create {} false {} = .ok session ∧
      assembleText source "two.asm" session =
        .ok (some "HB     001000000006\nT00100303000001\nT00100003000002\nE001000\n") session' ∧
      session'.assembly.object = some p ∧
      (∀ r ∈ p.texts, p.start ≤ r.start ∧ r.stop ≤ p.start + p.length) ∧ ¬p.InOrder := by
  intro source
  obtain ⟨session, hcreate⟩ : ∃ session, create {} false {} = .ok session := ⟨_, rfl⟩
  have hrun : (assembleText source "two.asm").value? session =
        some (some "HB     001000000006\nT00100303000001\nT00100003000002\nE001000\n") ∧
      ((assembleText source "two.asm").after session).assembly.object =
        some ⟨"B", 0x1000, 6, [⟨0x1003, "000001".toList⟩, ⟨0x1000, "000002".toList⟩]⟩ := by
    cases hcreate
    decide +kernel
  refine ⟨session, _, _, hcreate, Action.eq_ok_of_value? hrun.1, hrun.2, by decide, fun hp => ?_⟩
  exact absurd hp.ascending (by decide)

end Session

end TwoPass
