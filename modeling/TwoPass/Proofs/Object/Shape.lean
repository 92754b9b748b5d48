import Mathlib.Data.List.Forall2
import TwoPass.Object.Pack

/-!
Packing looks at how long object code is and where it stands, never at its digits: statements that differ only
in the digits of their code go into records with the same addresses and lengths.
-/

namespace TwoPass

/-- A record by where it stands and how many digits it holds. -/
def TextRecord.shape (r : TextRecord) : Int × Nat :=
  (r.start, r.data.length)

theorem isEmpty_of_length_eq {xs ys : List Char} (h : ys.length = xs.length) : ys.isEmpty = xs.isEmpty := by
  cases xs with
  | nil => rw [List.length_eq_zero_iff.mp h]
  | cons x xs =>
      cases ys with
      | nil => cases h
      | cons y ys => rfl

/-! ## The record buffer -/

namespace RecordBuffer

variable {b b' : RecordBuffer} {code code' : List Char}

structure SameShape (b b' : RecordBuffer) : Prop where
  limit : b'.limit = b.limit
  records : b'.records.map (·.shape) = b.records.map (·.shape)
  start : b'.start = b.start
  data : b'.data.length = b.data.length

theorem cut_shape (limit : Nat) (address : Int) (h : code'.length = code.length) :
    (cut limit address code').1.map (·.shape) = (cut limit address code).1.map (·.shape) ∧
      (cut limit address code').2.shape = (cut limit address code).2.shape := by
  fun_induction cut limit address code generalizing code' with
  | case1 address code hlong full last hcut ih =>
      have hdrop : (code'.drop limit).length = (code.drop limit).length := by
        rw [List.length_drop, List.length_drop, h]
      obtain ⟨hfull, hlast⟩ := ih hdrop
      rw [hcut] at hfull hlast
      rw [cut, dif_pos (by rwa [h])]
      refine ⟨?_, hlast⟩
      rw [List.map_cons, List.map_cons, hfull]
      simp only [TextRecord.shape, List.length_take, h]
  | case2 address code hshort =>
      rw [cut, dif_neg (by rwa [h])]
      exact ⟨rfl, by rw [TextRecord.shape, TextRecord.shape, h]⟩

namespace SameShape

theorem refl (b : RecordBuffer) : b.SameShape b := ⟨rfl, rfl, rfl, rfl⟩

theorem flush (h : b.SameShape b') : b.flush.SameShape b'.flush := by
  unfold RecordBuffer.flush
  rw [isEmpty_of_length_eq h.data]
  split
  · exact h
  · refine ⟨h.limit, ?_, h.start, rfl⟩
    rw [List.map_append, List.map_append, h.records]
    simp only [List.map_cons, List.map_nil, TextRecord.shape, h.start, h.data]

theorem breaks (h : b.SameShape b') (address : Int) (hc : code'.length = code.length) :
    b'.breaks address code' = b.breaks address code := by
  simp only [RecordBuffer.breaks, next, isEmpty_of_length_eq h.data, h.limit, h.start, h.data, hc]

theorem append (h : b.SameShape b') (address : Int) (hc : code'.length = code.length) :
    (b.append address code).SameShape (b'.append address code') := by
  have hopen : SameShape (if b.breaks address code then b.flush else b)
      (if b'.breaks address code' then b'.flush else b') := by
    rw [h.breaks address hc]
    split
    · exact h.flush
    · exact h
  unfold RecordBuffer.append
  generalize (if b.breaks address code then b.flush else b) = c at hopen ⊢
  generalize (if b'.breaks address code' then b'.flush else b') = c' at hopen ⊢
  dsimp only
  rw [isEmpty_of_length_eq hc, isEmpty_of_length_eq hopen.data]
  split
  · exact hopen
  · split
    · obtain ⟨hfull, hlast⟩ := cut_shape c.limit address hc
      rw [hopen.limit]
      refine ⟨rfl, ?_, congrArg Prod.fst hlast, congrArg Prod.snd hlast⟩
      rw [List.map_append, List.map_append, hopen.records, hfull]
    · refine ⟨hopen.limit, hopen.records, hopen.start, ?_⟩
      simp only [List.length_append, hopen.data, hc]

end SameShape

end RecordBuffer

/-! ## Statements -/

namespace Statement

/-- Whether a statement closes the record that is open. -/
def isReservation (s : Statement) : Bool :=
  match s.body with
  | .directive d _ => d.isReserve
  | _ => false

/-- `s'` is packed as `s` is, digits apart. -/
structure PacksLike (s s' : Statement) : Prop where
  offset : s'.offset = s.offset
  isReservation : s'.isReservation = s.isReservation
  code : ∃ code code', s.code = .ok code ∧ s'.code = .ok code' ∧ code'.length = code.length

end Statement

namespace RecordBuffer

variable {b b' : RecordBuffer} {s s' : Statement}

/-- A remark has no code either, so it needs no case of its own. -/
theorem add_eq (b : RecordBuffer) {code : List Char} (h : s.code = .ok code) :
    b.add s = .ok (if s.isReservation then b.flush else if code.isEmpty then b else b.append s.offset code) := by
  cases hb : s.body with
  | remark =>
      have hnil : code = [] := by
        rw [Statement.code, hb] at h
        exact (Except.ok.inj h).symm
      simp [add, hb, Statement.isReservation, hnil]
  | instruction i => simp [add, hb, Statement.isReservation, h, Except.map]
  | directive d value =>
      cases hd : d.isReserve with
      | true => simp [add, hb, Statement.isReservation, hd]
      | false => simp [add, hb, Statement.isReservation, hd, h, Except.map]

theorem SameShape.add (h : b.SameShape b') (hs : s.PacksLike s') :
    ∃ c c', b.add s = .ok c ∧ b'.add s' = .ok c' ∧ c.SameShape c' := by
  obtain ⟨code, code', hcode, hcode', hlength⟩ := hs.code
  refine ⟨_, _, b.add_eq hcode, b'.add_eq hcode', ?_⟩
  rw [hs.isReservation, hs.offset, isEmpty_of_length_eq hlength]
  split
  · exact h.flush
  · split
    · exact h
    · exact h.append s.offset hlength

theorem SameShape.addAll {l l' : List Statement} (h : b.SameShape b') (hl : List.Forall₂ Statement.PacksLike l l') :
    ∃ c c', b.addAll l = .ok c ∧ b'.addAll l' = .ok c' ∧ c.SameShape c' := by
  induction hl generalizing b b' with
  | nil => exact ⟨b, b', rfl, rfl, h⟩
  | cons hs _ ih =>
      obtain ⟨c, c', hc, hc', hsame⟩ := h.add hs
      simp only [RecordBuffer.addAll, hc, hc']
      exact ih hsame

end RecordBuffer

namespace ObjectProgram

/-- Addresses and lengths of the text records. -/
def shape (p : ObjectProgram) : List (Int × Nat) :=
  p.texts.map fun r => (r.start, r.length)

theorem build_shape {limit : RecordLimit} {l l' : List Statement} {name : String} {start length : Int}
    {p : ObjectProgram} (hl : List.Forall₂ Statement.PacksLike l l')
    (hp : build limit l name start length = .ok p) :
    ∃ p', build limit l' name start length = .ok p' ∧ p' = { p with texts := p'.texts } ∧ p'.shape = p.shape := by
  obtain ⟨b, b', hb, hb', hsame⟩ := (RecordBuffer.SameShape.refl { limit := limit.digits }).addAll hl
  rw [build, hb] at hp
  cases hp
  refine ⟨_, by rw [build, hb']; rfl, rfl, ?_⟩
  -- The length in bytes is read off the digits.
  have hbytes := congrArg (List.map fun x : Int × Nat => (x.1, x.2 / 2)) hsame.flush.records
  rwa [List.map_map, List.map_map] at hbytes

end ObjectProgram

end TwoPass
