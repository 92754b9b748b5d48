import TwoPass.Proofs.Assembly.ObjectFile
import TwoPass.Proofs.Object.Shape

/-!
Greedy packing. Code that a record can hold is never cut, and longer code is cut only where a record is full. A record
ends before its limit only where storage is reserved, where the addresses do not follow on, or because the code
that comes next would not have fitted. A buffer keeps this from statement to statement: the records closed so far,
with the one that is open, are packed code of the statements added so far.
-/

namespace TwoPass

/-- The digits of the object code, if the statement has any. -/
def Statement.digits (s : Statement) : List Char :=
  s.code.toOption.getD []

theorem Statement.digits_of_code {s : Statement} {code : List Char} (h : s.code = .ok code) : s.digits = code := by
  rw [digits, h]
  rfl

theorem Statement.digits_of_isReservation {s : Statement} (h : s.isReservation = true) : s.digits = [] := by
  rw [isReservation] at h
  split at h
  · next d value hbody =>
    apply digits_of_code
    rw [code, hbody]
    cases d with
    | reserveWords => rfl
    | reserveBytes => rfl
    | _ => cases h
  · cases h

/-! ## Splitting lists -/

theorem snoc_eq_append_cons {α : Type} {l before after : List α} {t s : α} (h : l ++ [t] = before ++ s :: after) :
    (before = l ∧ s = t ∧ after = []) ∨ ∃ after', after = after' ++ [t] ∧ l = before ++ s :: after' := by
  rcases List.eq_nil_or_concat after with rfl | ⟨after', u, rfl⟩
  · obtain ⟨rfl, hst⟩ := List.append_inj' h rfl
    cases hst
    exact .inl ⟨rfl, rfl, rfl⟩
  · rw [List.concat_eq_append, ← List.cons_append, ← List.append_assoc] at h
    obtain ⟨rfl, hut⟩ := List.append_inj' h rfl
    cases hut
    exact .inr ⟨after', List.concat_eq_append, rfl⟩

/-- Two neighbours stand on the left, on the right, or on either side of the joint. -/
theorem append_eq_append_pair {α : Type} {xs ys front back : List α} {r r' : α}
    (h : xs ++ ys = front ++ r :: r' :: back) :
    (∃ back', xs = front ++ r :: r' :: back' ∧ back = back' ++ ys) ∨ (xs = front ++ [r] ∧ ys = r' :: back) ∨
      ∃ front', front = xs ++ front' ∧ ys = front' ++ r :: r' :: back := by
  rcases List.append_eq_append_iff.mp h with ⟨front', rfl, rfl⟩ | ⟨zs, rfl, hzs⟩
  · exact .inr (.inr ⟨front', rfl, rfl⟩)
  · rcases List.cons_eq_append_iff.mp hzs with ⟨rfl, rfl⟩ | ⟨zs', rfl, hzs'⟩
    · exact .inr (.inr ⟨[], by simp, rfl⟩)
    · rcases List.cons_eq_append_iff.mp hzs' with ⟨rfl, rfl⟩ | ⟨back', rfl, rfl⟩
      · exact .inr (.inl ⟨rfl, rfl⟩)
      · exact .inl ⟨back', rfl, rfl⟩

namespace Packing

def digits (l : List Statement) : List Char :=
  l.flatMap (·.digits)

def payload (texts : List TextRecord) : List Char :=
  texts.flatMap (·.data)

variable {limit : Nat} {l : List Statement} {s t : Statement} {texts full front : List TextRecord}
  {r r' last : TextRecord} {before code : List Char} {address : Int}

theorem digits_snoc (l : List Statement) (s : Statement) : digits (l ++ [s]) = digits l ++ s.digits := by
  simp [digits]

theorem payload_append (xs ys : List TextRecord) : payload (xs ++ ys) = payload xs ++ payload ys := by
  simp [payload]

/-! ## What packing asks for -/

/-- The code behind `before` lies in one record, at its address. -/
def Within (texts : List TextRecord) (before code : List Char) (address : Int) : Prop :=
  ∃ front r back pre post, texts = front ++ r :: back ∧ before = payload front ++ pre ∧
    r.data = pre ++ code ++ post ∧ address = r.start + (pre.length / 2 : Nat)

/-- The code behind `before` begins a record at its address, fills it and those that follow, and ends in the last. -/
def Across (limit : Nat) (texts : List TextRecord) (before code : List Char) (address : Int) : Prop :=
  ∃ front full last back tail post, texts = front ++ full ++ last :: back ∧ before = payload front ∧
    code = payload full ++ tail ∧ tail ≠ [] ∧ last.data = tail ++ post ∧ (∀ r ∈ full, r.data.length = limit) ∧
    full.length = (code.length - 1) / limit ∧ (full ++ [last]).head?.map (·.start) = some address

/-- Storage is reserved behind the last code. -/
def Reserved (l : List Statement) : Prop :=
  ∃ l₁ t l₂, l = l₁ ++ t :: l₂ ∧ t.isReservation = true ∧ digits l₂ = []

/-- Why `r'` does not go on with `r`, the record behind `front`. The code that opens `r'` is `rest`, what is left of
a statement's code: storage is reserved before it, or it stands at another address, or `r` has no room for it. -/
def Parted (limit : Nat) (l : List Statement) (front : List TextRecord) (r r' : TextRecord) : Prop :=
  ∃ before s after done rest, l = before ++ s :: after ∧ s.digits = done ++ rest ∧ rest ≠ [] ∧
    payload (front ++ [r]) = digits before ++ done ∧
    (done = [] ∧ Reserved before ∨ r'.start ≠ r.stop ∨ limit < r.data.length + rest.length)

structure Packed (limit : Nat) (l : List Statement) (texts : List TextRecord) : Prop where
  complete : payload texts = digits l
  size : ∀ r ∈ texts, 0 < r.length ∧ r.data.length ≤ limit ∧ r.data.length % 2 = 0
  within : ∀ before s after, l = before ++ s :: after → s.digits ≠ [] → s.digits.length ≤ limit →
    Within texts (digits before) s.digits s.offset
  across : ∀ before s after, l = before ++ s :: after → limit < s.digits.length →
    Across limit texts (digits before) s.digits s.offset
  parted : ∀ front r r' back, texts = front ++ r :: r' :: back → Parted limit l front r r'

/-! ## More records -/

theorem Within.append (h : Within texts before code address) (more : List TextRecord) :
    Within (texts ++ more) before code address := by
  obtain ⟨front, r, back, pre, post, rfl, hrest⟩ := h
  exact ⟨front, r, back ++ more, pre, post, by simp, hrest⟩

theorem Across.append (h : Across limit texts before code address) (more : List TextRecord) :
    Across limit (texts ++ more) before code address := by
  obtain ⟨front, full, last, back, tail, post, rfl, hrest⟩ := h
  exact ⟨front, full, last, back ++ more, tail, post, by simp, hrest⟩

theorem Within.grow (h : Within (texts ++ [r]) before code address) (more : List Char) :
    Within (texts ++ [⟨r.start, r.data ++ more⟩]) before code address := by
  obtain ⟨front, u, back, pre, post, htexts, hbefore, hdata, haddress⟩ := h
  rcases snoc_eq_append_cons htexts with ⟨rfl, rfl, rfl⟩ | ⟨back, rfl, rfl⟩
  · exact ⟨front, _, [], pre, post ++ more, rfl, hbefore, by simp [hdata], haddress⟩
  · exact ⟨front, u, back ++ [⟨r.start, r.data ++ more⟩], pre, post, by simp, hbefore, hdata, haddress⟩

theorem Across.grow (h : Across limit (texts ++ [r]) before code address) (more : List Char) :
    Across limit (texts ++ [⟨r.start, r.data ++ more⟩]) before code address := by
  obtain ⟨front, full, u, back, tail, post, htexts, hbefore, hcode, htail, hdata, hfull, hcount, haddress⟩ := h
  rcases snoc_eq_append_cons htexts with ⟨rfl, rfl, rfl⟩ | ⟨back, rfl, rfl⟩
  · refine ⟨front, full, _, [], tail, post ++ more, rfl, hbefore, hcode, htail, by simp [hdata], hfull, hcount, ?_⟩
    cases full <;> exact haddress
  · exact ⟨front, full, u, back ++ [⟨r.start, r.data ++ more⟩], tail, post, by simp, hbefore, hcode, htail, hdata,
      hfull, hcount, haddress⟩

theorem Parted.snoc (h : Parted limit l front r r') (t : Statement) : Parted limit (l ++ [t]) front r r' := by
  obtain ⟨before, s, after, done, rest, rfl, hrest⟩ := h
  exact ⟨before, s, after ++ [t], done, rest, by simp, hrest⟩

theorem Reserved.snoc (h : Reserved l) (ht : t.digits = []) : Reserved (l ++ [t]) := by
  obtain ⟨l₁, u, l₂, rfl, hu, hl₂⟩ := h
  exact ⟨l₁, u, l₂ ++ [t], by simp, hu, by rw [digits_snoc, hl₂, ht]; rfl⟩

/-! ## One more statement -/

/-- The code that is in the records keeps its place and the code of `s` finds one: then the records are packed with
`s` as they were without it. -/
theorem Packed.snoc {texts' : List TextRecord} (h : Packed limit l texts)
    (hcomplete : payload texts' = digits l ++ s.digits)
    (hsize : ∀ r ∈ texts', 0 < r.length ∧ r.data.length ≤ limit ∧ r.data.length % 2 = 0)
    (hkept : ∀ before code address, (Within texts before code address → Within texts' before code address) ∧
      (Across limit texts before code address → Across limit texts' before code address))
    (hwithin : s.digits ≠ [] → s.digits.length ≤ limit → Within texts' (digits l) s.digits s.offset)
    (hacross : limit < s.digits.length → Across limit texts' (digits l) s.digits s.offset)
    (hparted : ∀ front r r' back, texts' = front ++ r :: r' :: back → Parted limit (l ++ [s]) front r r') :
    Packed limit (l ++ [s]) texts' := by
  refine ⟨by rw [hcomplete, digits_snoc], hsize, ?_, ?_, hparted⟩
  · intro before t after hl ht hle
    rcases snoc_eq_append_cons hl with ⟨rfl, rfl, -⟩ | ⟨after, rfl, rfl⟩
    · exact hwithin ht hle
    · exact (hkept _ _ _).1 (h.within before t after rfl ht hle)
  · intro before t after hl ht
    rcases snoc_eq_append_cons hl with ⟨rfl, rfl, -⟩ | ⟨after, rfl, rfl⟩
    · exact hacross ht
    · exact (hkept _ _ _).2 (h.across before t after rfl ht)

/-- A statement without code changes nothing. -/
theorem Packed.skip (h : Packed limit l texts) (hs : s.digits = []) : Packed limit (l ++ [s]) texts := by
  refine h.snoc ?_ h.size (fun _ _ _ => ⟨id, id⟩) (absurd hs) ?_ ?_
  · rw [h.complete, hs, List.append_nil]
  · intro hlong
    rw [hs] at hlong
    cases hlong
  · intro front r r' back htexts
    exact (h.parted front r r' back htexts).snoc s

/-- Code that follows on and fits goes into the last record. -/
theorem Packed.grow (h : Packed limit l (texts ++ [r])) (heven : s.digits.length % 2 = 0)
    (hfits : r.data.length + s.digits.length ≤ limit) (hnext : s.offset = r.stop) :
    Packed limit (l ++ [s]) (texts ++ [⟨r.start, r.data ++ s.digits⟩]) := by
  have hbefore : digits l = payload texts ++ r.data := by
    rw [← h.complete]
    simp [payload]
  refine h.snoc ?_ ?_ (fun _ _ _ => ⟨(·.grow _), (·.grow _)⟩) ?_ ?_ ?_
  · rw [hbefore]
    simp [payload]
  · intro u hu
    rcases List.mem_append.mp hu with hu | hu
    · exact h.size u (by simp [hu])
    · obtain ⟨hpos, -, hr⟩ := h.size r (by simp)
      rw [TextRecord.length] at hpos
      rw [List.mem_singleton.mp hu]
      simp only [TextRecord.length, List.length_append]
      omega
  · intro _ _
    exact ⟨texts, _, [], r.data, [], rfl, hbefore, by simp, hnext⟩
  · intro hlong
    omega
  · -- The last record begins where it began before.
    intro front u u' back htexts
    rcases append_eq_append_pair htexts with ⟨back, rfl, rfl⟩ | ⟨rfl, hlast⟩ | ⟨front', -, hlast⟩
    · exact (h.parted front u u' (back ++ [r]) (by simp)).snoc s
    · obtain ⟨rfl, rfl⟩ := List.cons.inj hlast
      exact (h.parted front u r [] (by simp)).snoc s
    · have hlength := congrArg List.length hlast
      simp only [List.length_append, List.length_cons, List.length_nil] at hlength
      omega

/-! ## Code that is cut -/

/-- Code cut into full records and a last one. -/
structure IsCut (limit : Nat) (address : Int) (code : List Char) (full : List TextRecord) (last : TextRecord) :
    Prop where
  joined : code = payload full ++ last.data
  filled : ∀ r ∈ full, r.data.length = limit
  nonempty : last.data ≠ []
  size : last.data.length ≤ limit
  count : full.length = (code.length - 1) / limit
  start : (full ++ [last]).head?.map (·.start) = some address

theorem isCut_cut (hlimit : 0 < limit) (hcode : code ≠ []) :
    IsCut limit address code (RecordBuffer.cut limit address code).1 (RecordBuffer.cut limit address code).2 := by
  fun_induction RecordBuffer.cut limit address code with
  | case1 address code h full last hcut ih =>
      have hdrop : code.drop limit ≠ [] := by
        rw [Ne, List.drop_eq_nil_iff]
        omega
      have hrest := ih hdrop
      rw [hcut] at hrest
      refine ⟨?_, ?_, hrest.nonempty, hrest.size, ?_, rfl⟩
      · calc
          code = code.take limit ++ code.drop limit := (List.take_append_drop limit code).symm
          _ = code.take limit ++ (payload full ++ last.data) := by rw [← hrest.joined]
          _ = payload (⟨address, code.take limit⟩ :: full) ++ last.data := by simp [payload]
      · intro r hr
        rcases List.mem_cons.mp hr with rfl | hr
        · exact List.length_take_of_le h.2.le
        · exact hrest.filled r hr
      · have hcount := hrest.count
        rw [List.length_drop] at hcount
        calc
          full.length + 1 = (code.length - 1 - limit) / limit + 1 := by rw [Nat.sub_right_comm, ← hcount]
          _ = (code.length - 1) / limit := (Nat.div_eq_sub_div hlimit (by omega)).symm
  | case2 address code h =>
      have hle : code.length ≤ limit := by omega
      have hpos := List.length_pos_iff.mpr hcode
      exact ⟨rfl, by simp, hcode, hle, (Nat.div_eq_of_lt (by omega)).symm, rfl⟩

theorem IsCut.payload_eq (h : IsCut limit address code full last) : payload (full ++ [last]) = code := by
  rw [h.joined]
  simp [payload]

theorem IsCut.nil_of_le (h : IsCut limit address code full last) (hle : code.length ≤ limit) : full = [] := by
  have hpos := List.length_pos_iff.mpr h.nonempty
  have hsize := h.size
  apply List.length_eq_zero_iff.mp
  rw [h.count]
  exact Nat.div_eq_of_lt (by omega)

/-- Inside the cut `r` is full, and what `last` holds is still to come. -/
theorem IsCut.parted {back : List TextRecord} (h : IsCut limit s.offset s.digits full last)
    (htexts : payload texts = digits l) (hcut : full ++ [last] = front ++ r :: r' :: back) :
    Parted limit (l ++ [s]) (texts ++ front) r r' := by
  rcases snoc_eq_append_cons hcut with ⟨-, -, hnil⟩ | ⟨mid, -, rfl⟩
  · cases hnil
  · have hrest : payload (mid ++ [last]) ≠ [] := by simp [payload, h.nonempty]
    refine ⟨l, s, [], payload (front ++ [r]), payload (mid ++ [last]), rfl, ?_, hrest, ?_, .inr (.inr ?_)⟩
    · rw [← h.payload_eq]
      simp [payload]
    · rw [← htexts]
      simp [payload]
    · have hfull := h.filled r (by simp)
      have hpos := List.length_pos_iff.mpr hrest
      omega

/-- Code that does not go into the last record begins one, and is cut if it is too long for that. -/
theorem Packed.cut (h : Packed limit l texts) (hlimit : limit % 2 = 0) (hcut : IsCut limit s.offset s.digits full last)
    (hlast : last.data.length % 2 = 0)
    (hends : ∀ front r, texts = front ++ [r] →
      Reserved l ∨ s.offset ≠ r.stop ∨ limit < r.data.length + s.digits.length) :
    Packed limit (l ++ [s]) (texts ++ (full ++ [last])) := by
  refine h.snoc ?_ ?_ (fun _ _ _ => ⟨(·.append _), (·.append _)⟩) ?_ ?_ ?_
  · rw [payload_append, hcut.payload_eq, h.complete]
  · intro u hu
    have hpos := List.length_pos_iff.mpr hcut.nonempty
    have hsize := hcut.size
    rw [TextRecord.length]
    rcases List.mem_append.mp hu with hu | hu
    · exact h.size u hu
    · rcases List.mem_append.mp hu with hu | hu
      · have := hcut.filled u hu
        omega
      · rw [List.mem_singleton.mp hu]
        omega
  · intro _ hle
    obtain rfl := hcut.nil_of_le hle
    have hstart : last.start = s.offset := Option.some.inj hcut.start
    exact ⟨texts, last, [], [], [], rfl, by simp [h.complete], by simpa [payload] using hcut.joined.symm,
      by simp [hstart]⟩
  · intro _
    exact ⟨texts, full, last, [], last.data, [], by simp, h.complete.symm, hcut.joined, hcut.nonempty, by simp,
      hcut.filled, hcut.count, hcut.start⟩
  · intro front u u' back htexts
    rcases append_eq_append_pair htexts with ⟨back', rfl, rfl⟩ | ⟨rfl, hfirst⟩ | ⟨front', rfl, hinside⟩
    · exact (h.parted front u u' back' rfl).snoc s
    · have hstart := hcut.start
      rw [hfirst] at hstart
      have hstart : u'.start = s.offset := Option.some.inj hstart
      have hs : s.digits ≠ [] := by simp [hcut.joined, hcut.nonempty]
      refine ⟨l, s, [], [], s.digits, rfl, rfl, hs, by simp [h.complete], ?_⟩
      rw [hstart]
      exact (hends front u rfl).imp_left fun hreserved => ⟨rfl, hreserved⟩
    · exact hcut.parted h.complete hinside

end Packing

/-! ## The buffer -/

namespace RecordBuffer

open Packing

variable {limit : RecordLimit} {l : List Statement} {s : Statement} {b : RecordBuffer}

theorem flush_of_nil (h : b.data = []) : b.flush = b := by
  simp [flush, h]

theorem flush_records (h : b.data ≠ []) : b.flush.records = b.records ++ [⟨b.start, b.data⟩] := by
  simp [flush, h]

theorem flush_limit (b : RecordBuffer) : b.flush.limit = b.limit := by
  rw [flush]
  split <;> rfl

/-- What the buffer holds is the code of the statements, packed. It is empty behind a record only where storage is
reserved. -/
structure Kept (limit : RecordLimit) (l : List Statement) (b : RecordBuffer) : Prop where
  limit_eq : b.limit = limit.digits
  packed : Packed limit.digits l b.flush.records
  reserved : b.data = [] → b.records ≠ [] → Reserved l

theorem kept_nil (limit : RecordLimit) : Kept limit [] { limit := limit.digits } :=
  ⟨rfl, ⟨rfl, by simp [flush], by simp, by simp, by simp [flush]⟩, by simp⟩

/-- Code that begins a record: the one before was closed for storage, or cannot take it. -/
theorem Kept.begun (h : Kept limit l b) (hs : s.digits ≠ []) (heven : s.digits.length % 2 = 0)
    (hbegins : b.data = [] ∨ s.offset ≠ b.next ∨ b.limit < b.data.length + s.digits.length) :
    Kept limit (l ++ [s]) (b.flush.begun s.offset s.digits) := by
  have hlimit : b.flush.limit = limit.digits := by rw [flush_limit, h.limit_eq]
  have hcut : IsCut limit.digits s.offset s.digits _ _ := isCut_cut (by have := limit.two_le; omega) hs
  have hopen : (b.flush.begun s.offset s.digits).data ≠ [] := by
    rw [RecordBuffer.begun, hlimit]
    exact hcut.nonempty
  refine ⟨hlimit, ?_, fun hnil => absurd hnil hopen⟩
  rw [flush_records hopen]
  simp only [RecordBuffer.begun, hlimit, List.append_assoc]
  refine h.packed.cut limit.even hcut (cut_even limit.even s.offset heven) ?_
  intro front r hr
  by_cases hdata : b.data = []
  · rw [flush_of_nil hdata] at hr
    exact .inl (h.reserved hdata (by simp [hr]))
  · rw [flush_records hdata] at hr
    obtain ⟨-, hr⟩ := List.append_inj' hr rfl
    cases hr
    rw [h.limit_eq] at hbegins
    exact .inr (hbegins.resolve_left hdata)

/-- Code that goes on with the open record. -/
theorem Kept.grown (h : Kept limit l b) (heven : s.digits.length % 2 = 0) (hdata : b.data ≠ [])
    (hnext : s.offset = b.next) (hfits : b.data.length + s.digits.length ≤ b.limit) :
    Kept limit (l ++ [s]) { b with data := b.data ++ s.digits } := by
  have hopen : b.data ++ s.digits ≠ [] := by simp [hdata]
  refine ⟨h.limit_eq, ?_, fun hnil => absurd hnil hopen⟩
  have hpacked := h.packed
  rw [flush_records hdata] at hpacked
  rw [h.limit_eq] at hfits
  rw [flush_records hopen]
  exact hpacked.grow heven hfits hnext

theorem Kept.add (h : Kept limit l b) {code : List Char} (hcode : s.code = .ok code) (heven : code.length % 2 = 0) :
    ∃ b', b.add s = .ok b' ∧ Kept limit (l ++ [s]) b' := by
  refine ⟨_, b.add_eq hcode, ?_⟩
  obtain rfl := Statement.digits_of_code hcode
  split
  · next hs =>
    -- A flushed buffer has nothing left to flush.
    have hflush : b.flush.flush = b.flush := flush_of_nil b.flush_data
    refine ⟨by rw [flush_limit, h.limit_eq], ?_, fun _ _ => ⟨l, s, [], rfl, hs, rfl⟩⟩
    rw [hflush]
    exact h.packed.skip (Statement.digits_of_isReservation hs)
  · split
    · next hnil =>
      have hnil : s.digits = [] := List.isEmpty_iff.mp hnil
      exact ⟨h.limit_eq, h.packed.skip hnil, fun hdata hrecords => (h.reserved hdata hrecords).snoc hnil⟩
    · next hs =>
      have hs : s.digits ≠ [] := fun hnil => hs (List.isEmpty_iff.mpr hnil)
      rcases b.append_cases s.offset hs with ⟨hb, hbegins⟩ | ⟨hb, hdata, hnext, hfits⟩
      · rw [hb]
        exact h.begun hs heven hbegins
      · rw [hb]
        exact h.grown heven hdata hnext hfits

theorem Kept.addAll (h : Kept limit l b) {more : List Statement}
    (hcode : ∀ s ∈ more, ∃ code, s.code = .ok code ∧ code.length % 2 = 0) :
    ∃ b', b.addAll more = .ok b' ∧ Kept limit (l ++ more) b' := by
  induction more generalizing l b with
  | nil => exact ⟨b, rfl, by rwa [List.append_nil]⟩
  | cons s more ih =>
      obtain ⟨code, hs, heven⟩ := hcode s List.mem_cons_self
      obtain ⟨b₁, hb₁, h₁⟩ := h.add hs heven
      obtain ⟨b₂, hb₂, h₂⟩ := ih h₁ fun t ht => hcode t (List.mem_cons_of_mem s ht)
      refine ⟨b₂, by rw [RecordBuffer.addAll, hb₁]; exact hb₂, ?_⟩
      rwa [List.append_cons]

end RecordBuffer

theorem ObjectProgram.exists_packed (limit : RecordLimit) {statements : List Statement} (name : String)
    (start length : Int) (h : ∀ s ∈ statements, ∃ code, s.code = .ok code ∧ code.length % 2 = 0) :
    ∃ p, build limit statements name start length = .ok p ∧ Packing.Packed limit.digits statements p.texts := by
  obtain ⟨b, hb, hkept⟩ := (RecordBuffer.kept_nil limit).addAll h
  exact ⟨⟨name, start, length, b.flush.records⟩, by rw [build, hb]; rfl, hkept.packed⟩

namespace Assembly

/-- Text records are packed greedily, and only code that no record could hold is cut. -/
theorem build_packed (calls : List Call) {settings : Settings} {file : String} {a₀ : Assembly}
    (h : create settings file = .ok a₀) (limit : RecordLimit) (name : String) (start length : Int) :
    ∃ p, ObjectProgram.build limit (run calls a₀).statements name start length = .ok p ∧
      Packing.Packed limit.digits (run calls a₀).statements p.texts :=
  ObjectProgram.exists_packed limit name start length fun s hs =>
    (((loadable_create h).run calls).statements s hs).1.even_code

/-- Two bytes to a record: code that is cut and leaves room for one byte more, storage of no length, and an address
that is left out. -/
theorem build_packed_two :
    let calls := [Call.pass1 ["PROGRAM START  100", "        BYTE   C\x27ABCDE\x27", "        BYTE   1",
      "        RESB   0", "        BYTE   2", "        CLEAR  A", "        RESB   1", "        FIX"]]
    let texts : List TextRecord := [⟨0x100, "4142".toList⟩, ⟨0x102, "4344".toList⟩, ⟨0x104, "4501".toList⟩,
      ⟨0x106, "02".toList⟩, ⟨0x107, "B400".toList⟩, ⟨0x10A, "C4".toList⟩]
    ∃ a₀, create {} "two.asm" = .ok a₀ ∧
      ObjectProgram.build ⟨4, by decide, by decide⟩ (run calls a₀).statements "" 0 0 = .ok ⟨"", 0, 0, texts⟩ ∧
      Packing.Packed 4 (run calls a₀).statements texts := by
  intro calls texts
  obtain ⟨a₀, h⟩ : ∃ a₀, create {} "two.asm" = .ok a₀ := ⟨_, rfl⟩
  obtain ⟨p, hp, hpacked⟩ := build_packed calls h ⟨4, by decide, by decide⟩ "" 0 0
  have hvalue : (ObjectProgram.build ⟨4, by decide, by decide⟩ (run calls a₀).statements "" 0 0).toOption =
      some ⟨"", 0, 0, texts⟩ := by
    cases h
    decide +kernel
  rw [hp] at hvalue
  obtain rfl := Option.some.inj hvalue
  exact ⟨a₀, h, hp, hpacked⟩

end Assembly

end TwoPass
