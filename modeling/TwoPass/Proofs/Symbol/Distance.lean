import Mathlib.Data.List.Infix
import Mathlib.Order.Bounds.Basic
import TwoPass.Symbol.Distance

/-!
The distance between texts. It is said twice without a table: as the fewest edits of single characters that lead
from one text to the other, and by recursion on both texts. The two agree, so the laws of a metric follow from how
edits are undone, joined and mirrored. Every row of the table holds the distances to all prefixes of the text that
the row runs along, and names are suggested by the distance.
-/

namespace TwoPass.Distance

variable {s t u : List Char} {m n : Nat}

/-! ## Edits -/

/-- One character is put in, taken out or replaced, at any place. -/
inductive Edit : List Char → List Char → Prop
  | insert (before after : List Char) (c : Char) : Edit (before ++ after) (before ++ c :: after)
  | delete (before after : List Char) (c : Char) : Edit (before ++ c :: after) (before ++ after)
  | substitute (before after : List Char) (c d : Char) : Edit (before ++ c :: after) (before ++ d :: after)

/-- So many edits, one after the other. -/
inductive Edits : Nat → List Char → List Char → Prop
  | none (s : List Char) : Edits 0 s s
  | edit {n : Nat} {s t u : List Char} (h : Edit s t) (rest : Edits n t u) : Edits (n + 1) s u

namespace Edit

theorem symm (h : Edit s t) : Edit t s := by
  cases h with
  | insert before after c => exact .delete before after c
  | delete before after c => exact .insert before after c
  | substitute before after c d => exact .substitute before after d c

theorem cons (a : Char) (h : Edit s t) : Edit (a :: s) (a :: t) := by
  cases h with
  | insert before after c => exact .insert (a :: before) after c
  | delete before after c => exact .delete (a :: before) after c
  | substitute before after c d => exact .substitute (a :: before) after c d

theorem reverse (h : Edit s t) : Edit s.reverse t.reverse := by
  cases h with
  | insert before after c => simpa using Edit.insert after.reverse before.reverse c
  | delete before after c => simpa using Edit.delete after.reverse before.reverse c
  | substitute before after c d => simpa using Edit.substitute after.reverse before.reverse c d

end Edit

namespace Edits

theorem map {f : List Char → List Char} (hf : ∀ {s t}, Edit s t → Edit (f s) (f t)) (h : Edits n s t) :
    Edits n (f s) (f t) := by
  induction h with
  | none s => exact .none (f s)
  | edit h _ ih => exact .edit (hf h) ih

theorem cons (a : Char) (h : Edits n s t) : Edits n (a :: s) (a :: t) :=
  h.map (f := (a :: ·)) (.cons a)

theorem reverse (h : Edits n s t) : Edits n s.reverse t.reverse :=
  h.map .reverse

theorem trans (h : Edits m s t) (h' : Edits n t u) : Edits (m + n) s u := by
  induction h with
  | none s => rwa [Nat.zero_add]
  | edit h _ ih =>
      rw [Nat.add_right_comm]
      exact .edit h (ih h')

theorem symm (h : Edits n s t) : Edits n t s := by
  induction h with
  | none s => exact .none s
  | edit h _ ih => exact ih.trans (.edit h.symm (.none _))

end Edits

/-! ## Distance by recursion -/

/-- The distance by recursion: drop the first character of one text or of the other, or match the two. -/
def levenshtein : List Char → List Char → Nat
  | [], t => t.length
  | c :: s, [] => s.length + 1
  | c :: s, d :: t =>
    min (levenshtein s (d :: t) + 1) (min (levenshtein (c :: s) t + 1) (levenshtein s t + if c = d then 0 else 1))
termination_by s t => s.length + t.length

theorem levenshtein_nil_left (t : List Char) : levenshtein [] t = t.length := by
  rw [levenshtein]

theorem levenshtein_nil_right (s : List Char) : levenshtein s [] = s.length := by
  cases s with
  | nil => exact levenshtein_nil_left []
  | cons c s => rw [levenshtein, List.length_cons]

theorem levenshtein_cons_cons (c d : Char) (s t : List Char) :
    levenshtein (c :: s) (d :: t) = min (levenshtein s (d :: t) + 1)
      (min (levenshtein (c :: s) t + 1) (levenshtein s t + if c = d then 0 else 1)) := by
  rw [levenshtein]

theorem levenshtein_cons_right_le (s t : List Char) (d : Char) : levenshtein s (d :: t) ≤ levenshtein s t + 1 := by
  cases s with
  | nil => simp only [levenshtein_nil_left, List.length_cons, Nat.le_refl]
  | cons c s => rw [levenshtein_cons_cons]; omega

/-! ## No fewer edits -/

/-- The first text is at most one further away from every text than the second. -/
def Close (s t : List Char) : Prop :=
  ∀ u, levenshtein s u ≤ levenshtein t u + 1

theorem close_delete (s : List Char) (c : Char) : Close (c :: s) s := by
  intro u
  cases u with
  | nil => simp only [levenshtein_nil_right, List.length_cons, Nat.le_refl]
  | cons e u => rw [levenshtein_cons_cons]; omega

theorem close_insert (s : List Char) (c : Char) : Close s (c :: s) := by
  intro u
  induction u with
  | nil => simp only [levenshtein_nil_right, List.length_cons]; omega
  | cons e u ih =>
      have hright := levenshtein_cons_right_le s u e
      rw [levenshtein_cons_cons]
      omega

theorem close_substitute (s : List Char) (c d : Char) : Close (c :: s) (d :: s) := by
  intro u
  -- only the way that drops a character of `u` keeps the two first characters that differ
  induction u with
  | nil => simp only [levenshtein_nil_right, List.length_cons]; omega
  | cons e u ih =>
      rw [levenshtein_cons_cons, levenshtein_cons_cons]
      split <;> omega

theorem Close.cons (a : Char) (h : Close s t) : Close (a :: s) (a :: t) := by
  intro u
  induction u with
  | nil =>
      have hnil := h []
      simp only [levenshtein_nil_right, List.length_cons] at hnil ⊢
      omega
  | cons e u ih =>
      have hdrop := h (e :: u)
      have hmatch := h u
      rw [levenshtein_cons_cons, levenshtein_cons_cons]
      omega

theorem Close.append (p : List Char) (h : Close s t) : Close (p ++ s) (p ++ t) := by
  induction p with
  | nil => exact h
  | cons a p ih => exact ih.cons a

theorem Edit.close (h : Edit s t) : Close s t := by
  cases h with
  | insert before after c => exact (close_insert after c).append before
  | delete before after c => exact (close_delete after c).append before
  | substitute before after c d => exact (close_substitute after c d).append before

theorem levenshtein_self (s : List Char) : levenshtein s s = 0 := by
  induction s with
  | nil => exact levenshtein_nil_left []
  | cons c s ih => rw [levenshtein_cons_cons, ih]; simp

theorem Edits.levenshtein_le (h : Edits n s t) : levenshtein s t ≤ n := by
  induction h with
  | none s => rw [levenshtein_self]
  | edit h _ ih => exact (h.close _).trans (Nat.succ_le_succ ih)

/-! ## As many edits suffice -/

theorem edits_nil_left (t : List Char) : Edits t.length [] t := by
  induction t with
  | nil => exact .none []
  | cons d t ih => exact ih.trans (.edit (.insert [] t d) (.none _))

/-- The three ways of the recursion are a deletion, an insertion, and a substitution or no edit. -/
theorem edits_levenshtein (s t : List Char) : Edits (levenshtein s t) s t := by
  fun_induction levenshtein s t with
  | case1 t => exact edits_nil_left t
  | case2 c s => exact (edits_nil_left (c :: s)).symm
  | case3 c s d t ihs iht ih =>
      have hdelete : Edits (levenshtein s (d :: t) + 1) (c :: s) (d :: t) := .edit (.delete [] s c) ihs
      have hinsert : Edits (levenshtein (c :: s) t + 1) (c :: s) (d :: t) :=
        .edit (.insert [] (c :: s) d) (iht.cons d)
      have hmatch : Edits (levenshtein s t + if c = d then 0 else 1) (c :: s) (d :: t) := by
        split
        · subst d
          exact ih.cons c
        · exact .edit (.substitute [] s c d) (ih.cons d)
      exact min_rec' (Edits · (c :: s) (d :: t)) hdelete (min_rec' (Edits · (c :: s) (d :: t)) hinsert hmatch)

theorem levenshtein_isLeast (s t : List Char) : IsLeast {n | Edits n s t} (levenshtein s t) :=
  ⟨edits_levenshtein s t, fun _ h => h.levenshtein_le⟩

/-! ## Laws of the distance -/

theorem levenshtein_comm (s t : List Char) : levenshtein s t = levenshtein t s :=
  Nat.le_antisymm (edits_levenshtein t s).symm.levenshtein_le (edits_levenshtein s t).symm.levenshtein_le

theorem levenshtein_reverse (s t : List Char) : levenshtein s.reverse t.reverse = levenshtein s t := by
  have hle (s t : List Char) : levenshtein s.reverse t.reverse ≤ levenshtein s t :=
    (edits_levenshtein s t).reverse.levenshtein_le
  refine Nat.le_antisymm (hle s t) ?_
  simpa only [List.reverse_reverse] using hle s.reverse t.reverse

theorem levenshtein_eq_zero_iff : levenshtein s t = 0 ↔ s = t := by
  constructor
  · intro h
    have hedits := edits_levenshtein s t
    rw [h] at hedits
    cases hedits
    rfl
  · rintro rfl
    exact levenshtein_self s

theorem levenshtein_triangle (s t u : List Char) : levenshtein s u ≤ levenshtein s t + levenshtein t u :=
  ((edits_levenshtein s t).trans (edits_levenshtein t u)).levenshtein_le

/-- The recursion from the other end, in which a table is filled. -/
theorem levenshtein_concat (s t : List Char) (c d : Char) :
    levenshtein (s ++ [c]) (t ++ [d]) = min (levenshtein s (t ++ [d]) + 1)
      (min (levenshtein (s ++ [c]) t + 1) (levenshtein s t + if c = d then 0 else 1)) := by
  have h := levenshtein_cons_cons c d s.reverse t.reverse
  simp only [← List.reverse_concat, levenshtein_reverse] at h
  exact h

/-! ## Rows -/

theorem map_inits_eq_cons (f : List Char → Nat) (t : List Char) : t.inits.map f = f [] :: t.inits.tail.map f := by
  cases t <;> rfl

/-- The first row holds the lengths of all prefixes. -/
theorem range_eq_map_inits (t : List Char) : List.range (t.length + 1) = t.inits.map (levenshtein []) := by
  have hlength : levenshtein [] = List.length := funext levenshtein_nil_left
  rw [hlength]
  induction t with
  | nil => rfl
  | cons d t ih =>
      rw [List.length_cons, List.range_succ_eq_map, ih]
      simp [Function.comp_def]

/-- The distances to the prefixes of `p ++ t` that go on behind `p`, filled in from the row above. -/
theorem fill_inits (s p t : List Char) (c : Char) :
    fill c t (t.inits.map fun q => levenshtein s (p ++ q)) (levenshtein (s ++ [c]) p) =
      t.inits.tail.map fun q => levenshtein (s ++ [c]) (p ++ q) := by
  induction t generalizing p with
  | nil => rfl
  | cons d t ih =>
      have htail (s : List Char) : (d :: t).inits.tail.map (fun q => levenshtein s (p ++ q)) =
          levenshtein s (p ++ [d]) :: t.inits.tail.map fun q => levenshtein s (p ++ [d] ++ q) := by
        cases t <;> simp [Function.comp_def]
      have hrest := ih (p ++ [d])
      rw [map_inits_eq_cons, List.append_nil] at hrest
      -- the entry that `fill` computes is the recursion from the other end
      rw [map_inits_eq_cons, htail, htail, List.append_nil, fill, ← levenshtein_concat, hrest]

theorem nextRow_inits (s t : List Char) (c : Char) :
    nextRow t (t.inits.map (levenshtein s)) c = t.inits.map (levenshtein (s ++ [c])) := by
  have hfirst : levenshtein s [] + 1 = levenshtein (s ++ [c]) [] := by
    simp only [levenshtein_nil_right, List.length_append, List.length_singleton]
  have hfill := fill_inits s [] t c
  simp only [List.nil_append] at hfill
  rw [map_inits_eq_cons (levenshtein s)] at hfill ⊢
  rw [nextRow, hfirst, hfill, ← map_inits_eq_cons]

/-- After the characters of a text, the row holds the distances from it to all prefixes of the other. -/
theorem foldl_nextRow (s t : List Char) :
    s.foldl (nextRow t) (List.range (t.length + 1)) = t.inits.map (levenshtein s) := by
  induction s using List.reverseRecOn with
  | nil => exact range_eq_map_inits t
  | append_singleton s c ih => rw [List.foldl_concat, ih, nextRow_inits]

theorem getLastD_map_inits (f : List Char → Nat) (t : List Char) (n : Nat) : (t.inits.map f).getLastD n = f t := by
  induction t generalizing f n with
  | nil => rfl
  | cons d t ih =>
      rw [List.inits_cons, List.map_cons, List.getLastD_cons, List.map_map]
      exact ih (f ∘ (d :: ·)) (f [])

theorem lastEntry_eq (s t : List Char) : lastEntry s t = levenshtein s t := by
  rw [lastEntry, foldl_nextRow, getLastD_map_inits]

theorem between_eq (s t : List Char) : between s t = levenshtein s t := by
  rw [between, lastEntry_eq, lastEntry_eq, levenshtein_comm t, ite_self]

/-! ## Similar names -/

theorem isSimilar_eq (name other : String) :
    isSimilar name other = decide (((other.length : Int) - name.length).natAbs ≤ 1 ∧
      levenshtein name.toList other.toList ≤ 2) := by
  simp only [isSimilar, between_eq, String.length_toList, ← Bool.decide_and, and_assoc]
  congr 1
  rw [eq_iff_iff]
  omega

/-- The table gives the distance by recursion, which is the least number of edits from one text to the other and so a
metric. The suggestions for a name are the first three names that differ from it by at most one in length and are at
most two edits away. -/
theorem between_levenshtein (s t u : List Char) (name : String) (names : List String) :
    between s t = levenshtein s t ∧
    IsLeast {n | Edits n s t} (between s t) ∧
    between s t = between t s ∧
    (between s t = 0 ↔ s = t) ∧
    between s u ≤ between s t + between t u ∧
    similar name names =
      (names.filter fun other => ((other.length : Int) - name.length).natAbs ≤ 1 ∧
        levenshtein name.toList other.toList ≤ 2).take 3 := by
  rw [between_eq, between_eq, between_eq, between_eq, similar, funext (isSimilar_eq name)]
  exact ⟨rfl, levenshtein_isLeast s t, levenshtein_comm s t, levenshtein_eq_zero_iff, levenshtein_triangle s t u, rfl⟩

-- `LEGT` is two edits away but too short, and `HENGHT` is the fourth that is near.
example : similar "LENGHT" ["LENGTH", "LEGT", "LIGHT", "BUFFER", "LENGHTS", "HENGHT"] =
    ["LENGTH", "LIGHT", "LENGHTS"] := by decide

end TwoPass.Distance
