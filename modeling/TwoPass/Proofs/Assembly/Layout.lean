import Mathlib
import TwoPass.Proofs.Statement.Code
import TwoPass.Symbol.Table

/-!
The layout of a list of statements, read off the list alone: where each statement stands, which labels
it defines and which it defines again. The first pass is compared with these.
-/

namespace TwoPass

/-- Bytes that a statement takes, if its size is known. -/
def Statement.room (s : Statement) : Nat :=
  s.size.toOption.getD 0

theorem Statement.WellFormed.size_eq_room {s : Statement} (h : s.WellFormed) : s.size = .ok s.room := by
  obtain ⟨n, hn⟩ := h.exists_size
  rw [room, hn]
  rfl

namespace Layout

/-! ## Addresses -/

/-- The address behind a statement that stands at `address`; `START` sets its own. -/
def next (address : Int) (s : Statement) : Int :=
  match s.body with
  | .directive .start value => value
  | _ => address + s.room

/-- The address behind all statements, counted from zero. -/
def counter (statements : List Statement) : Int :=
  statements.foldl next 0

/-- The address of the last `START`, or zero. -/
def loadAddress (statements : List Statement) : Int :=
  statements.foldl
    (fun address s => match s.body with | .directive .start value => value | _ => address) 0

/-- The statements behind the last `START`, or all. -/
def sinceStart (statements : List Statement) : List Statement :=
  (statements.reverse.takeWhile fun s => !s.isStart).reverse

theorem next_start {s : Statement} {value : Nat} (h : s.body = .directive .start value) (address : Int) :
    next address s = value := by
  simp only [next, h]

theorem next_of_not_start {s : Statement} (h : s.isStart = false) (address : Int) :
    next address s = address + s.room := by
  unfold next
  split
  · rename_i hb; simp [Statement.isStart, hb] at h
  · rfl

theorem counter_snoc (l : List Statement) (s : Statement) : counter (l ++ [s]) = next (counter l) s := by
  simp only [counter, List.foldl_append, List.foldl_cons, List.foldl_nil]

theorem loadAddress_snoc_start (l : List Statement) {s : Statement} {value : Nat}
    (h : s.body = .directive .start value) : loadAddress (l ++ [s]) = value := by
  simp only [loadAddress, List.foldl_append, List.foldl_cons, List.foldl_nil, h]

theorem loadAddress_snoc (l : List Statement) {s : Statement} (h : s.isStart = false) :
    loadAddress (l ++ [s]) = loadAddress l := by
  simp only [loadAddress, List.foldl_append, List.foldl_cons, List.foldl_nil]
  split
  · rename_i hb; simp [Statement.isStart, hb] at h
  · rfl

theorem sinceStart_snoc (l : List Statement) (s : Statement) :
    sinceStart (l ++ [s]) = if s.isStart then [] else sinceStart l ++ [s] := by
  cases h : s.isStart <;> simp [sinceStart, h]

theorem mem_of_mem_sinceStart {l : List Statement} {s : Statement} (h : s ∈ sinceStart l) : s ∈ l := by
  rw [sinceStart, List.mem_reverse] at h
  exact List.mem_reverse.mp (List.takeWhile_subset _ h)

/-- Sizes are known throughout well-formed statements. -/
theorem mapM_size {statements : List Statement} (h : ∀ s ∈ statements, s.WellFormed) :
    statements.mapM (·.size) = .ok (statements.map (·.room)) := by
  induction statements with
  | nil => rfl
  | cons s rest ih =>
      rw [List.mapM_cons, (h s (by simp)).size_eq_room, ih (fun t ht => h t (by simp [ht]))]
      rfl

/-! ## Labels -/

/-- The labels that are not empty, in source order. -/
def labels (statements : List Statement) : List String :=
  (statements.map (·.label)).filter (· ≠ "")

/-- The error for a statement whose label stands on an earlier one. -/
def redefinition? (file : String) (earlier : List Statement) (s : Statement) : Option Diagnostic :=
  if s.label = "" then
    none
  else
    (earlier.find? (·.label == s.label)).map fun first =>
      { cause := .duplicateSymbol s.label (some first.line)
        location := some ⟨file, s.line, labelColumn⟩ }

/-- One error for each statement whose label occurs before it. -/
def redefinitions (file : String) (statements : List Statement) : List Diagnostic :=
  statements.zipIdx.filterMap fun (s, k) => redefinition? file (statements.take k) s

theorem labels_snoc (l : List Statement) {s : Statement} (h : s.label ≠ "") :
    labels (l ++ [s]) = labels l ++ [s.label] := by
  simp [labels, h]

theorem labels_snoc_empty (l : List Statement) {s : Statement} (h : s.label = "") :
    labels (l ++ [s]) = labels l := by
  simp [labels, h]

theorem mem_labels {l : List Statement} {name : String} (h : name ≠ "") :
    name ∈ labels l ↔ ∃ s, l.find? (·.label == name) = some s := by
  rw [← Option.isSome_iff_exists, List.find?_isSome]
  simp [labels, h]

theorem redefinitions_snoc (file : String) (l : List Statement) (s : Statement) :
    redefinitions file (l ++ [s]) = redefinitions file l ++ (redefinition? file l s).toList := by
  have hold : ∀ x ∈ l.zipIdx, redefinition? file ((l ++ [s]).take x.2) x.1 =
      redefinition? file (l.take x.2) x.1 := by
    intro x hx
    have hk := List.snd_lt_of_mem_zipIdx hx
    rw [List.take_append_of_le_length (by omega)]
  unfold redefinitions
  rw [List.zipIdx_append, List.filterMap_append]
  congr 1
  · exact List.filterMap_congr hold
  · have hall : (l ++ [s]).take (0 + l.length) = l := List.take_left' (by omega)
    rw [List.zipIdx_singleton, List.filterMap_cons, List.filterMap_nil]
    simp only [hall]
    cases redefinition? file l s <;> rfl

end Layout

end TwoPass
