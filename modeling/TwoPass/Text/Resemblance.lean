/-!
How much two texts resemble each other: the longest run they share is set aside, then the longest runs
left and right of it, and so on. The characters in these runs count against the length of both texts.
-/

namespace TwoPass.Text

/-- A run that two texts share: where it begins in each, and its length. -/
structure SharedRun where
  first : Nat := 0
  second : Nat := 0
  length : Nat := 0
  deriving DecidableEq, Repr

/-- The length of the beginning that two texts share. -/
def sharedStart : List Char → List Char → Nat
  | c :: s, d :: t => if c = d then sharedStart s t + 1 else 0
  | _, _ => 0

/-- The shared run from every pair of positions, by the position in the first text. -/
def sharedRuns (s t : List Char) : List SharedRun :=
  (List.range s.length).flatMap fun i =>
    (List.range t.length).map fun j => ⟨i, j, sharedStart (s.drop i) (t.drop j)⟩

/-- The longest shared run; of several the earliest in the first text, then in the second. -/
def longestRun (s t : List Char) : SharedRun :=
  (sharedRuns s t).foldl (fun best run => if best.length < run.length then run else best) {}

/-- The number of characters in shared runs. -/
def sharedLength (s t : List Char) : Nat :=
  match longestRun s t with
  | ⟨first, second, length⟩ =>
    if _h : 0 < length ∧ first < s.length then
      length + sharedLength (s.take first) (t.take second)
        + sharedLength (s.drop (first + length)) (t.drop (second + length))
    else
      0
termination_by s.length
decreasing_by
  · simp only [List.length_take]; omega
  · simp only [List.length_drop]; omega

/-- A text with the characters it shares with another one, and the length of both. -/
structure Resemblance where
  text : String
  shared : Nat
  total : Nat
  deriving DecidableEq, Repr

namespace Resemblance

def between (text other : String) : Resemblance :=
  { text
    shared := sharedLength text.toList other.toList
    total := text.length + other.length }

/-- Shared runs make up three fifths of both texts at least. -/
def isClose (r : Resemblance) : Bool :=
  3 * r.total ≤ 10 * r.shared

/-- The greater share goes first, and of equal shares the later text. -/
def precedes (a b : Resemblance) : Bool :=
  b.shared * a.total < a.shared * b.total
    || (b.shared * a.total = a.shared * b.total && b.text ≤ a.text)

/-- At most this many texts are offered. -/
def maxOffers : Nat := 3

/-- The texts of a list that are closest to a given one. -/
def closest (other : String) (texts : List String) : List String :=
  let close := (texts.map (between · other)).filter (·.isClose)
  ((close.mergeSort precedes).take maxOffers).map (·.text)

end Resemblance

end TwoPass.Text
