/-!
Edit distance between names, row by row, and the names in a table that are close to a given one.
-/

namespace TwoPass.Distance

/-- The rest of a row of the distance table: `row` is the row above from the column to the left on, and
`left` the entry to the left. -/
def fill (c : Char) : List Char → List Nat → Nat → List Nat
  | d :: rest, diagonal :: above :: row, left =>
    let entry := min (above + 1) (min (left + 1) (diagonal + if c = d then 0 else 1))
    entry :: fill c rest (above :: row) entry
  | _, _, _ => []

/-- The row for one more character of the first text. -/
def nextRow (t : List Char) (row : List Nat) (c : Char) : List Nat :=
  match row with
  | [] => []
  | first :: _ => (first + 1) :: fill c t row (first + 1)

/-- The end of the last row of the table for two texts. -/
def lastEntry (s t : List Char) : Nat :=
  (s.foldl (nextRow t) (List.range (t.length + 1))).getLastD 0

/-- Fewest insertions, deletions and substitutions that turn one text into the other. The rows run along the
shorter text. -/
def between (s t : List Char) : Nat :=
  if s.length < t.length then lastEntry t s else lastEntry s t

/-- Names are similar when their lengths differ by at most one and their distance is at most two. -/
def isSimilar (name other : String) : Bool :=
  let s := name.toList
  let t := other.toList
  t.length ≤ s.length + 1 && s.length ≤ t.length + 1 && between s t ≤ 2

/-- The first three similar names. -/
def similar (name : String) (names : List String) : List String :=
  (names.filter (isSimilar name)).take 3

end TwoPass.Distance
