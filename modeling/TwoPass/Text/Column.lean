/-!
Text laid out in columns: tab stops, padding and the pieces between separators.
-/

namespace TwoPass.Text

/-- Distance between two tab stops. -/
def tabWidth : Nat := 8

/-- Replaces each tab by the blanks up to the next tab stop, where `column` is the column of the first
character. A line break inside the text starts the count again. -/
def expandTabs (column : Nat) : List Char → List Char
  | [] => []
  | c :: rest =>
    if c = '\t' then
      let gap := tabWidth - column % tabWidth
      List.replicate gap ' ' ++ expandTabs (column + gap) rest
    else if c = '\n' || c = '\r' then
      c :: expandTabs 0 rest
    else
      c :: expandTabs (column + 1) rest

/-- The characters in the columns from `first` up to, but without, `stop`. -/
def columns (first stop : Nat) (cs : List Char) : List Char :=
  (cs.drop first).take (stop - first)

/-- Fills with blanks on the right up to `width`; longer text is kept whole. -/
def padRight (width : Nat) (cs : List Char) : List Char :=
  cs ++ List.replicate (width - cs.length) ' '

/-- Fills on the left up to `width`; longer text is kept whole. -/
def padLeft (fill : Char) (width : Nat) (cs : List Char) : List Char :=
  List.replicate (width - cs.length) fill ++ cs

/-- The pieces between the occurrences of `separator`; there is always at least one. -/
def splitOn (separator : Char) : List Char → List (List Char)
  | [] => [[]]
  | c :: rest =>
    if c = separator then
      [] :: splitOn separator rest
    else
      match splitOn separator rest with
      | [] => [[c]]
      | piece :: pieces => (c :: piece) :: pieces

/-- Texts in order with `separator` between neighbours. -/
def joinWith (separator : String) : List String → String
  | [] => ""
  | [text] => text
  | text :: rest => text ++ separator ++ joinWith separator rest

end TwoPass.Text
