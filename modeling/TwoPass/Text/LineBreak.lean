/-!
Line breaks: the lines of a text, and the single form that breaks take when a file is read.
-/

namespace TwoPass.Text

/-- The characters that end a line. The pair carriage return and line feed is one break. -/
def isLineBreak (c : Char) : Bool :=
  let n := c.toNat
  (0x0A ≤ n && n ≤ 0x0D) || (0x1C ≤ n && n ≤ 0x1E) || n == 0x85 || n == 0x2028 || n == 0x2029

/-- The lines of a text without their breaks. A break at the very end opens no further line. -/
def splitLines : List Char → List (List Char)
  | [] => []
  | '\r' :: '\n' :: rest => [] :: splitLines rest
  | c :: rest =>
    if isLineBreak c then
      [] :: splitLines rest
    else
      match splitLines rest with
      | [] => [[c]]
      | line :: lines => (c :: line) :: lines

/-- Turns the pair carriage return and line feed, and a carriage return alone, into a line feed. -/
def unifyBreaks : List Char → List Char
  | [] => []
  | '\r' :: '\n' :: rest => '\n' :: unifyBreaks rest
  | c :: rest => (if c = '\r' then '\n' else c) :: unifyBreaks rest

end TwoPass.Text
