/-!
Blank characters, and text trimmed of them.
-/

namespace TwoPass.Text

/-- The white space of Unicode and the four information separators `U+001C` to `U+001F`. -/
def isBlank (c : Char) : Bool :=
  let n := c.toNat
  (0x09 ≤ n && n ≤ 0x0D) || (0x1C ≤ n && n ≤ 0x20) || n == 0x85 || n == 0xA0 || n == 0x1680
    || (0x2000 ≤ n && n ≤ 0x200A) || n == 0x2028 || n == 0x2029 || n == 0x202F || n == 0x205F
    || n == 0x3000

/-- Drops the characters of a class from the end. -/
def dropRightWhile (p : Char → Bool) (cs : List Char) : List Char :=
  (cs.reverse.dropWhile p).reverse

def trimLeft (cs : List Char) : List Char :=
  cs.dropWhile isBlank

def trimRight (cs : List Char) : List Char :=
  dropRightWhile isBlank cs

def trim (cs : List Char) : List Char :=
  trimRight (trimLeft cs)

/-- Text without a character that shows. -/
def isBlankText (cs : List Char) : Bool :=
  cs.all isBlank

end TwoPass.Text
