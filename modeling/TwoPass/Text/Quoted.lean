import TwoPass.Text.Numeral
import TwoPass.Text.Unseen

/-!
Text in quotation marks with escapes, as messages show names of files and malformed numerals.
-/

namespace TwoPass.Text

/-- Lower-case hexadecimal digits filled up to `width`. -/
def escapeDigits (width n : Nat) : List Char :=
  padLeft '0' width (Nat.toDigits 16 n)

/-- One character between quotation marks of the form `mark`. -/
def escapeChar (mark c : Char) : List Char :=
  if c = mark || c = '\\' then
    ['\\', c]
  else if c = '\n' then
    ['\\', 'n']
  else if c = '\r' then
    ['\\', 'r']
  else if c = '\t' then
    ['\\', 't']
  else if isUnseen c then
    if c.toNat < 0x100 then '\\' :: 'x' :: escapeDigits 2 c.toNat
    else if c.toNat < 0x10000 then '\\' :: 'u' :: escapeDigits 4 c.toNat
    else '\\' :: 'U' :: escapeDigits 8 c.toNat
  else
    [c]

/-- Single marks, unless the text holds a single mark and no double one. -/
def quoteMark (cs : List Char) : Char :=
  let single := Char.ofNat 0x27
  let double := Char.ofNat 0x22
  if cs.contains single && !cs.contains double then double else single

def quoted (s : String) : String :=
  let mark := quoteMark s.toList
  String.ofList (mark :: (s.toList.flatMap (escapeChar mark) ++ [mark]))

end TwoPass.Text
