import TwoPass.Operand.Basic

/-!
Literals of data directives: a number, characters as in `C'EOF'`, or hexadecimal digits as in `X'F1'`.
Anything else is a symbol.
-/

namespace TwoPass.Literal

/-- What stands between the quotation marks after one of the letters `upper` and `lower`. The marks
enclose everything up to the last character, a final line feed apart, and no line feed is inside. -/
def enclosed? (upper lower : Char) (cs : List Char) : Option (List Char) :=
  match Number.dropFinalBreak cs with
  | letter :: '\x27' :: rest =>
    if (letter = upper || letter = lower) && rest.getLast? = some '\x27'
        && !rest.dropLast.contains '\n' then
      some rest.dropLast
    else
      none
  | _ => none

/-- The bytes of characters of at most eight bits. -/
def bytes? : List Char → Option (List UInt8)
  | [] => some []
  | c :: rest =>
    if c.toNat < 256 then (bytes? rest).map (UInt8.ofNat c.toNat :: ·) else none

/-- An integer has to fit `width` bytes with or without a sign. -/
def fits (width : Nat) (value : Int) : Bool :=
  let range : Int := Int.pow 2 (8 * width)
  (0 ≤ value + range / 2) && value < range

def characters (text : String) (content : List Char) : Except Fault Operand :=
  if content.isEmpty then
    .error .emptyCharacters
  else
    match bytes? content with
    | some bytes => .ok (.characters bytes)
    | none => .error (.wideCharacter text)

def hexadecimal (width : Nat) (text : String) (digits : List Char) : Except Fault Operand :=
  match Number.parseAddress digits with
  | none => .error (.badHexadecimal text)
  | some value =>
    if value < Nat.pow 2 (8 * width) then .ok (.hexadecimal value) else .error (.tooWide text width)

/-- The literal a data directive of `width` bytes is given. -/
def parse (text : String) (width : Nat) : Except Fault Operand :=
  match Number.parse text.toList with
  | .error fault => .error fault
  | .ok (some value) =>
    if fits width value then .ok (.integer value) else .error (.tooWide text width)
  | .ok none =>
    match enclosed? 'C' 'c' text.toList with
    | some content => characters text content
    | none =>
      match enclosed? 'X' 'x' text.toList with
      | some digits => hexadecimal width text digits
      | none => .ok (Operand.ofSymbol text)

/-- As `parse`, for a width that may be below zero. -/
def parseWidth (text : String) (width : Int) : Except Fault Operand :=
  if width < 0 then .error .negativeWidth else parse text width.toNat

end TwoPass.Literal
