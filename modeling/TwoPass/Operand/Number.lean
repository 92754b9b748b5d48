import TwoPass.Fault
import TwoPass.Text.Blank
import TwoPass.Text.Digit

/-!
Numbers as they are written in operands: decimal with an optional sign, hexadecimal after `0x`, or
hexadecimal before an `h` with a decimal digit in front. One line feed at the end does not count.
-/

namespace TwoPass.Number

/-- A text without one line feed at its end. -/
def dropFinalBreak (cs : List Char) : List Char :=
  if cs.getLast? = some '\n' then cs.dropLast else cs

/-- The values of all characters, if each has one. -/
def values? (value? : Char → Option Nat) : List Char → Option (List Nat)
  | [] => some []
  | c :: rest =>
    match value? c, values? value? rest with
    | some v, some vs => some (v :: vs)
    | _, _ => none

/-- As `values?`, for text that is not empty. -/
def someValues? (value? : Char → Option Nat) (cs : List Char) : Option (List Nat) :=
  if cs.isEmpty then none else values? value? cs

/-- An optional sign and the text after it. -/
def splitSign : List Char → Bool × List Char
  | '+' :: rest => (false, rest)
  | '-' :: rest => (true, rest)
  | cs => (false, cs)

/-- The value of decimal digits behind a sign, unless they are too many. -/
def ofDecimal (negative : Bool) (digits : List Nat) : Except Fault Int :=
  if maxDigits < digits.length then
    .error (.tooManyDigits digits.length)
  else
    let n : Int := Text.ofDigits 10 digits
    .ok (if negative then -n else n)

/-- The decimal numeral of a number, unless it has too many digits. -/
def write (n : Int) : Except Fault String :=
  if Nat.pow 10 maxDigits ≤ n.natAbs then .error .overlongNumeral else .ok (Text.decimal n)

/-- Hexadecimal after `0x`. -/
def afterMark? : List Char → Option Nat
  | '0' :: mark :: rest =>
    if mark = 'x' || mark = 'X' then
      (someValues? Text.hexValue? rest).map (Text.ofDigits 16)
    else
      none
  | _ => none

/-- Hexadecimal before `h`, where the first digit is decimal, so that a name is never taken for one. -/
def beforeMark? (cs : List Char) : Option Nat :=
  match cs.getLast?, cs.dropLast with
  | some mark, first :: rest =>
    if mark = 'h' || mark = 'H' then
      match Text.decimalValue? first, values? Text.hexValue? rest with
      | some v, some vs => some (Text.ofDigits 16 (v :: vs))
      | _, _ => none
    else
      none
  | _, _ => none

/-- The number a token stands for, if it is one. -/
def parse (token : List Char) : Except Fault (Option Int) :=
  let cs := dropFinalBreak token
  let (negative, body) := splitSign cs
  match someValues? Text.decimalValue? body with
  | some digits => (ofDecimal negative digits).map some
  | none => .ok (((afterMark? cs).or (beforeMark? cs)).map Int.ofNat)

/-- A bare hexadecimal address. -/
def parseAddress (token : List Char) : Option Nat :=
  (someValues? Text.hexValue? (dropFinalBreak token)).map (Text.ofDigits 16)

/-- A count: text made of digits only. Digits that are not decimal have no value. -/
def parseCount (token : String) : Except Fault Nat :=
  match someValues? Text.decimalValue? token.toList with
  | some digits => (ofDecimal false digits).map Int.toNat
  | none => .error (.notCount token)

/-- Blanks that may stand around a setting's number; the information separators may not. -/
def isSettingBlank (c : Char) : Bool :=
  Text.isBlank c && !(0x1C ≤ c.toNat && c.toNat ≤ 0x1F)

/-- Digit values with single underscores allowed between digits. -/
def groupedValues? : List Char → Option (List Nat)
  | [] => none
  | [c] => (Text.decimalValue? c).map ([·])
  | c :: '_' :: rest =>
    match Text.decimalValue? c, groupedValues? rest with
    | some v, some vs => some (v :: vs)
    | _, _ => none
  | c :: rest =>
    match Text.decimalValue? c, groupedValues? rest with
    | some v, some vs => some (v :: vs)
    | _, _ => none

/-- The number of a setting: blanks around it, a sign and grouped digits. -/
def parseSetting (text : String) : Option Int :=
  let cs := Text.dropRightWhile isSettingBlank (text.toList.dropWhile isSettingBlank)
  let (negative, body) := splitSign cs
  match groupedValues? body with
  | some digits => (ofDecimal negative digits).toOption
  | none => none

end TwoPass.Number
