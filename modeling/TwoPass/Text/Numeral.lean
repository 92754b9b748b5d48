import TwoPass.Text.Column

/-!
Numerals: how integers are written in decimal and in hexadecimal with a least width.
-/

namespace TwoPass.Text

/-- Decimal digits with a minus sign for negative numbers. -/
def decimalChars : Int → List Char
  | .ofNat n => Nat.toDigits 10 n
  | .negSucc n => '-' :: Nat.toDigits 10 (n + 1)

def decimal (n : Int) : String :=
  String.ofList (decimalChars n)

/-- Hexadecimal digits in upper case. -/
def hexDigits (n : Nat) : List Char :=
  (Nat.toDigits 16 n).map Char.toUpper

/-- Hexadecimal digits filled with zeros up to `width`. -/
def hexNat (width n : Nat) : List Char :=
  padLeft '0' width (hexDigits n)

/-- Hexadecimal with a sign that counts towards `width`; the width is a minimum. -/
def hexChars (width : Nat) : Int → List Char
  | .ofNat n => hexNat width n
  | .negSucc n => '-' :: hexNat (width - 1) (n + 1)

def hex (width : Nat) (n : Int) : String :=
  String.ofList (hexChars width n)

/-- Value of a hexadecimal digit of ASCII in either case. -/
def hexValue? (c : Char) : Option Nat :=
  if '0' ≤ c && c ≤ '9' then
    some (c.toNat - '0'.toNat)
  else if 'a' ≤ c && c ≤ 'f' then
    some (c.toNat - 'a'.toNat + 10)
  else if 'A' ≤ c && c ≤ 'F' then
    some (c.toNat - 'A'.toNat + 10)
  else
    none

/-- Positional value of digit values, the most significant first. -/
def ofDigits (base : Nat) (values : List Nat) : Nat :=
  values.foldl (fun n d => base * n + d) 0

end TwoPass.Text
