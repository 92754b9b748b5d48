import TwoPass.Text.CaseTable

/-!
Letter case: the upper-case form of a text, which may be longer than the text.
-/

namespace TwoPass.Text

/-- The character of a run that `n` goes to, if `n` belongs to the run. -/
def CaseRun.form? (run : CaseRun) (n : Nat) : Option Nat :=
  if run.first ≤ n && n ≤ run.last && (n - run.first) % run.step == 0 then
    some (run.target + (n - run.first))
  else
    none

/-- Upper-case form of one character; a character without one stands for itself. -/
def upperChar (c : Char) : List Char :=
  if c.toNat < 128 then
    [c.toUpper]
  else
    match caseExpansions.lookup c.toNat with
    | some forms => forms.map Char.ofNat
    | none =>
      match caseRuns.findSome? (·.form? c.toNat) with
      | some form => [Char.ofNat form]
      | none => [c]

def upperChars (cs : List Char) : List Char :=
  cs.flatMap upperChar

/-- Upper-case form of a text, character by character. -/
def upper (s : String) : String :=
  String.ofList (upperChars s.toList)

/-- Lower-case form where only the ASCII letters matter. -/
def lowerAscii (cs : List Char) : List Char :=
  cs.map Char.toLower

end TwoPass.Text
