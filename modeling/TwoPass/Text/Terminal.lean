/-!
Text for the terminal. Control sequences, which begin with an escape and a bracket and end with a letter,
have no place in text that is not shown on a terminal.
-/

namespace TwoPass.Text

/-- Characters between the bracket and the letter of a control sequence. -/
def isParameter (c : Char) : Bool :=
  c.isDigit || c = ';' || c = '?'

/-- The length of the control sequence at the beginning of a text, zero if there is none. -/
def sequenceLength : List Char → Nat
  | '\x1b' :: '[' :: rest =>
    match rest.dropWhile isParameter with
    | c :: _ => if c.isAlpha then (rest.takeWhile isParameter).length + 3 else 0
    | [] => 0
  | _ => 0

/-- Drops `skip` characters and all control sequences after them. -/
def dropSequencesFrom (skip : Nat) : List Char → List Char
  | [] => []
  | c :: rest =>
    match skip with
    | n + 1 => dropSequencesFrom n rest
    | 0 =>
      match sequenceLength (c :: rest) with
      | n + 1 => dropSequencesFrom n rest
      | 0 => c :: dropSequencesFrom 0 rest

/-- A text without its control sequences. -/
def dropSequences (s : String) : String :=
  String.ofList (dropSequencesFrom 0 s.toList)

end TwoPass.Text
