import TwoPass.Text.Numeral

/-!
Records of an object program: a header with name, load address and length, text records with runs of
object code, and an end record with the address where execution starts. Each record is one line.
-/

namespace TwoPass

/-- Columns for the program name in a header. -/
def nameWidth : Nat := 6

/-- A run of object code; `data` holds its hexadecimal digits. -/
structure TextRecord where
  start : Int
  data : List Char
  deriving DecidableEq, Repr

namespace TextRecord

/-- Number of bytes: two digits make one. -/
def length (r : TextRecord) : Nat :=
  r.data.length / 2

/-- The address after the last byte. -/
def stop (r : TextRecord) : Int :=
  r.start + r.length

def render (r : TextRecord) : String :=
  "T" ++ Text.hex 6 r.start ++ Text.hex 2 r.length ++ String.ofList r.data

/-- The note made when a record is closed. -/
def note (r : TextRecord) : String :=
  "Text record at " ++ Text.hex 6 r.start ++ ": " ++ Text.decimal r.length ++ " bytes"

end TextRecord

/-- Header of a program: the name is cut to its columns, or filled up with blanks. -/
def renderHeader (name : String) (start length : Int) : String :=
  "H" ++ String.ofList (Text.padRight nameWidth (name.toList.take nameWidth)) ++ Text.hex 6 start
    ++ Text.hex 6 length

def renderEnd (start : Int) : String :=
  "E" ++ Text.hex 6 start

structure ObjectProgram where
  name : String
  start : Int
  length : Int
  texts : List TextRecord
  deriving DecidableEq, Repr

namespace ObjectProgram

/-- The records as lines: header, text records, end. -/
def records (p : ObjectProgram) : List String :=
  renderHeader p.name p.start p.length :: (p.texts.map (·.render) ++ [renderEnd p.start])

/-- The object file: every record ends with a line feed. -/
def render (p : ObjectProgram) : String :=
  String.join (p.records.map (· ++ "\n"))

end ObjectProgram

end TwoPass
