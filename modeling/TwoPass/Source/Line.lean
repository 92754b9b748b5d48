import TwoPass.Diagnostic
import TwoPass.Text.Blank
import TwoPass.Text.LineBreak

/-!
Source lines. A line has fixed columns: a label, an operator, an operand and a comment, each in its own
range. A line whose first visible character is a point or a semicolon is a remark.
-/

namespace TwoPass

/-- The four fields of a line that is no remark. -/
structure Fields where
  label : String := ""
  operator : String := ""
  operand : String := ""
  comment : String := ""
  deriving DecidableEq, Repr

/-- A line with its tabs expanded, and what it holds. -/
inductive SourceLine
  | remark (comment : String) (text : String)
  | code (fields : Fields) (text : String)
  deriving DecidableEq, Repr

/-! ## Columns -/

def labelStart : Nat := 0
def labelStop : Nat := 7
def operatorStart : Nat := 8
def operatorStop : Nat := 14
def operandStart : Nat := 15
def operandStop : Nat := 35

/-- Columns as a location names them, counted from one. -/
def labelColumn : Int := labelStart + 1
def operatorColumn : Int := operatorStart + 1
def operandColumn : Int := operandStart + 1

namespace Fields

/-- The label takes a column more than it may fill, and so does the operator; both gaps separate. -/
def layout (label operator operand comment : List Char) : List Char :=
  Text.padRight operatorStart label ++ Text.padRight (operandStart - operatorStart) operator
    ++ Text.padRight (operandStop - operandStart) operand ++ comment

/-- Lays fields out in their columns. -/
def format (f : Fields) : String :=
  String.ofList
    (Text.trimRight (layout f.label.toList f.operator.toList f.operand.toList f.comment.toList))

end Fields

namespace SourceLine

def text : SourceLine → String
  | .remark _ text => text
  | .code _ text => text

/-- Whether the first visible character marks a remark. -/
def isRemark (cs : List Char) : Bool :=
  match Text.trimLeft cs with
  | c :: _ => c = '.' || c = ';'
  | [] => false

def isNameStart (c : Char) : Bool :=
  c.isAlpha || c = '_'

def isNameChar (c : Char) : Bool :=
  c.isAlphanum || c = '_'

/-- A letter or underscore, then letters, digits and underscores, all of ASCII. -/
def isName : List Char → Bool
  | [] => false
  | c :: rest => isNameStart c && rest.all isNameChar

/-- A name with at most one plus sign before it. -/
def isOperator : List Char → Bool
  | '+' :: rest => isName rest
  | cs => isName cs

/-- The line without its break and with tabs expanded. -/
def expand (text : String) : List Char :=
  Text.expandTabs 0 (Text.dropRightWhile (fun c => c = '\r' || c = '\n') text.toList)

/-- Reads the fields of a line; a label that is no name, or an operator that is none, is an error. -/
def read (file : String) (line : Int) (text : String) : Except Diagnostic SourceLine :=
  let cs := expand text
  let whole := String.ofList cs
  if isRemark cs then
    .ok (.remark (String.ofList (Text.trim cs)) whole)
  else
    let label := Text.trim (Text.columns labelStart labelStop cs)
    let operator := Text.trim (Text.columns operatorStart operatorStop cs)
    let operand := Text.trim (Text.columns operandStart operandStop cs)
    let comment := Text.trim (cs.drop operandStop)
    if !label.isEmpty && !isName label then
      .error
        { cause := .malformedField Catalogue.invalidLabel (String.ofList label)
          location := some ⟨file, line, labelColumn⟩
          sourceLine := some whole }
    else if !isOperator operator then
      .error
        { cause := .malformedField Catalogue.invalidOperator (String.ofList operator)
          location := some ⟨file, line, operatorColumn⟩
          sourceLine := some whole }
    else
      .ok (.code
        { label := String.ofList (Text.upperChars label)
          operator := String.ofList (Text.upperChars operator)
          operand := String.ofList operand
          comment := String.ofList comment }
        whole)

end SourceLine

/-- The lines of a source text. -/
def sourceLines (source : String) : List String :=
  (Text.splitLines source.toList).map String.ofList

end TwoPass
