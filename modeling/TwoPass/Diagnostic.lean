import TwoPass.Fault
import TwoPass.Machine.Opcode

/-!
Diagnostics: what is wrong with a source text, where, and what may help. A cause carries the facts; the
wording is derived from it in one place.
-/

namespace TwoPass

/-- A place in a source. Lines and columns count from one; column zero stands for the whole line. -/
structure Location where
  file : String
  line : Int
  column : Int := 0
  deriving DecidableEq, Repr

def Location.text (loc : Location) : String :=
  let place := loc.file ++ ":" ++ Text.decimal loc.line
  if loc.column = 0 then place else place ++ ":" ++ Text.decimal loc.column

/-! ## Catalogue of errors -/

namespace Catalogue

def invalidLabel : Int := 0
def invalidOperator : Int := 1
def startLabel : Int := 2
def startOperand : Int := 3
def startAddress : Int := 4
def unknownOperator : Int := 5
def notExtendable : Int := 6
def directiveOperand : Int := 7
def duplicateSymbol : Int := 8
def unresolvedSymbol : Int := 9
def operandMismatch : Int := 10
def outOfReach : Int := 11

/-- The text of each numbered error. -/
def entries : List (Int × String) :=
  [
    (invalidLabel, "invalid label syntax"),
    (invalidOperator, "invalid operator syntax"),
    (startLabel, "START directive requires a label"),
    (startOperand, "START directive requires an operand"),
    (startAddress, "START operand is not a hexadecimal address"),
    (unknownOperator, "unknown operator"),
    (notExtendable, "operator does not support extended format"),
    (directiveOperand, "invalid directive operand"),
    (duplicateSymbol, "duplicate symbol"),
    (unresolvedSymbol, "unresolved symbol"),
    (operandMismatch, "operand mismatch"),
    (outOfReach, "displacement out of range")
  ]

/-- A number outside the catalogue is named as it is. -/
def text (code : Int) : String :=
  (entries.lookup code).getD ("error " ++ Text.decimal code)

end Catalogue

/-! ## Causes -/

inductive Cause
  | general (text : String) (code : Option Int) (hint : Option String)
  /-- A label or operator field that is no name. -/
  | malformedField (code : Int) (field : String)
  | unknownOperator (operator : String)
  /-- The four-byte format was asked of an instruction without one. -/
  | notExtendable (mnemonic : String) (formats : List Int)
  | badDirective (code : Int) (detail : String)
  | duplicateSymbol (symbol : String) (firstLine : Option Int)
  | unresolvedSymbol (symbol : String) (similar : List String) (hint : Option String)
  | operandMismatch (shape : String)
  /-- No displacement of twelve bits leads to the target. -/
  | outOfReach (mnemonic : String) (target : Int)
  /-- A pass was asked for out of order. -/
  | outOfOrder (text : String) (code : Option Int) (hint : Option String)
  | tooManyErrors (text : String)
  deriving DecidableEq, Repr

namespace Cause

/-- Text of an error limit that is not named. -/
def limitReached : String :=
  "too many errors"

def code : Cause → Option Int
  | .general _ code _ => code
  | .malformedField code _ => some code
  | .unknownOperator _ => some Catalogue.unknownOperator
  | .notExtendable _ _ => some Catalogue.notExtendable
  | .badDirective code _ => some code
  | .duplicateSymbol _ _ => some Catalogue.duplicateSymbol
  | .unresolvedSymbol _ _ _ => some Catalogue.unresolvedSymbol
  | .operandMismatch _ => some Catalogue.operandMismatch
  | .outOfReach _ _ => some Catalogue.outOfReach
  | .outOfOrder _ code _ => code
  | .tooManyErrors _ => none

/-- The description without place and hint. -/
def text : Cause → String
  | .general text _ _ => text
  | .malformedField code field =>
    if field.isEmpty then Catalogue.text code else Catalogue.text code ++ " '" ++ field ++ "'"
  | .unknownOperator operator => Catalogue.text Catalogue.unknownOperator ++ " '" ++ operator ++ "'"
  | .notExtendable mnemonic _ => Catalogue.text Catalogue.notExtendable ++ " '+" ++ mnemonic ++ "'"
  | .badDirective code detail =>
    if detail.isEmpty then Catalogue.text code else Catalogue.text code ++ ": " ++ detail
  | .duplicateSymbol symbol _ => Catalogue.text Catalogue.duplicateSymbol ++ " '" ++ symbol ++ "'"
  | .unresolvedSymbol symbol _ _ => Catalogue.text Catalogue.unresolvedSymbol ++ " '" ++ symbol ++ "'"
  | .operandMismatch shape => Catalogue.text Catalogue.operandMismatch ++ ": " ++ shape
  | .outOfReach mnemonic target =>
    Catalogue.text Catalogue.outOfReach ++ ": " ++ mnemonic ++ " target " ++ Text.hex 6 target
  | .outOfOrder text _ _ => text
  | .tooManyErrors text => text

/-- At most this many similar names are suggested. -/
def maxSuggestions : Nat := 3

def suggestion (similar : List String) : String :=
  "did you mean "
    ++ Text.joinWith ", " ((similar.take maxSuggestions).map fun name => "'" ++ name ++ "'") ++ "?"

def hint : Cause → Option String
  | .general _ _ hint => hint
  | .notExtendable mnemonic formats =>
    if formats.isEmpty then none
    else some (mnemonic ++ " supports format " ++ Opcode.formatsText formats)
  | .duplicateSymbol symbol firstLine =>
    firstLine.map fun line => "'" ++ symbol ++ "' was first defined on line " ++ Text.decimal line
  | .unresolvedSymbol _ similar hint =>
    if (hint.getD "").isEmpty && !similar.isEmpty then some (suggestion similar) else hint
  | .outOfReach mnemonic _ => some ("use +" ++ mnemonic ++ " for a 20-bit address")
  | .outOfOrder _ _ hint => hint
  | _ => none

end Cause

/-! ## Diagnostics -/

structure Diagnostic where
  cause : Cause
  location : Option Location := none
  sourceLine : Option String := none
  deriving DecidableEq, Repr

namespace Diagnostic

def text (d : Diagnostic) : String :=
  d.cause.text

def code (d : Diagnostic) : Option Int :=
  d.cause.code

def hint (d : Diagnostic) : Option String :=
  d.cause.hint

def line (d : Diagnostic) : Option Int :=
  d.location.map (·.line)

/-- Blanks before a quoted source line. -/
def quoteIndent : Nat := 4

/-- The source line under its diagnostic, with a caret below the column if one is known. -/
def quotation (loc : Location) (source : String) : List String :=
  let quote := String.ofList (List.replicate quoteIndent ' ') ++ source
  if loc.column > 0 then
    [quote, String.ofList (List.replicate (quoteIndent + loc.column.toNat - 1) ' ' ++ ['^'])]
  else
    [quote]

/-- The full message: place and description, the quoted source line, the hint. -/
def message (d : Diagnostic) : String :=
  let head := match d.location with
    | some loc => loc.text ++ ": error: " ++ d.text
    | none => "error: " ++ d.text
  let quote := match d.location, d.sourceLine with
    | some loc, some source => quotation loc source
    | _, _ => []
  let advice := match d.hint with
    | some hint => if hint.isEmpty then [] else ["hint: " ++ hint]
    | none => []
  Text.joinWith "\n" (head :: (quote ++ advice))

end Diagnostic

/-! ## Failures -/

/-- What can end an operation early: a diagnostic, or a fault that no source line explains. -/
inductive Failure
  | diagnostic (diagnostic : Diagnostic)
  | fault (fault : Fault)
  deriving DecidableEq, Repr

def Failure.message : Failure → String
  | .diagnostic d => d.message
  | .fault f => f.message

end TwoPass
