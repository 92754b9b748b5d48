import TwoPass.Assembly.Basic

/-!
The listing of an assembly, with addresses and object code beside the source, and its symbol file.
-/

namespace TwoPass.Assembly

def repeated (c : Char) (count : Nat) : String :=
  String.ofList (List.replicate count c)

/-- Line number in four columns. -/
def lineText (line : Int) : String :=
  String.ofList (Text.padLeft ' ' 4 (Text.decimalChars line))

/-- The fields of a statement in their columns. -/
def sourceText (s : Statement) : String :=
  ({ label := s.label, operator := s.operator, operand := s.operandText, comment := s.comment } :
    Fields).format

/-- The lines for one statement. An instruction with unsuitable operands is followed by a remark. -/
def listStatement (s : Statement) : Except Fault (List String) :=
  match s.body with
  | .remark => .ok [lineText s.line ++ repeated ' ' 20 ++ s.comment]
  | _ =>
    (s.code).map fun code =>
      let head := lineText s.line ++ "  " ++ Text.hex 6 s.offset ++ "  "
        ++ String.ofList (Text.padRight 8 code) ++ "  " ++ sourceText s
      match s.instruction?.bind (·.mismatch) with
      | some shape => [head, "      *** " ++ shape]
      | none => [head]

def listStatements : List Statement → Except Fault (List String)
  | [] => .ok []
  | s :: rest =>
    match listStatement s, listStatements rest with
    | .ok lines, .ok more => .ok (lines ++ more)
    | .error fault, _ => .error fault
    | _, .error fault => .error fault

/-- A symbol in the table of the listing. -/
def listSymbol (s : Symbol) : String :=
  String.ofList (Text.padRight 20 s.name.toList) ++ " = " ++ Text.hex 6 s.address

/-- Title, statements and sorted symbol table. -/
def listing (a : Assembly) : Except Fault String :=
  (listStatements a.statements).map fun lines =>
    Text.joinWith "\n"
      (["SIC/XE Assembler Listing", repeated '=' 72, "", "Line  Loc     Object    Source",
          repeated '-' 72]
        ++ lines ++ ["", "Symbol Table", repeated '-' 30] ++ a.symbols.sorted.map listSymbol)

/-- The listing as a file. -/
def listingFile (a : Assembly) : Except Fault String :=
  (a.listing).map (· ++ "\n")

/-- A symbol in the symbol file. -/
def fileSymbol (s : Symbol) : String :=
  s.name ++ " " ++ Text.hex 6 s.address ++ "\n"

/-- The sorted symbol table as a file. -/
def symbolFile (a : Assembly) : String :=
  "# Symbol table\n# Generated by sicasm\n" ++ String.join (a.symbols.sorted.map fileSymbol)

end TwoPass.Assembly
