import TwoPass.Text.Column

/-!
Paths of files: their components, their plain form, and the path beside a file with another ending.
-/

namespace TwoPass.Path

/-- Whether a path holds the null character, which the system takes for its end. -/
def hasNull (path : String) : Bool :=
  path.toList.contains '\x00'

/-- The names between slashes; empty ones are kept. -/
def components (path : String) : List String :=
  (Text.splitOn '/' path.toList).map String.ofList

/-- Slashes that begin an absolute path: two stay two, any other number counts as one. -/
def root (path : String) : String :=
  match path.toList with
  | '/' :: '/' :: '/' :: _ => "/"
  | '/' :: '/' :: _ => "//"
  | '/' :: _ => "/"
  | _ => ""

/-- The names of a path that say something: neither empty nor a single point. -/
def plainNames (path : String) : List String :=
  (components path).filter fun name => name ≠ "" && name ≠ "."

/-- The path without empty names and single points. The way up is kept as it is. -/
def plain (path : String) : String :=
  let text := root path ++ Text.joinWith "/" (plainNames path)
  if text.isEmpty then "." else text

/-- The text gives the path. -/
structure Spells (text path : String) : Prop where
  noNull : hasNull text = false
  path_eq : path = plain text

/-- The names before the last one of a path that has a slash behind it, so that it asks for a directory.
The single and the double point ask for one by themselves. -/
def directoryWay? (path : String) : Option (List String) :=
  let names := components path
  let whole := (names.reverse.dropWhile (·.isEmpty)).reverse
  match whole.getLast? with
  | none => none
  | some last =>
    if whole.length < names.length && last ≠ "." && last ≠ ".." then some whole.dropLast else none

/-- A file name without its ending, that is without the part from its last point on. A point at the
very beginning or end does not count. -/
def stem (name : List Char) : List Char :=
  let ending := name.reverse.takeWhile (· ≠ '.')
  let rest := name.reverse.drop (ending.length + 1)
  if ending.isEmpty || rest.isEmpty then name else rest.reverse

/-- The plain path with another ending of the file name. -/
def withEnding (path ending : String) : String :=
  match (plainNames path).reverse with
  | [] => plain path
  | name :: above =>
    root path
      ++ Text.joinWith "/" ((String.ofList (stem name.toList) ++ ending) :: above).reverse

end TwoPass.Path
