import TwoPass.CommandLine.Basic
import TwoPass.Text.Resemblance

/-!
Arguments of the command line. Options may stand anywhere before `--`; short ones may be joined, and a
value may be joined to its option. An option given twice has its last value.
-/

namespace TwoPass.CommandLine

inductive Switch
  | output
  | listing
  | symbols
  | strict
  | relative
  | verbose
  | version
  | help
  deriving DecidableEq, Repr

namespace Switch

def all : List Switch :=
  [.output, .listing, .symbols, .strict, .relative, .verbose, .version, .help]

/-- The long form. -/
def name : Switch → String
  | .output => "--output"
  | .listing => "--listing"
  | .symbols => "--symbols"
  | .strict => "--strict"
  | .relative => "--relative"
  | .verbose => "--verbose"
  | .version => "--version"
  | .help => "--help"

/-- The letter of the short form, where there is one. -/
def letter? : Switch → Option Char
  | .output => some 'o'
  | .listing => some 'l'
  | .symbols => some 's'
  | .verbose => some 'v'
  | _ => none

/-- Whether the name of a file follows. -/
def takesValue : Switch → Bool
  | .output | .listing | .symbols => true
  | _ => false

def ofName? (text : String) : Option Switch :=
  all.find? (·.name == text)

/-- The long forms that resemble a text. -/
def similar (text : String) : List String :=
  Text.Resemblance.closest text (all.map (·.name))

def ofLetter? (c : Char) : Option Switch :=
  all.find? (·.letter? == some c)

/-- Both forms as messages name them. -/
def label (s : Switch) : String :=
  match s.letter? with
  | some c => "'-" ++ String.ofList [c] ++ "' / '" ++ s.name ++ "'"
  | none => "'" ++ s.name ++ "'"

end Switch

/-- The name of the only argument. -/
def inputName : String :=
  "INPUT_FILE"

/-- What can be wrong with a command line. -/
inductive UsageError
  /-- An unknown option, and the known ones that are written much like it. -/
  | noSuchOption (name : String) (similar : List String)
  | needsValue (name : String)
  | takesNoValue (name : String)
  | missingInput
  | extraArguments (arguments : List String)
  | inputNotFound (path : String)
  | inputIsDirectory (path : String)
  | outputIsDirectory (switch : Switch) (path : String)
  deriving DecidableEq, Repr

namespace UsageError

/-- What is said of the options a misspelt one may stand for. -/
def offer (names : List String) : String :=
  match names with
  | [] => ""
  | [name] => " Did you mean " ++ name ++ "?"
  | _ => " (Possible options: " ++ Text.joinWith ", " (names.mergeSort fun a b => a ≤ b) ++ ")"

def message : UsageError → String
  | .noSuchOption name similar => "No such option: " ++ name ++ offer similar
  | .needsValue name => "Option " ++ Text.quoted name ++ " requires an argument."
  | .takesNoValue name => "Option " ++ Text.quoted name ++ " does not take a value."
  | .missingInput => "Missing argument '" ++ inputName ++ "'."
  | .extraArguments arguments =>
    "Got unexpected extra argument" ++ (if arguments.length = 1 then "" else "s") ++ " ("
      ++ Text.joinWith " " arguments ++ ")"
  | .inputNotFound path =>
    "Invalid value for '" ++ inputName ++ "': File " ++ Text.quoted path ++ " does not exist."
  | .inputIsDirectory path =>
    "Invalid value for '" ++ inputName ++ "': File " ++ Text.quoted path ++ " is a directory."
  | .outputIsDirectory switch path =>
    "Invalid value for " ++ switch.label ++ ": File " ++ Text.quoted path ++ " is a directory."

/-- Whether the usage of the program is shown above the message. -/
def showsUsage : UsageError → Bool
  | .needsValue _ | .takesNoValue _ => false
  | _ => true

end UsageError

/-- Why a command line is not carried out. -/
inductive Rejection
  | usage (error : UsageError)
  /-- A path that cannot even be asked for. -/
  | fault (fault : Fault)
  deriving DecidableEq, Repr

/-! ## Scanning -/

/-- Options and other arguments as they were given. -/
structure Scan where
  /-- Options in order of use. -/
  order : List Switch := []
  values : List (Switch × String) := []
  arguments : List String := []
  deriving DecidableEq, Repr

namespace Scan

def useFlag (scan : Scan) (switch : Switch) : Scan :=
  { scan with order := scan.order ++ [switch] }

def useValue (scan : Scan) (switch : Switch) (value : String) : Scan :=
  { scan with
    order := scan.order ++ [switch]
    values := scan.values ++ [(switch, value)] }

def has (scan : Scan) (switch : Switch) : Bool :=
  scan.order.contains switch

/-- The last value of an option. -/
def value? (scan : Scan) (switch : Switch) : Option String :=
  scan.values.reverse.lookup switch

end Scan

/-- A scan, and the option that still waits for its value, with the name it was given by. -/
abbrev Pending := Scan × Option (Switch × String)

/-- An option in its long form; a value may follow an equals sign. -/
def scanLong (scan : Scan) (argument : List Char) : Except UsageError Pending :=
  let name := String.ofList (argument.takeWhile (· ≠ '='))
  let value : Option String :=
    match argument.dropWhile (· ≠ '=') with
    | [] => none
    | _ :: rest => some (String.ofList rest)
  match Switch.ofName? name with
  | none => .error (.noSuchOption name (Switch.similar name))
  | some switch =>
    if switch.takesValue then
      match value with
      | some value => .ok (scan.useValue switch value, none)
      | none => .ok (scan, some (switch, name))
    else if value.isSome then
      .error (.takesNoValue name)
    else
      .ok (scan.useFlag switch, none)

/-- Options in their short forms, the first of which takes what is left as its value if it takes one. -/
def scanShort (scan : Scan) : List Char → Except UsageError Pending
  | [] => .ok (scan, none)
  | c :: rest =>
    let name := String.ofList ['-', c]
    match Switch.ofLetter? c with
    | none => .error (.noSuchOption name [])
    | some switch =>
      if switch.takesValue then
        if rest.isEmpty then .ok (scan, some (switch, name))
        else .ok (scan.useValue switch (String.ofList rest), none)
      else
        scanShort (scan.useFlag switch) rest

/-- One argument that begins with a dash and is longer than that. -/
def scanOption (scan : Scan) (argument : List Char) : Except UsageError Pending :=
  match argument with
  | '-' :: '-' :: _ => scanLong scan argument
  | _ => scanShort scan (argument.drop 1)

def isOptionText : List Char → Bool
  | '-' :: _ :: _ => true
  | _ => false

/-- Sorts arguments into options and others. -/
def scanAll (scan : Scan) : List String → Except UsageError Scan
  | [] => .ok scan
  | argument :: rest =>
    if argument = "--" then
      .ok { scan with arguments := scan.arguments ++ rest }
    else if isOptionText argument.toList then
      match scanOption scan argument.toList with
      | .error e => .error e
      | .ok (scan, none) => scanAll scan rest
      | .ok (scan, some (switch, name)) =>
        match rest with
        | [] => .error (.needsValue name)
        | value :: rest => scanAll (scan.useValue switch value) rest
    else
      scanAll { scan with arguments := scan.arguments ++ [argument] } rest

/-! ## Requests -/

inductive Request
  | assemble (job : Job)
  | version
  | help
  deriving DecidableEq, Repr

/-- What is at a path, if the path can be asked for. -/
def inquire (files : FileStore) (path : String) : Except Rejection (Option FileNode) :=
  if Path.hasNull path then .error (.fault .nullInPath) else .ok (files.look? path)

/-- A file to be written must not be a directory. -/
def checkOutput (files : FileStore) (scan : Scan) (switch : Switch) : Except Rejection Unit :=
  match scan.value? switch with
  | none => .ok ()
  | some path =>
    match inquire files path with
    | .error e => .error e
    | .ok (some .directory) => .error (.usage (.outputIsDirectory switch path))
    | .ok _ => .ok ()

/-- Checks options in order of use. -/
def checkOutputs (files : FileStore) (scan : Scan) : List Switch → Except Rejection Unit
  | [] => .ok ()
  | switch :: rest =>
    match checkOutput files scan switch with
    | .error e => .error e
    | .ok () => checkOutputs files scan rest

/-- The file to be read has to be there. -/
def checkInput (files : FileStore) (scan : Scan) : Except Rejection String :=
  match scan.arguments with
  | [] => .error (.usage .missingInput)
  | path :: _ =>
    match inquire files path with
    | .error e => .error e
    | .ok none => .error (.usage (.inputNotFound path))
    | .ok (some .directory) => .error (.usage (.inputIsDirectory path))
    | .ok (some _) => .ok path

/-- The run that options and arguments ask for. -/
def jobOf (scan : Scan) (input : String) : Job :=
  let path? (switch : Switch) := (scan.value? switch).map Path.plain
  { input := Path.plain input
    output := path? .output
    listing := path? .listing
    symbols := path? .symbols
    strict := scan.has .strict
    relative := scan.has .relative
    verbose := scan.has .verbose }

/-- Questions about the program come before all checks but those of the option names, then the files
to be written in order of use, the file to be read, and arguments too many. -/
def requestOf (files : FileStore) (scan : Scan) : Except Rejection Request :=
  match scan.order.find? fun switch => switch = .version || switch = .help with
  | some .version => .ok .version
  | some _ => .ok .help
  | none =>
    match checkOutputs files scan scan.order with
    | .error e => .error e
    | .ok () =>
      match checkInput files scan with
      | .error e => .error e
      | .ok input =>
        if scan.arguments.length ≤ 1 then
          .ok (.assemble (jobOf scan input))
        else
          .error (.usage (.extraArguments (scan.arguments.drop 1)))

/-- What a command line asks for. -/
def parse (files : FileStore) (arguments : List String) : Except Rejection Request :=
  match scanAll {} arguments with
  | .error e => .error (.usage e)
  | .ok scan => requestOf files scan

/-! ## Answers -/

def programName : String :=
  "sicasm"

def versionText : String :=
  programName ++ ", version 1.0.0\n"

def usageLine : String :=
  "Usage: " ++ programName ++ " [OPTIONS] " ++ inputName ++ "\n"

def helpText : String :=
  usageLine
    ++ "\n"
    ++ "  Assemble SIC/XE source code.\n"
    ++ "\n"
    ++ "  INPUT_FILE is the fixed-column assembly source file (.asm).\n"
    ++ "\n"
    ++ "  The assembler produces an object program of Header, Text and End records,\n"
    ++ "  one per line.\n"
    ++ "\n"
    ++ "  Examples:\n"
    ++ "      sicasm copy.asm              # Outputs copy.obj\n"
    ++ "      sicasm copy.asm -o out.obj   # Specify output file\n"
    ++ "      sicasm copy.asm -l copy.lst  # Also write a listing\n"
    ++ "\n"
    ++ "Options:\n"
    ++ "  -o, --output FILE   Output object file (default: input.obj)\n"
    ++ "  -l, --listing FILE  Generate listing file\n"
    ++ "  -s, --symbols FILE  Generate symbol file\n"
    ++ "  --strict            Treat operand count/type mismatches as errors\n"
    ++ "  --relative          Use PC-relative or base-relative displacements in format\n"
    ++ "                      3\n"
    ++ "  -v, --verbose       Verbose output\n"
    ++ "  --version           Show the version and exit.\n"
    ++ "  --help              Show this message and exit.\n"

def usageText (e : UsageError) : String :=
  let usage :=
    if e.showsUsage then
      usageLine ++ "Try '" ++ programName ++ " --help' for help.\n\n"
    else
      ""
  usage ++ echo ("Error: " ++ e.message)

/-- Answers questions about the program and wrong usage, and hands on the rest. -/
def readArguments : Reader := fun files arguments =>
  match parse files arguments with
  | .error (.fault fault) => .error fault
  | .error (.usage e) => .ok (.closed .arguments "" (usageText e))
  | .ok .version => .ok (.closed .success versionText "")
  | .ok .help => .ok (.closed .success helpText "")
  | .ok (.assemble job) => .ok (.call job)

end TwoPass.CommandLine
