import TwoPass.Fault
import TwoPass.Files.Path
import TwoPass.Text.LineBreak

/-!
A store of files: a tree of directories, texts and devices, seen from a working directory. A place is given by its
names from the root of the system down. Paths are looked up name by name, so a path through something that is no
directory leads nowhere, and each name may be a link to another place.
-/

namespace TwoPass

inductive FileNode
  | text (content : String)
  | directory
  /-- Takes every text and keeps none. -/
  | sink
  deriving DecidableEq, Repr

/-- Why a text is not taken at a place, and what is left there in its stead if the writing had begun. -/
structure Refusal where
  message : String
  left : Option String := none
  deriving DecidableEq, Repr

/-- Places and what is at them. -/
abbrev Entries :=
  List (List String × FileNode)

structure FileStore where
  /-- The working directory. -/
  home : List String := []
  /-- The place that names stand for. Links stand for the place they lead to, and so do names that the system does
  not tell apart. -/
  settle : List String → List String := id
  /-- Why the system does not let a place be read. -/
  unreadable : List String → Option String := fun _ => none
  /-- Why the system does not take a text at a place, with all that it holds. -/
  refusal : Entries → List String → String → Option Refusal := fun _ _ _ => none
  entries : Entries := []

namespace FileStore

/-- The root of the system, the working directory and those between them are always there. -/
def isStanding (store : FileStore) (place : List String) : Bool :=
  place.isPrefixOf store.home

def node? (store : FileStore) (place : List String) : Option FileNode :=
  if store.isStanding place then some .directory else store.entries.lookup place

/-- The directory above a place; the root of the system is above itself. -/
def above (place : List String) : List String :=
  place.dropLast

/-- Sets a node, in the place of the one that is there if there is one. -/
def put (store : FileStore) (place : List String) (node : FileNode) : FileStore :=
  { store with
    entries :=
      if (store.entries.lookup place).isSome then
        store.entries.map fun entry => if entry.1 = place then (place, node) else entry
      else
        store.entries ++ [(place, node)] }

/-! ## Stores from lists -/

/-- Directories that every system has under its root. -/
def systemDirectories : List String :=
  [
    "bin", "boot", "dev", "etc", "home", "lib", "media", "mnt", "opt", "proc", "root", "run", "sbin",
    "srv", "sys", "tmp", "usr", "var"
  ]

/-- What every system has: some directories, and a sink. -/
def systemEntries : Entries :=
  systemDirectories.map (fun name => ([name], .directory)) ++ [(["dev", "null"], .sink)]

/-- A system with a working directory that has nothing in it. -/
def empty : FileStore :=
  { home := ["home", "user", "work"], entries := systemEntries }

/-- Adds the directories on the way to a node that are missing. -/
def putWay (store : FileStore) (start : List String) : List String → FileStore
  | [] | [_] => store
  | name :: rest =>
    let here := start ++ [name]
    let store := if (store.node? here).isSome then store else store.put here .directory
    store.putWay here rest

/-- A store with the given nodes and the directories on the way to them in the working directory. -/
def ofList (nodes : List (String × FileNode)) : FileStore :=
  nodes.foldl (fun store (path, node) =>
    let names := Path.plainNames path
    (store.putWay store.home names).put (store.home ++ names) node) empty

/-! ## Paths -/

/-- Bytes of the longest name. -/
def maxNameBytes : Nat := 255

/-- Bytes of the longest path. -/
def maxPathBytes : Nat := 4095

/-- The name of the directory above. -/
def upward : String :=
  ".."

/-- Where a path leads: a place that may hold a node, or nowhere. -/
inductive Place
  | found (place : List String) (node : FileNode)
  | vacant (place : List String)
  /-- A directory on the way is missing. -/
  | noWay
  /-- Something on the way is not a directory. -/
  | blocked
  /-- The path or a name on the way is too long. -/
  | tooLong
  deriving DecidableEq, Repr

/-- The end of a way. A link may end where there is not even a directory. -/
def arrive (store : FileStore) (here : List String) : Place :=
  match store.node? here with
  | some node => .found here node
  | none => if store.node? (above here) = some .directory then .vacant here else .noWay

/-- Follows names from a place. -/
def walk (store : FileStore) (here : List String) : List String → Place
  | [] => store.arrive here
  | name :: rest =>
    match store.node? here with
    | none => .noWay
    | some (.text _) | some .sink => .blocked
    | some .directory =>
      if name = "" || name = "." then store.walk here rest
      else if name = upward then store.walk (above here) rest
      else if maxNameBytes < name.utf8ByteSize then .tooLong
      else store.walk (store.settle (here ++ [name])) rest

/-- Where some names of a path lead. The empty path leads nowhere. -/
def follow (store : FileStore) (path : String) (names : List String) : Place :=
  if maxPathBytes < path.utf8ByteSize then
    .tooLong
  else
    match path.toList with
    | [] => .noWay
    | '/' :: _ => store.walk [] names
    | _ => store.walk store.home names

/-- Where a path leads. -/
def locate (store : FileStore) (path : String) : Place :=
  store.follow path (Path.components path)

/-- What a path leads to, if anything is there. -/
def look? (store : FileStore) (path : String) : Option FileNode :=
  match store.locate path with
  | .found _ node => some node
  | _ => none

/-! ## Reading -/

/-- A text at a place, if the system lets it be read. -/
def fetch (store : FileStore) (place : List String) (content : String) : Except FileFault String :=
  match store.unreadable place with
  | none => .ok content
  | some message => .error (.other message)

/-- The text of a file, as it is kept. -/
def contents (store : FileStore) (path : String) : Except FileFault String :=
  match store.locate path with
  | .found place (.text content) => store.fetch place content
  | .found place .sink => store.fetch place ""
  | .found _ .directory => .error (.isDirectory path)
  | .blocked => .error (.notDirectory path)
  | .tooLong => .error (.nameTooLong path)
  | .vacant _ | .noWay => .error (.notFound path)

/-- The text of a file with all line breaks in one form. -/
def read (store : FileStore) (path : String) : Except FileFault String :=
  (store.contents path).map fun content => String.ofList (Text.unifyBreaks content.toList)

/-! ## Writing -/

/-- Where a path leads for writing. A slash behind the last name asks for a directory, whatever has that
name in the directory above. -/
def locateTarget (store : FileStore) (path : String) : Place :=
  match Path.directoryWay? path with
  | none => store.locate path
  | some way =>
    match store.follow path way with
    | .vacant _ => .noWay
    | .found _ (.text _) | .found _ .sink => .blocked
    | place => place

/-- What is at a place after a refusal. -/
def leave (store : FileStore) (place : List String) (left : Option String) : FileStore :=
  match left with
  | none => store
  | some content => store.put place (.text content)

/-- Writes a file; what it held before is lost. -/
def write (store : FileStore) (path content : String) : FileStore × Option FileFault :=
  match store.locateTarget path with
  | .found place (.text _) | .vacant place =>
    match store.refusal store.entries place content with
    | none => (store.put place (.text content), none)
    | some refusal => (store.leave place refusal.left, some (.other refusal.message))
  | .found place .sink =>
    (store, (store.refusal store.entries place content).map fun refusal => .other refusal.message)
  | .found _ .directory => (store, some (.isDirectory path))
  | .blocked => (store, some (.notDirectory path))
  | .tooLong => (store, some (.nameTooLong path))
  | .noWay => (store, some (.notFound path))

/-! ## Contents -/

/-- The names of a place below the working directory, from there down. -/
def below? (store : FileStore) (place : List String) : Option (List String) :=
  if store.home.isPrefixOf place then some (place.drop store.home.length) else none

/-- The shortest path to a place without the way up. -/
def pathText (store : FileStore) (place : List String) : String :=
  match store.below? place with
  | some names => Text.joinWith "/" names
  | none => "/" ++ Text.joinWith "/" place

/-- All texts with their paths. -/
def texts (store : FileStore) : List (String × String) :=
  store.entries.filterMap fun (place, node) =>
    match node with
    | .text content => some (store.pathText place, content)
    | .directory | .sink => none

/-- The part of a store below the working directory. -/
def below (store : FileStore) : FileStore :=
  { store with entries := store.entries.filter fun entry => (store.below? entry.1).isSome }

end FileStore

end TwoPass
