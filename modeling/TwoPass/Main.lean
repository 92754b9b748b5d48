import TwoPass.CommandLine.Run

/-!
The program itself: hands arguments, environment and the files they name to a run, and carries out what
the run leaves behind.
-/

namespace TwoPass.CommandLine

/-- What the system has at a path that can be read. -/
def inspect (path : String) : IO (Option FileNode) := do
  try
    let real ← IO.FS.realPath path
    if ← real.isDir then
      return some .directory
    else
      return some (.text (← IO.FS.readFile path))
  catch _ =>
    return none

/-- Takes what names stand for from the system. -/
def settleAs (store : FileStore) (names place : List String) : FileStore :=
  { store with settle := fun other => if other = names then place else store.settle other }

/-- Takes what lies on the way to a path into a store. `way` is the part of the path already taken. -/
def takeIn (store : FileStore) (way : String) : List String → IO FileStore
  | [] => return store
  | name :: rest => do
    let here := way ++ name
    let store ←
      match store.locate here with
      | .vacant names =>
        match ← inspect here with
        | some node => do
          let place := Path.plainNames (← IO.FS.realPath here).toString
          pure ((settleAs store names place).put place node)
        | none => pure store
      | _ => pure store
    takeIn store (here ++ "/") rest

/-- The paths a command line names, and the one it implies. -/
def paths (arguments : List String) : List String :=
  match scanAll {} arguments with
  | .error _ => []
  | .ok scan =>
    scan.values.map (·.2) ++ scan.arguments
      ++ scan.arguments.map fun path => Path.withEnding path objectEnding

def takeInAll (store : FileStore) : List String → IO FileStore
  | [] => return store
  | path :: rest => do
    let store ← takeIn store "" (Path.components path)
    takeInAll store rest

/-- The variables that a run looks at. -/
def environment : IO (List (String × String)) := do
  let names := [Settings.strictVariable, Settings.relativeVariable, Settings.errorsVariable]
  names.filterMapM fun name => do
    return (← IO.getEnv name).map fun value => (name, value)

end TwoPass.CommandLine

open TwoPass in
def main (arguments : List String) : IO UInt32 := do
  let home := Path.plainNames (← IO.FS.realPath ".").toString
  let files ← CommandLine.takeInAll { FileStore.empty with home } (CommandLine.paths arguments)
  let environment ← CommandLine.environment
  match CommandLine.run (environment.lookup ·) files arguments with
  | .error fault =>
    (← IO.getStderr).putStr (fault.message ++ "\n")
    return 1
  | .ok outcome =>
    let before := files.texts
    for (path, content) in outcome.files.texts do
      if before.lookup path != some content then
        IO.FS.writeFile path content
    (← IO.getStdout).putStr outcome.stdout
    (← IO.getStderr).putStr outcome.stderr
    return UInt32.ofNat outcome.exit.number
