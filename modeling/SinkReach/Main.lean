/-
# The program

Takes the files that a command is about from the file system, runs the command on them, writes back
what it changed, and prints what it prints.
-/
import SinkReach.Command.Run

namespace SinkReach.Program

/-- What the file system has at a path, if anything. -/
def entryAt? (path : String) : IO (Option Entry) := do
  try
    let real ← IO.FS.realPath path
    if ← real.isDir then return some .dir
    return some (.file (← IO.FS.readFile real))
  catch _ => return none

/-- Adds what the file system has at the places on the way along a path, and at its end. -/
def gather (t : FileTree) (done : List String) : List String → IO FileTree
  | [] => return t
  | name :: rest => do
    let place := done ++ [name]
    match ← entryAt? ("/" ++ FileTree.pathOf place) with
    | some e => gather (t.put place e) place rest
    | none => return t

/-- Adds what the file system has at a path. -/
def gatherPath (t : FileTree) (path : String) : IO FileTree := gather t [] (t.placeOf path)

/-- The directories in a directory. -/
def subdirectories (path : String) : IO (List String) := do
  try
    let entries ← (← IO.FS.realPath path).readDir
    return (← entries.filterM fun e => e.path.isDir).toList.map (·.fileName)
  catch _ => return []

/-- The paths that a command is about. -/
def paths : Command → IO (List String)
  | .analyze sites table document? settings =>
    return sites :: table :: document?.toList ++ settings.file?.toList
  | .evaluate root results? _ settings => do
    let crates ← CrateGroup.every.mapM fun group => do
      let dir := joinPath root group.name
      return (← subdirectories dir).flatMap fun name =>
        [joinPath (joinPath dir name) sitesFile, joinPath (joinPath dir name) spanTableName]
    let groups := CrateGroup.every.map fun group => joinPath root group.name
    return results?.getD (joinPath root "results.csv") :: groups ++ settings.file?.toList
      ++ crates.flatten

/-- Runs a command on the file system. -/
def perform (command : Command) : IO UInt32 := do
  let home := FileTree.placeOf {} (← IO.currentDir).toString
  let start : FileTree := { home }
  let before ← (← paths command).foldlM gatherPath start
  let result := command.run Decider.withoutSolver before
  for (path, text) in before.changes result.files do
    IO.FS.writeFile ("/" ++ path) text
  IO.print result.output
  if let some e := result.complaint? then
    IO.eprintln ("error: " ++ e.render)
  return .ofNat result.status

end SinkReach.Program

def main (args : List String) : IO UInt32 := do
  match SinkReach.Command.parse? args with
  | some command => SinkReach.Program.perform command
  | none =>
    IO.eprintln "usage: sinkreach [-v] analyze SITES [OPTIONS]"
    IO.eprintln "       sinkreach [-v] eval ROOT [OPTIONS]"
    return 2
