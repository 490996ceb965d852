import NextStop.Command.Run
import Std.Time.DateTime.Timestamp

/-!
# The command line

The program as it is called: what a request may look at is read from the disk, the library
answers, and the changes that it asks for are made to the disk.
-/

namespace NextStop.Main

/-- What an entry of the disk holds; nothing if it is not there. -/
def entry? (name : String) : IO (Option FileTree.Entry) := do
  try
    let real ← IO.FS.realPath name
    if ← real.isDir then return some .folder
    return some (.file (Content.ofBytes (← IO.FS.readBinFile real).toList))
  catch _ => return none

/-- A tree with the entries of the disk along a path. -/
def look (t : FileTree) (path : String) : IO FileTree := do
  let names := Path.names path
  (List.range names.length).foldlM (fun t n => do
    let way := "/".intercalate (names.take (n + 1))
    match ← entry? way with
    | some (.file content) => return t.put way content
    | some .folder => return (t.makeFolders way).2
    | none => return t) t

/-- The nearest file of variables, from the working folder upwards. -/
def variablesFile? : Nat → String → IO (Option Content)
  | 0, _ => return none
  | folders + 1, place => do
    match ← entry? (place ++ NextStop.variablesFile) with
    | some (.file content) => return some content
    | _ => variablesFile? folders (place ++ "../")

/-- The variables of the environment with some of the names. -/
def variablesSet (names : List String) : IO EnvironmentFile.Variables :=
  names.filterMapM fun name => do
    if name = "" then return none
    return (← IO.getEnv name).map fun value => (name, value)

/-- The names of the variables that can matter, given the file of variables. -/
def variableNames (file : Option Content) : List String :=
  workersVariable :: LogFile.variableName :: Help.displayVariables ++
    Settings.flags.filterMap (·.variableName) ++
    EnvironmentFile.mentions ((file.getD []).filterMap id)

/-- The paths that a run may look at. -/
def pathsOf (set : EnvironmentFile.Variables) (present : Int) (arguments : List String) :
    List String :=
  let environment (name : String) : Option String := set.lookup name
  let log := (LogFile.ofEnvironment environment).path (ServiceDay.dateOf present 0)
  match Request.parse environment arguments with
  | .ok request => log :: request.inputs ++ request.outputs
  | .error _ => [log]

/-- Makes a change to the disk, as far as it is possible. -/
def perform (change : FileTree.Change) : IO Unit := do
  try
    match change with
    | .makeFolders path => IO.FS.createDirAll path
    | .append path text => IO.FS.withFile path .append fun file => file.putStr text
  catch _ => return ()

end NextStop.Main

open NextStop NextStop.Main in
def main (arguments : List String) : IO UInt32 := do
  let here ← IO.currentDir
  let file ← variablesFile? (here.components.length) ""
  let set ← variablesSet (variableNames file)
  let present := (← Std.Time.Timestamp.now).toMillisecondsSinceUnixEpoch.val
  let mut tree := FileTree.ofFolder (here.components.filter (· ≠ ""))
  if let some content := file then tree := tree.put NextStop.variablesFile content
  if let .ok all := NextStop.allVariables tree set then
    for path in pathsOf all present arguments do tree ← look tree path
  let result := NextStop.run tree set present arguments
  for change in result.disk.changes do perform change
  IO.print result.output
  IO.eprint result.complaint
  return UInt32.ofNat result.status
