import ScriptHealth.Command.Run
import ScriptHealth.Timestamp
import ScriptHealth.Workspace.Change
import Std.Time.DateTime.Timestamp

/-!
# The program

The program takes the files that a command line is about into a workspace, runs the command line on
it, and writes back what has changed. It runs no other program, so an audit counts as not found and a
project as one without a history.
-/

namespace ScriptHealth.Program

/-- The entry of a file, a link or a folder on disk; anything else is left out. -/
partial def entryOf? (e : IO.FS.DirEntry) : IO (Option Entry) := do
  let path := e.path
  match (← path.symlinkMetadata).type with
  | .file => return some (.file (← IO.FS.readBinFile path))
  | .dir =>
    try
      let found ← (← path.readDir).toList.filterMapM fun inner => do
        return (← entryOf? inner).map (inner.fileName, ·)
      return some (.folder found)
    catch _ => return some .closed
  | .symlink =>
    try
      match (← path.metadata).type with
      | .file => return some (.file (← IO.FS.readBinFile path))
      | _ => return some (.link (← IO.FS.realPath path).toString)
    catch _ => return some (.link e.fileName)
  | .other => return none

/-- Take what is at a path on disk into a workspace. -/
def take (w : Workspace) (path : String) : IO Workspace := do
  try
    let real ← IO.FS.realPath path
    if ← real.isDir then
      let found ← (← real.readDir).toList.filterMapM fun inner => do
        return (← entryOf? inner).map (inner.fileName, ·)
      return w.place real.toString (.folder found)
    else if ← real.pathExists then
      return w.place (w.absolute path) (.file (← IO.FS.readBinFile real))
    else return w
  catch _ => return w

/-- The variables that the program looks at. -/
def environmentOf : IO (OrderedMap String) :=
  (UserSettings.homeVariable :: Environment.kinds.map fun k => Environment.variableOf k.1).filterMapM
    fun name => do return (← IO.getEnv name).map (name, ·)

/-- The workspace of a command line. -/
def workspaceOf (arguments : List String) : IO Workspace := do
  let current := (← IO.FS.realPath ".").toString
  let home := (← IO.getEnv "HOME").getD "/"
  let w : Workspace := { current, home, environment := ← environmentOf }
  let w := { w with tree := .folder [] }
  let w ← if arguments.head? = some "analyze" then take w "." else pure w
  let named := arguments.filter fun word => !word.toList.isEmpty
  let files := [Workspace.under home Config.homeFileName,
    Workspace.under current Config.projectFileName, UserSettings.path w]
  (named ++ files).foldlM take w

/-- Write a change to disk. -/
def apply : Change → IO Unit
  | .madeFolder place => IO.FS.createDirAll (Workspace.pathOf place)
  | .wroteFile place content => IO.FS.writeBinFile (Workspace.pathOf place) content

/-- The timestamp of this moment. -/
def timestamp : IO String := do
  let now ← Std.Time.Timestamp.now
  return timestampOfMillis now.toMillisecondsSinceUnixEpoch.val.toNat

/-- Run a command line and write what has changed. -/
def run (arguments : List String) : IO UInt32 := do
  let w ← workspaceOf arguments
  let (after, outcome) := Command.run w {} (← timestamp) arguments
  (Change.between [] (some w.tree) after.tree).forM apply
  IO.print outcome.output
  if outcome.escaped.isSome then IO.eprintln "The run was ended by a fault."
  return outcome.exitCode.toUInt32

end ScriptHealth.Program

/-- Run the program on its arguments. -/
def main (arguments : List String) : IO UInt32 := ScriptHealth.Program.run arguments
