import ScriptHealth.Workspace.Entry

/-!
# Changes of a file tree

The difference between a tree and a later one is the list of folders that were made and of files that
were written, each after the folder that it is in.
-/

namespace ScriptHealth

/-- A change of a file tree. -/
inductive Change where
  | madeFolder (place : Location)
  | wroteFile (place : Location) (content : ByteArray)

namespace Change

mutual

/-- What was made or written at and below a location that held `old` before. -/
def between (here : Location) (old : Option Entry) : Entry → List Change
  | .file content =>
    match old with
    | some (.file before) => if before = content then [] else [.wroteFile here content]
    | _ => [.wroteFile here content]
  | .link _ | .closed => []
  | .folder es =>
    (match old with
      | some (.folder _) => []
      | _ => [.madeFolder here]) ++ amongEntries here old es

/-- What was made or written at and below the entries of a folder. -/
def amongEntries (here : Location) (old : Option Entry) : List (String × Entry) → List Change
  | [] => []
  | (name, e) :: rest =>
    between (here ++ [name]) (old.bind (·.child? name)) e ++ amongEntries here old rest

end

end Change

end ScriptHealth
