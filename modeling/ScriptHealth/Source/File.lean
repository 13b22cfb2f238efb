import ScriptHealth.Source.Language

/-!
# Source files

A source file is a path of the project with the size of the file and its text. A file that could
not be read has no text; it still counts as a file of the project.
-/

namespace ScriptHealth

/-- A file of the project. -/
structure SourceFile where
  path : String
  size : Nat := 0
  text : Option String := none
  deriving DecidableEq, Repr

namespace SourceFile

/-- The extension of the file. -/
def extension (s : SourceFile) : String := extensionOf s.path

/-- Whether the file could be read. -/
def isReadable (s : SourceFile) : Bool := s.text.isSome

end SourceFile

end ScriptHealth
