import ScriptHealth.Analysis.File
import ScriptHealth.Data.OrderedMap
import ScriptHealth.Number.Plain

/-!
# Totals of a project

Every file of the project is counted, also by extension; only the readable ones have lines. They are
listed by falling number of code lines, equal ones in the order of the project.
-/

namespace ScriptHealth

/-- A readable file of the project with its line counts. -/
structure ProjectFile where
  path : String
  size : Nat
  extension : String
  lines : LineCount

/-- The totals of a project. -/
structure ProjectStats where
  totalFiles : Nat := 0
  totalLines : Nat := 0
  codeLines : Nat := 0
  commentLines : Nat := 0
  blankLines : Nat := 0
  languages : OrderedMap Nat := []
  files : List ProjectFile := []

namespace ProjectStats

open scoped Number.Plain

/-- The entry of a file, if it could be read. -/
def fileOf (s : SourceFile) (a : FileAnalysis) : Option ProjectFile :=
  a.lines.map fun lines => { path := s.path, size := s.size, extension := s.extension, lines }

/-- Count one more file of a kind. -/
def countLanguage (languages : OrderedMap Nat) (ext : String) : OrderedMap Nat :=
  languages.insert ext ((languages.get? ext).getD 0 + 1)

/-- The totals of the files of a project. -/
def of (sources : List SourceFile) (analyses : List FileAnalysis) : ProjectStats :=
  let files := (sources.zip analyses).filterMap fun p => fileOf p.1 p.2
  let sum (f : LineCount → Nat) : Nat := (files.map fun p => f p.lines).sum
  { totalFiles := sources.length
    totalLines := sum (·.total)
    codeLines := sum (·.code)
    commentLines := sum (·.comment)
    blankLines := sum (·.blank)
    languages := ((sources.zip analyses).map fun p => p.1.extension).foldl countLanguage []
    files := files.mergeSort fun a b => b.lines.code ≤ a.lines.code }

end ProjectStats

end ScriptHealth
