import ScriptHealth.Graph.Resolve
import ScriptHealth.Script.Import
import ScriptHealth.Script.Parser
import ScriptHealth.Security.Secret
import ScriptHealth.Security.Shape
import ScriptHealth.Source.File
import ScriptHealth.Source.LineCount

/-!
# What is learned from one file

A readable file gives its line counts, the project files and the packages that it imports, and the
findings in its text. Imports and dangerous shapes come from the tree of a script, secrets from the
lines of any text. A script that the parser refuses is analysed like a text that is no script.

## Main definitions

* `ScriptParser` is what an analysis asks for trees
* `FileAnalysis.ofTree` takes the tree of the script as given
* `FileAnalysis.ofSource` parses the script with a parser that is passed to it
-/

namespace ScriptHealth

/-- A parser of scripts. It gives the tree of a text in a dialect, or refuses the text with a
reason. -/
abbrev ScriptParser := Dialect → String → Except String Script.Node

/-- The tree of the text of a file. A text that is no script has none, and neither has a script that
the parser refuses; the reason is not kept. -/
def ScriptParser.treeOf? (parse : ScriptParser) (path text : String) : Option Script.Node :=
  (dialectOf? path).bind fun d => (parse d text).toOption

/-- What is learned from one file. An unreadable file has no line counts. -/
structure FileAnalysis where
  path : String
  lines : Option LineCount := none
  localImports : List String := []
  externalImports : List String := []
  findings : List Finding := []

namespace FileAnalysis

/-- The analysis of a readable text and its tree, if it is a script. -/
def ofTree (path text : String) (tree : Option Script.Node) (isFile : String → Bool) :
    FileAnalysis :=
  let specifiers := (tree.map Script.imports).getD []
  let inner := specifiers.filter Specifier.isRelative
  { path
    lines := some (LineCount.of text (extensionOf path))
    localImports := inner.filterMap fun s => Specifier.resolve? s path isFile
    externalImports := specifiers.filter fun s => !Specifier.isRelative s
    findings := (tree.map (scanTree · path)).getD [] ++ scanSecrets text path }

/-- The analysis of a file among the files of its project. -/
def ofSource (parse : ScriptParser) (isFile : String → Bool) (s : SourceFile) : FileAnalysis :=
  match s.text with
  | none => { path := s.path }
  | some text => ofTree s.path text (parse.treeOf? s.path text) isFile

end FileAnalysis

end ScriptHealth
