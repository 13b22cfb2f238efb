import ScriptHealth.Analysis.Pool
import ScriptHealth.Analysis.Stats
import ScriptHealth.Config.Basic
import ScriptHealth.Graph.Basic
import ScriptHealth.Package.Usage

/-!
# What is learned from all files

The analyses of the single files are merged in the order of the files: totals, the graph of imports,
the use of packages and the findings in the texts.

## Main definitions

* `analyzeFilesIn` analyses every file, given the order in which the workers finish
* `SourceAnalysis.merge` merges the analyses
* `SourceAnalysis.of` analyses every file and merges the analyses
-/

namespace ScriptHealth

/-- What is learned from all files of a project. -/
structure SourceAnalysis where
  stats : ProjectStats := {}
  graph : DependencyGraph := {}
  packages : PackageUsage := {}
  findings : List Finding := []

/-- Whether a path is one of the project's files. -/
def isProjectFile (sources : List SourceFile) (path : String) : Bool :=
  sources.any (·.path == path)

/-- The analyses of the files, when the workers finish in the given order. -/
def analyzeFilesIn (order : List Nat) (parse : ScriptParser) (sources : List SourceFile) :
    List FileAnalysis :=
  Pool.collect order (FileAnalysis.ofSource parse (isProjectFile sources)) sources

namespace SourceAnalysis

/-- The resolved imports of the files. -/
def localImports (analyses : List FileAnalysis) : List (String × List String) :=
  analyses.map fun a => (a.path, a.localImports)

/-- Merge the analyses of the files of a project. -/
def merge (sources : List SourceFile) (analyses : List FileAnalysis) (manifest : Option Manifest)
    (maxNodes maxEdges : Int) : SourceAnalysis where
  stats := .of sources analyses
  graph := .build (sources.map (·.path)) (localImports analyses) maxNodes maxEdges
  packages := .classify manifest (analyses.flatMap (·.externalImports))
  findings := analyses.flatMap (·.findings)

/-- What is learned from the files of a project under a configuration, when the workers finish in
the given order. The number of workers that a configuration asks for is not read here: all it does is
to make some orders possible and others not. -/
def ofIn (order : List Nat) (parse : ScriptParser) (config : Config) (sources : List SourceFile)
    (manifest : Option Manifest) : Except Fault SourceAnalysis := do
  let maxNodes ← Config.cap config.maxNodes
  let maxEdges ← Config.cap config.maxEdges
  return merge sources (analyzeFilesIn order parse sources) manifest maxNodes maxEdges

/-- What is learned from the files of a project under a configuration. -/
def of (parse : ScriptParser) (config : Config) (sources : List SourceFile)
    (manifest : Option Manifest) : Except Fault SourceAnalysis :=
  ofIn (List.range sources.length) parse config sources manifest

end SourceAnalysis

end ScriptHealth
