import ScriptHealth.Log
import ScriptHealth.Number.Binary64
import ScriptHealth.Source.Path

/-!
# The graph of local imports

Nodes are project files and edges are resolved imports, in the order in which they were found.
Both lists are cut to a cap. When nodes are cut, edges that lost an end are dropped before the cap
on edges applies.

## Main definitions

* `DependencyGraph.build` makes the capped graph
* `DependencyGraph.couplingRatio` is the number of edges per node
-/

namespace ScriptHealth

open Number

/-- A resolved import. -/
structure Edge where
  source : String
  target : String
  deriving DecidableEq, Repr

/-- Files and the imports between them; the same import may occur more than once. -/
structure DependencyGraph where
  nodes : List String := []
  edges : List Edge := []
  deriving DecidableEq, Repr

/-- The first items of a list up to a cap; a negative cap counts from the end. -/
def capped {α : Type} (cap : Int) (items : List α) : List α :=
  if cap < 0 then items.take (items.length - cap.natAbs) else items.take cap.toNat

namespace DependencyGraph

/-- The edges per node; an empty graph counts as one node. -/
def couplingRatio (g : DependencyGraph) : Binary64 :=
  Binary64.ofRatio false g.edges.length (max g.nodes.length 1)

/-- Write the backslashes of a path as slashes. -/
def slashed (path : String) : String := String.ofList (Path.slashes path.toList)

/-- All edges in the order in which they were found. -/
def allEdges (imports : List (String × List String)) : List Edge :=
  imports.flatMap fun (source, targets) => targets.map fun target => ⟨slashed source, target⟩

/-- The edges that remain when the nodes are cut to `kept`: all of them if no node was cut, and
otherwise those that kept both ends. -/
def edgesWithin (nodeCount : Nat) (maxNodes : Int) (kept : List String) (edges : List Edge) :
    List Edge :=
  if maxNodes < nodeCount then
    edges.filter fun e => kept.contains e.source && kept.contains e.target
  else edges

/-- The capped graph of a list of files and their resolved imports. -/
def build (files : List String) (imports : List (String × List String))
    (maxNodes maxEdges : Int) : DependencyGraph :=
  let nodes := files.map slashed
  let kept := capped maxNodes nodes
  -- the cap on edges applies to what the cut of the nodes has left
  { nodes := kept
    edges := capped maxEdges (edgesWithin nodes.length maxNodes kept (allEdges imports)) }

/-- The record of a cut. -/
def cutRecord (template : String) (cap : Int) (count : Nat) : Log.Record :=
  { level := .info, logger := "moduly.graph.builder", template,
    arguments := [.number cap, .number count] }

/-- The records of building a capped graph. -/
def buildRecords (files : List String) (imports : List (String × List String))
    (maxNodes maxEdges : Int) : List Log.Record :=
  let nodes := files.map slashed
  let edges := edgesWithin nodes.length maxNodes (capped maxNodes nodes) (allEdges imports)
  (if maxNodes < nodes.length then
    [cutRecord "Dependency graph truncated to %d of %d nodes" maxNodes nodes.length] else []) ++
  (if maxEdges < edges.length then
    [cutRecord "Dependency graph truncated to %d of %d edges" maxEdges edges.length] else [])

end DependencyGraph

end ScriptHealth
