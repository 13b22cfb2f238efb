import ScriptHealth.Script.Node

/-!
# Walking through a tree

A cursor stands on a node and knows the way back: for each step down, the node above and the
siblings to the right. The walk goes to the first child, else to the next sibling, else back to the
node above, and ends when it comes back to the root. It lists the nodes that are wanted on its way.

## Main definitions

* `Cursor.firstChild?`, `Cursor.nextSibling?`, `Cursor.parent?` move a cursor
* `Walker.turn?` is one turn of the walk, and `Walker.run` takes turn after turn
* `Node.walk` lists the nodes that the walk meets
* `Node.walkKinds` lists those of some kinds
-/

namespace ScriptHealth.Script

/-- A place in a tree: a node, and for each step from the root down to it the node above together
with the siblings to the right. -/
structure Cursor where
  node : Node
  trail : List (Node × List Node) := []

namespace Cursor

/-- Move to the first child. -/
def firstChild? (c : Cursor) : Option Cursor :=
  match c.node.children with
  | [] => none
  | d :: ds => some ⟨d, (c.node, ds) :: c.trail⟩

/-- Move to the next sibling. -/
def nextSibling? (c : Cursor) : Option Cursor :=
  match c.trail with
  | (above, d :: ds) :: rest => some ⟨d, (above, ds) :: rest⟩
  | _ => none

/-- Move to the node above. -/
def parent? (c : Cursor) : Option Cursor :=
  match c.trail with
  | (above, _) :: rest => some ⟨above, rest⟩
  | [] => none

end Cursor

/-- Where a walk stands: a cursor, and whether the children of its node have been visited. -/
structure Walker where
  cursor : Cursor
  visited : Bool := false

namespace Walker

/-- The start of the walk through a tree. -/
def start (root : Node) : Walker := { cursor := { node := root } }

/-- The node that the walk meets, which it does before it visits the children, if it is wanted. -/
def met (wanted : Node → Bool) (w : Walker) : List Node :=
  if !w.visited && wanted w.cursor.node then [w.cursor.node] else []

/-- One turn of the walk, or nothing once it has come back to the root. -/
def turn? (w : Walker) : Option Walker :=
  if w.visited then
    match w.cursor.nextSibling? with
    | some c => some { cursor := c }
    | none => w.cursor.parent?.map fun c => { cursor := c, visited := true }
  else
    match w.cursor.firstChild? with
    | some c => some { cursor := c }
    | none => some { w with visited := true }

/-- The wanted nodes that a number of turns meet, behind those of `found`, which stand latest
first. -/
def run (wanted : Node → Bool) : Nat → Walker → List Node → List Node
  | 0, _, found => found.reverse
  | n + 1, w, found =>
    match w.turn? with
    | some next => run wanted n next (w.met wanted ++ found)
    | none => (w.met wanted ++ found).reverse

end Walker

namespace Node

/-- The nodes that the walk from the root meets. Every node is entered once and left once. -/
def walk (root : Node) : List Node := (Walker.start root).run (fun _ => true) (2 * root.size) []

/-- The nodes of some kinds that the walk from the root meets. -/
def walkKinds (root : Node) (kinds : List String) : List Node :=
  (Walker.start root).run (fun n => kinds.contains n.kind) (2 * root.size) []

end Node

end ScriptHealth.Script
