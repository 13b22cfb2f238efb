/-!
# Trees of scripts

A node of a script tree has a kind, the text it covers, the row on which it starts, and children.
A child may carry the name of the field that it fills in its parent. Keywords and punctuation are
nodes without a name of their own; a comment is a named node.

## Main definitions

* `Node` and its parts
* `Node.childByField?`, `Node.namedChildren` reach children
* `Node.preorder` lists a node and all nodes below it
-/

namespace ScriptHealth.Script

/-- A node of a script tree. -/
inductive Node where
  | mk (kind : String) (text? : Option String) (row : Nat) (field? : Option String) (named : Bool)
      (children : List Node)
  deriving Inhabited

namespace Node

/-- The kind of a node. -/
def kind : Node → String
  | .mk k .. => k

/-- The text that a node covers; empty if it is not known. -/
def text : Node → String
  | .mk _ t .. => t.getD ""

/-- The row on which a node starts, counted from 0. -/
def row : Node → Nat
  | .mk _ _ r .. => r

/-- The line on which a node starts, counted from 1. -/
def line (n : Node) : Nat := n.row + 1

/-- The field that a node fills in its parent. -/
def field? : Node → Option String
  | .mk _ _ _ f .. => f

/-- Whether a node is named: neither a keyword nor punctuation. -/
def isNamed : Node → Bool
  | .mk _ _ _ _ n _ => n

/-- The children of a node. -/
def children : Node → List Node
  | .mk _ _ _ _ _ cs => cs

/-- The first child that fills a field. -/
def childByField? (n : Node) (field : String) : Option Node :=
  n.children.find? fun c => c.field? == some field

/-- The named children. -/
def namedChildren (n : Node) : List Node := n.children.filter isNamed

mutual

/-- The number of nodes of a tree. -/
def size : Node → Nat
  | .mk _ _ _ _ _ cs => sizeAll cs + 1

/-- The number of nodes of several trees. -/
def sizeAll : List Node → Nat
  | [] => 0
  | c :: cs => size c + sizeAll cs

end

mutual

/-- A node and all nodes below it, parents before children and children in order. -/
def preorder : Node → List Node
  | .mk k t r f n cs => .mk k t r f n cs :: preorderAll cs

/-- The nodes of several trees, tree after tree. -/
def preorderAll : List Node → List Node
  | [] => []
  | c :: cs => preorder c ++ preorderAll cs

end

end Node

end ScriptHealth.Script
