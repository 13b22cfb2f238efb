import ScriptHealth.Script.Walk

/-!
# Imports of a script

Import and export statements name their source, and calls of `require` and `import` name it as
their first argument. Only plain string literals count. Specifiers are listed in the order of the
text, repeated ones included.
-/

namespace ScriptHealth.Script

/-- The kinds of nodes that can import. -/
def importKinds : List String := ["import_statement", "export_statement", "call_expression"]

/-- The value of a string literal without its quotes. -/
def stringValue? (n : Node) : Option String :=
  if n.kind = "string" then
    let cs := n.text.toList
    if cs.length < 2 then none else some (String.ofList (cs.drop 1).dropLast)
  else none

/-- The first argument of a call; a template in the place of the arguments has none. -/
def firstArgument? (call : Node) : Option Node :=
  match call.childByField? "arguments" with
  | none => none
  | some args => if args.kind = "arguments" then args.namedChildren.head? else none

/-- Whether a called node imports: the name `require` or the keyword `import`. -/
def isImporter (callee : Node) : Bool :=
  (callee.kind == "identifier" && callee.text == "require") || callee.kind == "import"

/-- The specifier that a node imports by itself. -/
def specifierOf? (n : Node) : Option String :=
  if n.kind = "import_statement" ∨ n.kind = "export_statement" then
    (n.childByField? "source").bind stringValue?
  else if n.kind = "call_expression" then
    match n.childByField? "function" with
    | none => none
    | some callee => if isImporter callee then (firstArgument? n).bind stringValue? else none
  else none

/-- The specifiers of a tree. -/
def imports (root : Node) : List String := (root.walkKinds importKinds).filterMap specifierOf?

end ScriptHealth.Script
