import ScriptHealth.Script.Walk
import ScriptHealth.Security.Finding

/-!
# Dangerous shapes

Shapes of script nodes that let text be run as code, run as a command or be put into a page. Each
shape looks at nodes of certain kinds only.

## Main definitions

* `DangerousShape.catalog` lists the shapes
* `scanTree` lists the findings of a tree
-/

namespace ScriptHealth

open Script

/-- A dangerous shape of a node. -/
structure DangerousShape where
  name : String
  category : String
  severity : Severity
  description : String
  kinds : List String
  check : Node → Bool

namespace DangerousShape

/-- What a call expression calls. -/
def callee? (n : Node) : Option Node :=
  if n.kind = "call_expression" then n.childByField? "function" else none

/-- Whether a node is an identifier with one of the given names. -/
def isNameIn (names : List String) : Option Node → Bool
  | none => false
  | some n => n.kind == "identifier" && names.contains n.text

/-- The property of a member expression; empty for other nodes. -/
def memberProperty : Option Node → String
  | none => ""
  | some n =>
    if n.kind = "member_expression" then
      match n.childByField? "property" with
      | none => ""
      | some p => if p.kind = "property_identifier" then p.text else ""
    else ""

/-- The names of the functions that run a command. -/
def execNames : List String := ["exec", "execSync"]

/-- A call of `eval`. -/
def isEvalCall (n : Node) : Bool := isNameIn ["eval"] (callee? n)

/-- A call of the function constructor, with or without `new`. -/
def isFunctionConstructor (n : Node) : Bool :=
  if n.kind = "new_expression" then isNameIn ["Function"] (n.childByField? "constructor")
  else isNameIn ["Function"] (callee? n)

/-- A call that runs a command. -/
def isExecCall (n : Node) : Bool :=
  isNameIn execNames (callee? n) || execNames.contains (memberProperty (callee? n))

/-- An assignment to raw markup. -/
def isInnerHtmlAssignment (n : Node) : Bool :=
  (n.kind == "assignment_expression" || n.kind == "augmented_assignment_expression") &&
    memberProperty (n.childByField? "left") == "innerHTML"

/-- An attribute that sets raw markup. -/
def isRawMarkupAttribute (n : Node) : Bool :=
  n.kind == "jsx_attribute" &&
    match n.namedChildren with
    | [] => false
    | c :: _ => c.text == "dangerouslySetInnerHTML"

/-- A call that writes into the document. -/
def isDocumentWrite (n : Node) : Bool :=
  match callee? n with
  | none => false
  | some c => memberProperty (some c) == "write" && isNameIn ["document"] (c.childByField? "object")

/-- The shapes, in the order in which they are tried. -/
def catalog : List DangerousShape :=
  [{ name := "eval() Usage", category := "Code Injection", severity := .critical
     description := "eval() executes arbitrary code and is a major injection risk. " ++
       "Use safer alternatives like JSON.parse()."
     kinds := ["call_expression"], check := isEvalCall },
   { name := "Function() Constructor", category := "Code Injection", severity := .high
     description := "Function() dynamically creates functions from strings, similar to eval(). " ++
       "Avoid passing user input."
     kinds := ["call_expression", "new_expression"], check := isFunctionConstructor },
   { name := "child_process exec()", category := "Command Injection", severity := .high
     description := "exec() runs shell commands and is vulnerable to command injection. " ++
       "Prefer execFile() with explicit arguments."
     kinds := ["call_expression"], check := isExecCall },
   { name := "innerHTML Assignment", category := "Cross-Site Scripting (XSS)", severity := .medium
     description := "innerHTML injects raw HTML and can lead to XSS. " ++
       "Use textContent or a sanitization library instead."
     kinds := ["assignment_expression", "augmented_assignment_expression"]
     check := isInnerHtmlAssignment },
   { name := "dangerouslySetInnerHTML", category := "Cross-Site Scripting (XSS)"
     severity := .medium
     description := "dangerouslySetInnerHTML renders raw HTML in React components. " ++
       "Ensure content is properly sanitized."
     kinds := ["jsx_attribute"], check := isRawMarkupAttribute },
   { name := "document.write()", category := "Cross-Site Scripting (XSS)", severity := .medium
     description := "document.write() is a legacy DOM method that can overwrite the entire page " ++
       "and is XSS-prone."
     kinds := ["call_expression"], check := isDocumentWrite }]

/-- The kinds of nodes that some shape looks at. -/
def allKinds : List String := catalog.flatMap (·.kinds)

/-- The finding of a shape at a node. -/
def finding (path : String) (n : Node) (s : DangerousShape) : Finding :=
  { name := s.name, severity := s.severity, description := .str s.description,
    source := .codeScan, category := s.category, file := some path, line := some n.line }

/-- The findings at one node. -/
def findingsAt (path : String) (n : Node) : List Finding :=
  (catalog.filter fun s => s.kinds.contains n.kind && s.check n).map (finding path n)

end DangerousShape

/-- The findings of a tree, in the order of its nodes. -/
def scanTree (root : Node) (path : String) : List Finding :=
  (root.walkKinds DangerousShape.allKinds).flatMap (DangerousShape.findingsAt path)

end ScriptHealth
