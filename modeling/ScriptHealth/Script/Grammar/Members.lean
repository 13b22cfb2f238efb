import ScriptHealth.Script.Grammar.Binding

/-!
# Functions, classes and objects

The constructs with members: function expressions and declarations, classes with their heritage,
and object literals.
-/

namespace ScriptHealth.Script.Grammar

open Parse Token

/-- Whether a member name may start with a character. -/
def startsMember (c : Char) : Bool :=
  !isMark c || c == '[' || c == Text.quote || c == Text.apostrophe || c == '#' || c == '*'

/-- A word that modifies the member behind it, and not a member of that name. -/
def modifierWord (w : String) : Parse Piece := do
  let m ← word w
  ensure (((← nextChar?).map startsMember).getD false)
  return m

/-- The modifiers of class members. -/
def classModifiers (d : Dialect) : List String :=
  if hasTypes d then
    ["declare", "public", "private", "protected", "static", "override", "readonly", "abstract",
     "accessor", "async", "get", "set"]
  else ["static", "accessor", "async", "get", "set"]

/-- One modifier of a member. -/
def modifier (words : List String) : Parse Piece := do
  if (← look).head? == some '*' then mark "*"
  else
    let w := nameOf (← look)
    ensure (words.contains w)
    if ["public", "private", "protected"].contains w then
      node "accessibility_modifier" (one (modifierWord w))
    else if w == "override" then node "override_modifier" (one (modifierWord w))
    else modifierWord w

/-- The parameters and the body of a function; a typed one may lack the body. -/
def functionTail (d : Dialect) (r : Rules) : Parse (List Piece) :=
  chain [signature d r,
    if hasTypes d then opt (oneInto "body" (block r)) else oneInto "body" (block r)]

/-- The kind of a member with the given parts. -/
def memberKind (fieldKind : String) (parts : List Piece) : String :=
  let holds (k : String) : Bool := parts.any fun p => p.kind == k
  if !holds "formal_parameters" then fieldKind
  else if holds "statement_block" then "method_definition"
  else if holds "abstract" then "abstract_method_signature"
  else "method_signature"

/-- A node whose kind depends on its parts. -/
def nodeOf (kind : List Piece → String) (body : Parse (List Piece)) : Parse Piece := do
  let s ← get
  let cs ← body
  let e ← get
  return .mk (kind cs) none true s.offset e.offset s.row cs

/-- A method of an object literal. -/
def objectMethod (d : Dialect) (r : Rules) : Parse Piece :=
  node "method_definition" (chain [
    many (one (modifier ["static", "async", "get", "set"])),
    oneInto "name" (propertyName r), opt (one (mark "?")),
    signature d r, oneInto "body" (block r)])

/-- A member of an object literal. A name with a default value is only meant as a target. -/
def objectMember (d : Dialect) (r : Rules) : Parse Piece :=
  firstOf [
    spread r,
    node "pair" (chain [
      oneInto "key" (propertyName r), one (mark ":"), oneInto "value" (r.expression {})]),
    objectMethod d r,
    node "object_assignment_pattern" (chain [
      oneInto "left" (name "shorthand_property_identifier_pattern"), one (mark "="),
      oneInto "right" (r.expression {})]),
    name "shorthand_property_identifier"]

/-- An object literal. -/
def object (d : Dialect) (r : Rules) : Parse Piece :=
  node "object" (listing "\x7b" "\x7d" (one (objectMember d r)))

/-- A list literal. -/
def array (r : Rules) : Parse Piece :=
  node "array" (listing "[" "]" (one (either (spread r) (r.expression {}))))

/-! ### Functions -/

/-- A function with its keyword. A function without a body is a signature. -/
def function (d : Dialect) (plain generator : String) (r : Rules) : Parse Piece :=
  nodeOf
    (fun parts =>
      if hasTypes d && !parts.any (fun p => p.kind == "statement_block") then "function_signature"
      else if parts.any (fun p => p.kind == "*") then generator else plain)
    (chain [
      opt (do
        let a ← word "async"
        ensure !(← lineEndsBefore)
        return [a]),
      one (word "function"), opt (one (mark "*")), opt (oneInto "name" (name "identifier")),
      functionTail d r])

/-! ### Classes -/

/-- What a class extends; `value` reads the class. -/
def heritage (d : Dialect) (r : Rules) (value : Parse Piece) : Parse Piece :=
  if hasTypes d then
    node "class_heritage" (chain [
      opt (one (node "extends_clause" (chain [
        one (word "extends"), oneInto "value" value, opt (oneInto "type_arguments" (typeArguments r)),
        many (chain [comma, oneInto "value" value,
          opt (oneInto "type_arguments" (typeArguments r))])]))),
      opt (one (node "implements_clause" (chain [
        one (word "implements"), one r.typed, many (chain [comma, one r.typed])])))])
  else node "class_heritage" (chain [one (word "extends"), one value])

/-- A member of a class with its modifiers; `decorators` stand inside the node. -/
def classMember (d : Dialect) (r : Rules) (decorators : List Piece) : Parse Piece := do
  let s ← get
  let start := decorators.headD (.mk "" none false s.offset s.offset s.row [])
  let parts ← chain [
    many (one (modifier (classModifiers d))),
    oneInto "name" (propertyName r),
    if hasTypes d then opt (one (either (mark "?") (mark "!"))) else pure [],
    either (functionTail d r) (chain [
      if hasTypes d then opt (oneInto "type" (typeMark r)) else pure [],
      opt (chain [one (mark "="), oneInto "value" (r.expression {})])])]
  let e ← get
  let kind := memberKind (if hasTypes d then "public_field_definition" else "field_definition") parts
  return .mk kind none true start.start e.offset start.row (decorators ++ parts)

/-- A member of a class, or a semicolon between members. Decorators of a typed method stand before
it, those of any other member belong to it. -/
def classItem (d : Dialect) (r : Rules) : Parse (List Piece) :=
  firstOf [
    one (mark ";"),
    one (node "class_static_block" (chain [one (word "static"), oneInto "body" (block r)])),
    (do
      ensure (hasTypes d)
      one (node "index_signature" (chain [
        many (one (modifier ["static", "readonly", "public", "private", "protected"])),
        oneInto "index" (indexSignature r)]))),
    do
      let s ← get
      let decorators ← many (one (decorator r))
      if decorators.isEmpty then one (classMember d r [])
      else
        let comments ← gap
        let m ← classMember d r []
        if hasTypes d && m.kind == "method_definition" then return decorators ++ comments ++ [m]
        else
          return [.mk m.kind none true s.offset m.stop s.row (decorators ++ comments ++ m.children)]]

/-- The members of a class. -/
def classBody (d : Dialect) (r : Rules) : Parse Piece :=
  node "class_body" (chain [
    one (mark "\x7b"), many (either (classItem d r) (do ensure (hasTypes d); comma)),
    one (mark "\x7d")])

/-- A class; `value` reads what it extends. -/
def classNode (d : Dialect) (kind : String) (r : Rules) (value : Parse Piece) : Parse Piece :=
  node kind (chain [
    many (oneInto "decorator" (decorator r)),
    if kind == "abstract_class_declaration" then one (word "abstract") else pure [],
    one (word "class"),
    opt (do
      let w := nameOf (← look)
      ensure (w != "extends" && w != "implements")
      oneInto "name" (name (if hasTypes d then "type_identifier" else "identifier"))),
    if hasTypes d then opt (oneInto "type_parameters" (typeParameters r)) else pure [],
    opt (do
      let h ← heritage d r value
      ensure !h.children.isEmpty
      return [h]),
    oneInto "body" (classBody d r)])

end ScriptHealth.Script.Grammar
