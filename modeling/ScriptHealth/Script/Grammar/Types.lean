import ScriptHealth.Script.Grammar.Rules

/-!
# Types

Annotations of typed scripts: names, unions, functions, objects, tuples, queries and conditions.
-/

namespace ScriptHealth.Script.Grammar

open Parse Token

/-- The names of the built-in types. -/
def builtinTypes : List String :=
  ["any", "number", "boolean", "string", "symbol", "void", "unknown", "never", "object"]

/-- A type after a colon. -/
def typeMark (r : Rules) : Parse Piece :=
  node "type_annotation" (chain [one (mark ":"), one r.typed])

/-- Types between angle brackets, given to something generic. -/
def typeArguments (r : Rules) : Parse Piece :=
  node "type_arguments"
    (chain [one (exactly "<"), many (either comma (one r.typed)), one (exactly ">")])

/-- A declared type parameter. -/
def typeParameter (r : Rules) : Parse Piece :=
  node "type_parameter" (chain [
    many (firstOf [one (word "const"), do
      -- a variance mark is followed by the name of the parameter
      let w := nameOf (← look)
      ensure (w == "in" || w == "out")
      one (word w)]),
    oneInto "name" (name "type_identifier"),
    opt (oneInto "constraint" (node "constraint" (chain [
      one (either (word "extends") (mark ":")), one r.typed]))),
    opt (oneInto "value" (node "default_type" (chain [one (mark "="), one r.typed])))])

/-- Declared type parameters between angle brackets. -/
def typeParameters (r : Rules) : Parse Piece :=
  node "type_parameters"
    (chain [one (exactly "<"), many (either comma (one (typeParameter r))), one (exactly ">")])

/-- The word `this` as a node of some kind. -/
def thisWord (kind : String) : Parse Piece :=
  leaf kind true (do
    ensure (nameOf (← look) == "this")
    skip 4)

/-- The name before a predicate: a name or `this`. -/
def predicateName : Parse Piece := either (thisWord "this") (name "identifier")

/-- A statement about a parameter in the place of a result type. -/
def predicate (r : Rules) : Parse Piece :=
  node "type_predicate" (chain [oneInto "name" predicateName, one (word "is"), oneInto "type" r.typed])

/-- The result of a function that checks a parameter. -/
def assertion (r : Rules) : Parse Piece :=
  node "asserts" (chain [one (word "asserts"), one (either (predicate r) predicateName)])

/-- The result type of a function, after its colon. -/
def resultType (r : Rules) : Parse Piece :=
  firstOf [
    node "asserts_annotation" (chain [one (mark ":"), one (assertion r)]),
    node "type_predicate_annotation" (chain [one (mark ":"), one (predicate r)]),
    typeMark r]

/-- Names joined by points. -/
def dottedLoop (kind last : String) : Nat → Piece → Parse Piece
  | 0, p => return p
  | n + 1, p => do
    let more ← opt (after (chain [one (mark "."), oneInto "name" (anyName last)]))
    if more.isEmpty then return p
    else
      dottedLoop kind last n (.around kind p more)

/-- A named type, which may be qualified and given arguments. -/
def namedType (r : Rules) : Parse Piece := do
  let first ← name "type_identifier"
  let qualified ← do
    if (← nextMark?) == some "." then
      let first := first.renamed "identifier"
      dottedLoop "nested_type_identifier" "type_identifier" (← left) first
    else pure first
  let arguments ← opt (after (one (typeArguments r)))
  if arguments.isEmpty then return qualified else return .around "generic_type" qualified arguments

/-- A parameter of a typed function. -/
def typedParameter (r : Rules) : Parse Piece := do
  let s ← get
  let body ← chain [
    many (do
      let w := nameOf (← look)
      ensure (["public", "private", "protected", "readonly", "override"].contains w)
      let m ← if ["public", "private", "protected"].contains w then
          node "accessibility_modifier" (one (word w))
        else if w == "override" then node "override_modifier" (one (word w))
        else word w
      -- a modifier is followed by the parameter itself
      let c ← nextChar?
      ensure ((c.map fun c => startsName c || c == '[' || c == '\x7b').getD false)
      return [m]),
    oneInto "pattern" (either r.target (thisWord "this")),
    opt (one (mark "?")),
    opt (oneInto "type" (typeMark r)),
    opt (chain [one (mark "="), oneInto "value" (r.expression {})])]
  let e ← get
  let kind := if body.any fun p => p.kind == "?" then "optional_parameter" else "required_parameter"
  return .mk kind none true s.offset e.offset s.row body

/-- The parameters of a function type. -/
def functionTypeParameters (r : Rules) : Parse Piece :=
  node "formal_parameters" (listing "(" ")" (one (either
    (node "required_parameter" (chain [
      oneInto "pattern" (node "rest_pattern" (chain [one (mark "..."), one r.target])),
      opt (oneInto "type" (typeMark r))]))
    (typedParameter r))))

/-- The type of a function or of a constructor. -/
def functionType (r : Rules) : Parse Piece :=
  either
    (node "function_type" (chain [
      opt (one (typeParameters r)), one (functionTypeParameters r), one (mark "=>"),
      oneInto "return_type" (firstOf [assertion r, predicate r, r.typed])]))
    (node "constructor_type" (chain [
      opt (one (word "abstract")), one (word "new"), opt (one (typeParameters r)),
      one (functionTypeParameters r), one (mark "=>"), oneInto "type" r.typed]))

/-- The name of a member. -/
def propertyName (r : Rules) : Parse Piece :=
  firstOf [anyName "property_identifier", privateName, string, number,
    node "computed_property_name"
      (chain [one (mark "["), one (r.expression {}), one (mark "]")])]

/-- The signs before the question mark or the key word of a mapped member. -/
def signed (m : Parse (List Piece)) : Parse (List Piece) :=
  either m (chain [one (either (mark "-") (mark "+")), m])

/-- The members that are given by an index or by a mapping. -/
def indexSignature (r : Rules) : Parse Piece :=
  node "index_signature" (chain [
    opt (signed (one (word "readonly"))),
    one (mark "["),
    either
      (chain [oneInto "name" (name "identifier"), one (mark ":"), oneInto "index_type" r.typed])
      (one (node "mapped_type_clause" (chain [
        oneInto "name" (name "type_identifier"), one (word "in"), oneInto "type" r.typed,
        opt (chain [one (word "as"), oneInto "alias" r.typed])]))),
    one (mark "]"),
    opt (signed (one (mark "?"))),
    opt (oneInto "type" (typeMark r))])

/-- The parameters and the result of a signature. -/
def callSignature (r : Rules) : Parse (List Piece) :=
  chain [opt (oneInto "type_parameters" (typeParameters r)),
    oneInto "parameters" (functionTypeParameters r),
    opt (oneInto "return_type" (resultType r))]

/-- A member of an object type. -/
def typeMember (r : Rules) : Parse Piece :=
  firstOf [
    indexSignature r,
    node "construct_signature" (chain [
      opt (one (word "abstract")), one (word "new"), opt (one (typeParameters r)),
      one (functionTypeParameters r), opt (oneInto "type" (typeMark r))]),
    node "call_signature" (callSignature r),
    node "method_signature" (chain [
      opt (do
        let w := nameOf (← look)
        ensure (w == "get" || w == "set")
        let m ← word w
        let c ← nextChar?
        ensure ((c.map fun c => !isMark c || c == '[' || c == Text.quote || c == Text.apostrophe).getD
          false)
        return [m]),
      oneInto "name" (propertyName r), opt (one (mark "?")), callSignature r]),
    node "property_signature" (chain [
      opt (do
        let m ← word "readonly"
        let c ← nextChar?
        ensure ((c.map fun c => !isMark c || c == '[' || c == Text.quote || c == Text.apostrophe).getD
          false)
        return [m]),
      oneInto "name" (propertyName r), opt (one (mark "?")),
      opt (oneInto "type" (typeMark r))])]

/-- The members of an object type between braces. -/
def objectType (kind : String) (r : Rules) : Parse Piece :=
  node kind (chain [
    one (mark "\x7b"),
    many (firstOf [comma, one (mark ";"), one (typeMember r)]),
    one (mark "\x7d")])

/-- An item of a tuple. -/
def tupleItem (r : Rules) : Parse Piece :=
  firstOf [
    node "required_parameter" (chain [
      oneInto "name" (either (name "identifier")
        (node "rest_pattern" (chain [one (mark "..."), one (name "identifier")]))),
      oneInto "type" (typeMark r)]),
    node "rest_type" (chain [one (mark "..."), one r.typed]),
    node "optional_parameter" (chain [
      oneInto "name" (name "identifier"), one (mark "?"), oneInto "type" (typeMark r)]),
    do
      let t ← r.typed
      let q ← opt (after (one (mark "?")))
      if q.isEmpty then return t else return .around "optional_type" t q]

/-- The keyword `import` in the place of a called function. -/
def importKeyword : Parse Piece :=
  leaf "import" true (do
    ensure (nameOf (← look) == "import")
    skip 6)

/-- The arguments of a call. -/
def arguments (r : Rules) : Parse Piece :=
  node "arguments" (listing "(" ")" (one (either (spread r) (r.expression {}))))

/-- A call of `import`. -/
def importCall (r : Rules) : Parse Piece := do
  let callee ← importKeyword
  let given ← after (oneInto "arguments" (arguments r))
  return .around "call_expression" (callee.into "function") given

/-- Members of a queried value, from the left. -/
def queriedMembers : Nat → Piece → Parse Piece
  | 0, p => return p
  | n + 1, p => do
    let more ← opt (after (either
      (chain [one (mark "."), oneInto "property" (either privateName (anyName "property_identifier"))])
      (chain [oneInto "optional_chain" (node "optional_chain" (one (mark "?."))),
        oneInto "property" (anyName "property_identifier")])))
    if more.isEmpty then return p
    else queriedMembers n (.around "member_expression" (p.into "object") more)

/-- What a type query asks about: a name with members, or a called import. -/
def queried (r : Rules) : Parse Piece := do
  let first ← firstOf [importCall r, thisWord "this", name "identifier"]
  let whole ← queriedMembers (← left) first
  let given ← opt (after (one (typeArguments r)))
  if given.isEmpty then return whole else return .around "instantiation_expression" whole given

/-- A type that is imported from a file. -/
def importedType (r : Rules) : Parse Piece := do
  let whole ← importCall r
  let whole ← queriedMembers (← left) whole
  let given ← opt (after (one (typeArguments r)))
  if given.isEmpty then return whole else return .around "generic_type" whole given

/-- A type that is a value: a string, a number or a named constant. -/
def literalType : Parse Piece :=
  node "literal_type" (one (firstOf [
    number, string,
    node "unary_expression" (chain [one (either (mark "-") (mark "+")), one number]),
    do
      let w := nameOf (← look)
      ensure (["true", "false", "null", "undefined"].contains w)
      anyName w]))

/-- A type without operators around it. -/
def primaryType (r : Rules) : Parse Piece :=
  firstOf [
    node "parenthesized_type" (chain [one (mark "("), one r.typed, one (mark ")")]),
    literalType,
    do
      let w := nameOf (← look)
      ensure (builtinTypes.contains w)
      ensure ((← ahead (do skip w.length; nextMark?)) != some ".")
      node "predefined_type" (one (word w)),
    node "predefined_type" (chain [one (word "unique"), one (word "symbol")]),
    thisWord "this_type",
    node "type_query" (chain [one (word "typeof"), one (queried r)]),
    objectType "object_type" r,
    node "tuple_type" (listing "[" "]" (one (tupleItem r))),
    template "template_literal_type" "template_type" (one r.typed),
    importedType r,
    word "const",
    namedType r]

/-- A type followed by brackets: lists of it, and looked-up members. -/
def postfixType (r : Rules) : Parse Piece := do
  let first ← primaryType r
  let rec brackets : Nat → Piece → Parse Piece
    | 0, p => return p
    | n + 1, p => do
      if ← lineEndsBefore then return p
      let list ← opt (after (chain [one (mark "["), one (mark "]")]))
      if !list.isEmpty then brackets n (.around "array_type" p list)
      else
        let member ← opt (after (chain [one (mark "["), one r.typed, one (mark "]")]))
        if member.isEmpty then return p else brackets n (.around "lookup_type" p member)
  brackets (← left) first

/-- A type with operators before it. -/
def prefixedType (r : Rules) : Nat → Parse Piece
  | 0 => fail
  | n + 1 => firstOf [
      node "index_type_query" (chain [one (word "keyof"), one (prefixedType r n)]),
      node "readonly_type" (chain [one (word "readonly"), one (prefixedType r n)]),
      node "infer_type" (chain [one (word "infer"), one (name "type_identifier"),
        opt (do
          let constraint ← chain [one (word "extends"), one (prefixedType r n)]
          ensure ((← nextMark?) != some "?")
          return constraint)]),
      postfixType r]

/-- Types joined by a mark, from the left. A mark may also stand before the first. -/
def joinedTypes (kind m : String) (item : Parse Piece) : Parse Piece := do
  let leading ← opt (one (mark m))
  let first ← do
    if leading.isEmpty then item
    else
      let t ← after (one item)
      pure (Piece.around kind (leading.headD default) t)
  let rec go : Nat → Piece → Parse Piece
    | 0, p => return p
    | n + 1, p => do
      let more ← opt (after (chain [one (mark m), one item]))
      if more.isEmpty then return p else go n (.around kind p more)
  go (← left) first

/-- A type. -/
def typeExpression (r : Rules) : Parse Piece := do
  either (functionType r) (do
    let t ← joinedTypes "union_type" "|"
      (joinedTypes "intersection_type" "&"
        (either (functionType r) (prefixedType r ((← left) + 1))))
    let condition ← opt (after (chain [
      one (word "extends"), oneInto "right" r.typed, one (mark "?"),
      oneInto "consequence" r.typed, one (mark ":"), oneInto "alternative" r.typed]))
    if condition.isEmpty then return t
    else return .around "conditional_type" (t.into "left") condition)

end ScriptHealth.Script.Grammar
