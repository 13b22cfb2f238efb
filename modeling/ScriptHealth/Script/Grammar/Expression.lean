import ScriptHealth.Script.Grammar.Markup
import ScriptHealth.Script.Grammar.Members

/-!
# Expressions

Operands with their members and calls, unary and binary operators by precedence, conditions,
functions with an arrow, and assignments.
-/

namespace ScriptHealth.Script.Grammar

open Parse Token

/-! ### Operands -/

/-- The words that are values by themselves. -/
def valueWords : List String := ["this", "super", "null", "true", "false", "undefined"]

/-- A word that is a value by itself. -/
def valueWord : Parse Piece := do
  let w := nameOf (← look)
  ensure (valueWords.contains w)
  anyName w

/-- A template. -/
def templateString (r : Rules) : Parse Piece :=
  template "template_string" "template_substitution" (one (r.expressions {}))

/-- The module or the constructor that is running. -/
def metaProperty : Parse Piece :=
  node "meta_property" (either
    (chain [one (word "import"), one (mark "."), one (word "meta")])
    (chain [one (word "new"), one (mark "."), one (word "target")]))

/-- A member that follows an operand: after a point, in brackets, or a template. -/
def memberStep (p : Piece) : Parse Piece := do
  let more ← after (chain [
    either (one (mark ".")) (oneInto "optional_chain" (node "optional_chain" (one (mark "?.")))),
    oneInto "property" (either privateName (anyName "property_identifier"))])
  return .around "member_expression" (p.into "object") more

/-- A member that is looked up by an index. -/
def indexStep (r : Rules) (p : Piece) : Parse Piece := do
  let more ← after (chain [
    opt (oneInto "optional_chain" (node "optional_chain" (one (mark "?.")))),
    one (mark "["), oneInto "index" (r.expressions {}), one (mark "]")])
  return .around "subscript_expression" (p.into "object") more

/-- A call with a template. -/
def templateStep (r : Rules) (p : Piece) : Parse Piece := do
  let more ← after (oneInto "arguments" (templateString r))
  return .around "call_expression" (p.into "function") more

/-- A call. -/
def callStep (d : Dialect) (r : Rules) (p : Piece) : Parse Piece := do
  let more ← after (chain [
    opt (oneInto "optional_chain" (node "optional_chain" (one (mark "?.")))),
    if hasTypes d then opt (oneInto "type_arguments" (typeArguments r)) else pure [],
    oneInto "arguments" (either (arguments r) (do ensure (hasTypes d); templateString r))])
  return .around "call_expression" (p.into "function") more

/-- Types given to a generic value that is not called; only the end of an expression follows. -/
def instanceStep (d : Dialect) (r : Rules) (p : Piece) : Parse Piece := do
  ensure (hasTypes d)
  let more ← after (oneInto "type_arguments" (typeArguments r))
  let behind ← nextChar?
  ensure ((behind.map fun c => ";,)]\x7d:".toList.contains c).getD true)
  return .around "instantiation_expression" p more

/-- The assertion that a value is present. -/
def presentStep (d : Dialect) (p : Piece) : Parse Piece := do
  ensure (hasTypes d)
  ensure !(← lineEndsBefore)
  let more ← after (one (mark "!"))
  return .around "non_null_expression" p more

/-- Whether a character can continue an operand. -/
def continuesOperand (c : Char) : Bool :=
  c == '.' || c == '?' || c == '[' || c == '(' || c == '\x60' || c == '<' || c == '!'

/-- An operand with its members; calls are read when `calls` holds. -/
def operandLoop (d : Dialect) (r : Rules) (calls : Bool) : Nat → Piece → Parse Piece
  | 0, p => return p
  | n + 1, p => do
    if !((← nextChar?).map continuesOperand).getD false then return p
    let steps : List (Parse Piece) := [memberStep p, indexStep r p, templateStep r p] ++
      (if calls then [callStep d r p, instanceStep d r p] else []) ++ [presentStep d p]
    let more ← either (do return some (← firstOf steps)) (pure none)
    match more with
    | some q => operandLoop d r calls n q
    | none => return p

/-- A function with its keyword, as an expression. -/
def functionExpression (d : Dialect) (r : Rules) : Parse Piece :=
  function d "function_expression" "generator_function" r

/-- An operand without members. -/
def primary (d : Dialect) (r : Rules) (extended : Parse Piece) : Parse Piece := do
  match ← look with
  | [] => fail
  | c :: _ =>
    if c == Text.quote || c == Text.apostrophe then string
    else if c == '\x60' then templateString r
    else if c.isDigit || c == '.' then number
    else if c == '/' then pattern
    else if c == '(' then parenthesized r
    else if c == '[' then array r
    else if c == '\x7b' then object d r
    else if c == '<' then
      ensure (hasMarkup d)
      r.element
    else if c == '@' then classNode d "class" r extended
    else if c == '#' then privateName
    else
      let w := nameOf (← look)
      if w == "function" then functionExpression d r
      else if w == "async" then either (functionExpression d r) (name "identifier")
      else if w == "class" then classNode d "class" r extended
      else if w == "import" then either metaProperty importKeyword
      else if valueWords.contains w then valueWord
      else name "identifier"

/-- An operand with its members but without calls. -/
def memberOperand (d : Dialect) (r : Rules) : Parse Piece := do
  let first ← primary d r (r.unary {})
  operandLoop d r false ((← left) + 1) first

/-- A constructed value. -/
def construction (d : Dialect) (r : Rules) : Parse Piece :=
  node "new_expression" (chain [
    one (word "new"),
    oneInto "constructor" (do
      if nameOf (← look) == "new" then r.unary {} else memberOperand d r),
    if hasTypes d then opt (do
      let given ← oneInto "type_arguments" (typeArguments r)
      ensure ((← nextChar?) == some '(')
      return given) else pure [],
    opt (oneInto "arguments" (arguments r))])

/-- An operand with its members and calls. -/
def operand (d : Dialect) (r : Rules) : Parse Piece := do
  let first ← do
    if nameOf (← look) == "new" then either metaProperty (construction d r)
    else primary d r (r.unary {})
  operandLoop d r true ((← left) + 1) first

/-! ### Operators -/

/-- An operand, counted up or down behind it. -/
def countedOperand (d : Dialect) (r : Rules) : Parse Piece := do
  let p ← operand d r
  let m ← nextMark?
  if (m == some "++" || m == some "--") && !(← lineEndsBefore) then
    let op ← after (oneInto "operator" (either (mark "++") (mark "--")))
    return .around "update_expression" (p.into "argument") op
  else return p

/-- The operators before an operand. -/
def prefixWords : List String := ["typeof", "void", "delete"]

/-- An expression without binary operators. -/
def unaryExpression (d : Dialect) (r : Rules) (spot : Spot) : Parse Piece := do
  let s ← look
  let w := nameOf s
  if prefixWords.contains w then
    node "unary_expression" (chain [
      oneInto "operator" (word w), oneInto "argument" (r.unary spot)])
  else if w == "await" then
    either (node "await_expression" (chain [one (word "await"), one (r.unary spot)]))
      (countedOperand d r)
  else
    match markOf? s with
    | some m =>
      if m == "!" || m == "~" || m == "+" || m == "-" then
        node "unary_expression" (chain [
          oneInto "operator" (mark m), oneInto "argument" (r.unary spot)])
      else if m == "++" || m == "--" then
        node "update_expression" (chain [
          oneInto "operator" (mark m), oneInto "argument" (r.unary spot)])
      else if m == "<" && !hasMarkup d then
        node "type_assertion" (chain [one (typeArguments r), one (r.unary spot)])
      else countedOperand d r
    | none => countedOperand d r

/-- The binary operators and their precedence. -/
def precedences : List (String × Nat) :=
  [("??", 1), ("||", 2), ("&&", 3), ("|", 4), ("^", 5), ("&", 6), ("==", 7), ("!=", 7), ("===", 7),
   ("!==", 7), ("<", 8), ("<=", 8), (">", 8), (">=", 8), ("instanceof", 8), ("in", 8), ("as", 8),
   ("satisfies", 8), ("<<", 9), (">>", 9), (">>>", 9), ("+", 10), ("-", 10), ("*", 11), ("/", 11),
   ("%", 11), ("**", 12)]

/-- The binary operator that follows after a gap, with its precedence. -/
def nextOperator? (d : Dialect) (spot : Spot) : Parse (Option (String × Nat)) := do
  let w ← nextWord
  if w != "" then
    let allowed := w == "instanceof" || (w == "in" && !spot.noIn) ||
      (hasTypes d && (w == "as" || w == "satisfies") && !(← lineEndsBefore))
    return if allowed then some (w, 8) else none
  else
    match ← nextMark? with
    | none => return none
    | some m => return precedences.find? fun p => p.1 == m

/-- The type that follows `as` or `satisfies`. -/
def castTarget (r : Rules) : Parse Piece :=
  either (do
    let c ← word "const"
    return c) r.typed

/-- Binary operators of at least a precedence, after a first operand. -/
def climb (d : Dialect) (r : Rules) (spot : Spot) : Nat → Nat → Piece → Parse Piece
  | 0, _, left => return left
  | n + 1, least, left => do
    match ← nextOperator? d spot with
    | none => return left
    | some (op, level) =>
      if level < least then return left
      else
        let whole ← either (do
          if op == "as" || op == "satisfies" then
            let more ← after (chain [one (word op), one (castTarget r)])
            return some (Piece.around
              (if op == "as" then "as_expression" else "satisfies_expression") left more)
          else
            let sign ← after (oneInto "operator" (if level == 8 && op.length > 1 && op.front.isAlpha
              then word op else mark op))
            let more ← after (oneInto "right" (do
              let first ← r.unary spot
              climb d r spot n (if op == "**" then level else level + 1) first))
            return some (Piece.around "binary_expression" (left.into "left") (sign ++ more)))
          (pure none)
        match whole with
        | some p => climb d r spot n least p
        | none => return left

/-- Binary operators and a condition. -/
def conditional (d : Dialect) (r : Rules) (spot : Spot) : Parse Piece := do
  let first ← r.unary spot
  let test ← climb d r spot ((← left) + 16) 0 first
  if (← nextMark?) == some "?" then
    let branches (inner : Spot) : Parse (List Piece) := after (chain [
      one (mark "?"), oneInto "consequence" (r.expression inner), one (mark ":"),
      oneInto "alternative" (r.expression spot)])
    let more ← opt (either (branches {}) (branches { noResultType := true }))
    if more.isEmpty then return test
    else return .around "ternary_expression" (test.into "condition") more
  else return test

/-! ### Functions with an arrow -/

/-- Whether type parameters cannot be the tag of a markup element. -/
def isUnambiguous (parameters : Piece) : Bool :=
  parameters.children.any fun p =>
    p.kind == "," || p.children.any fun c => c.kind == "constraint"

/-- The parameters before an arrow. -/
def arrowHead (d : Dialect) (r : Rules) (spot : Spot) : Parse (List Piece) := do
  match (← look).head? with
  | some '(' | some '<' =>
    chain [
      if hasTypes d then opt (do
        let ps ← typeParameters r
        ensure (!hasMarkup d || isUnambiguous ps)
        return [ps.into "type_parameters"]) else pure [],
      oneInto "parameters" (parameters d r),
      if hasTypes d && !spot.noResultType then opt (oneInto "return_type" (resultType r))
      else pure []]
  | _ => oneInto "parameter" (name "identifier")

/-- A function with an arrow. -/
def arrow (d : Dialect) (r : Rules) (spot : Spot) : Parse Piece :=
  node "arrow_function" (chain [
    opt (do
      let a ← word "async"
      ensure !(← lineEndsBefore)
      ensure ((← nextMark?) != some "=>")
      return [a]),
    arrowHead d r spot,
    do
      ensure ((← look).take 2 == ['=', '>'])
      one (mark "=>"),
    oneInto "body" (do
      if (← look).head? == some '\x7b' then block r else r.expression spot)])

/-- Whether a function with an arrow may start here. -/
def mayStartArrow (d : Dialect) : Parse Bool := do
  let s ← look
  match s with
  | [] => return false
  | c :: _ =>
    if c == '(' then return true
    else if c == '<' then return hasTypes d
    else
      let w := nameOf s
      if w == "" || reserved.contains w then return false
      else if w == "async" then return true
      else ahead (do
        skip w.length
        return (← nextMark?) == some "=>")

/-! ### Assignments -/

/-- The operators that assign after computing. -/
def computingAssignments : List String :=
  ["+=", "-=", "*=", "/=", "%=", "^=", "&=", "|=", ">>=", ">>>=", "<<=", "**=", "&&=", "||=", "??="]

/-- The kinds of expressions that can be assigned to. -/
def assignableKinds : List String :=
  ["identifier", "member_expression", "subscript_expression", "parenthesized_expression", "array",
   "object", "undefined", "non_null_expression"]

/-- What is yielded to the caller of a generator. -/
def yielded (r : Rules) (spot : Spot) : Parse Piece :=
  node "yield_expression" (chain [
    one (word "yield"),
    do
      if (← nextMark?) == some "*" then chain [one (mark "*"), one (r.expression spot)]
      else opt (one (r.expression spot))])

/-- What is yielded, with nothing behind it on the next line. -/
def yieldExpression (r : Rules) (spot : Spot) : Parse Piece := do
  if ← ahead (do skip 5; lineEndsBefore) then node "yield_expression" (one (word "yield"))
  else yielded r spot

/-- An operand, an operation or a condition, and what is assigned to it. -/
def assigned (d : Dialect) (r : Rules) (spot : Spot) : Parse Piece := do
  let left ← conditional d r spot
  if !assignableKinds.contains left.kind then return left
  match ← nextMark? with
  | none => return left
  | some m =>
    if m == "=" then
      let more ← opt (after (chain [one (mark "="), oneInto "right" (r.expression spot)]))
      if more.isEmpty then return left
      else return .around "assignment_expression" ((asTarget left).into "left") more
    else if computingAssignments.contains m then
      let more ← opt (after (chain [
        oneInto "operator" (mark m), oneInto "right" (r.expression spot)]))
      if more.isEmpty then return left
      else return .around "augmented_assignment_expression" (left.into "left") more
    else return left

/-- One expression. -/
def expression (d : Dialect) (r : Rules) (spot : Spot) : Parse Piece := do
  if nameOf (← look) == "yield" then yieldExpression r spot
  else if ← mayStartArrow d then either (arrow d r spot) (assigned d r spot)
  else assigned d r spot

/-- Expressions divided by commas. -/
def expressions (r : Rules) (spot : Spot) : Parse Piece := do
  let first ← r.expression spot
  let more ← opt (after (many (chain [comma, one (r.expression spot)])))
  if more.isEmpty then return first else return .around "sequence_expression" first more

end ScriptHealth.Script.Grammar
