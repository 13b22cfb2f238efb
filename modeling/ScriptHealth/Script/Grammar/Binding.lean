import ScriptHealth.Script.Grammar.Types

/-!
# Targets of bindings

Names, lists and objects that values are bound to, parameters of functions, and the reading of an
expression as a target when an assignment follows it.
-/

namespace ScriptHealth.Script.Grammar

open Parse Token

/-- A target with a default value. -/
def withDefault (kind : String) (r : Rules) (target : Parse Piece) : Parse Piece := do
  let t ← target
  let value ← opt (after (chain [one (mark "="), oneInto "right" (r.expression {})]))
  if value.isEmpty then return t else return .around kind (t.into "left") value

/-- Three dots and a target. -/
def restTarget (r : Rules) : Parse Piece :=
  node "rest_pattern" (chain [one (mark "..."), one r.target])

/-- A member of an object target. -/
def objectTargetMember (r : Rules) : Parse Piece :=
  firstOf [
    restTarget r,
    node "pair_pattern" (chain [
      oneInto "key" (propertyName r), one (mark ":"),
      oneInto "value" (withDefault "assignment_pattern" r r.target)]),
    withDefault "object_assignment_pattern" r (name "shorthand_property_identifier_pattern")]

/-- A list of targets. -/
def arrayTarget (r : Rules) : Parse Piece :=
  node "array_pattern" (listing "[" "]"
    (one (either (restTarget r) (withDefault "assignment_pattern" r r.target))))

/-- Targets by name. -/
def objectTarget (r : Rules) : Parse Piece :=
  node "object_pattern" (listing "\x7b" "\x7d" (one (objectTargetMember r)))

/-- A target of a binding. -/
def bindingTarget (r : Rules) : Parse Piece :=
  firstOf [arrayTarget r, objectTarget r, name "identifier"]

/-! ### Expressions as targets -/

mutual

/-- The target that an expression stands for. -/
def asTarget : Piece → Piece
  | .mk k f n s e row cs =>
    if k == "array" then .mk "array_pattern" f n s e row (asTargets cs)
    else if k == "object" then .mk "object_pattern" f n s e row (asTargets cs)
    else if k == "pair" then .mk "pair_pattern" f n s e row (asPairTarget cs)
    else if k == "spread_element" then .mk "rest_pattern" f n s e row (asTargets cs)
    else if k == "assignment_expression" then .mk "assignment_pattern" f n s e row cs
    else if k == "shorthand_property_identifier" then
      .mk "shorthand_property_identifier_pattern" f n s e row cs
    else .mk k f n s e row cs

/-- The targets that expressions stand for. -/
def asTargets : List Piece → List Piece
  | [] => []
  | p :: ps => asTarget p :: asTargets ps

/-- The parts of a named target: the key stays, the value becomes a target. -/
def asPairTarget : List Piece → List Piece
  | [] => []
  | p :: ps => p :: asTargets ps

end

/-! ### Parameters -/

/-- A decorator: a name with members, which may be called. -/
def decorator (r : Rules) : Parse Piece :=
  node "decorator" (chain [one (mark "@"), one (do
    let first ← either (parenthesized r) (name "identifier")
    let rec go : Nat → Piece → Parse Piece
      | 0, p => return p
      | n + 1, p => do
        let more ← opt (after (chain [one (mark "."), oneInto "property" (anyName "property_identifier")]))
        if !more.isEmpty then go n (.around "member_expression" (p.into "object") more)
        else
          let call ← opt (after (chain [opt (oneInto "type_arguments" (typeArguments r)),
            oneInto "arguments" (arguments r)]))
          if call.isEmpty then return p
          else go n (.around "call_expression" (p.into "function") call)
    go (← left) first)])

/-- A parameter of a typed function, decorated or not. -/
def decoratedParameter (r : Rules) : Parse Piece := do
  let s ← get
  let decorators ← many (one (decorator r))
  let p ← if decorators.isEmpty then typedParameter r else next (typedParameter r)
  if decorators.isEmpty then return p
  else return .mk p.kind none true s.offset p.stop s.row (decorators ++ p.children)

/-- A parameter of a function. -/
def parameter (d : Dialect) (r : Rules) : Parse Piece :=
  if hasTypes d then
    either
      (node "required_parameter" (chain [
        many (one (decorator r)),
        oneInto "pattern" (restTarget r), opt (oneInto "type" (typeMark r)),
        opt (chain [one (mark "="), oneInto "value" (r.expression {})])]))
      (decoratedParameter r)
  else either (restTarget r) (withDefault "assignment_pattern" r r.target)

/-- The parameters of a function between parentheses. -/
def parameters (d : Dialect) (r : Rules) : Parse Piece :=
  node "formal_parameters" (listing "(" ")" (one (parameter d r)))

/-- Type parameters, parameters and result type of a function. -/
def signature (d : Dialect) (r : Rules) : Parse (List Piece) :=
  if hasTypes d then
    chain [opt (oneInto "type_parameters" (typeParameters r)),
      oneInto "parameters" (parameters d r), opt (oneInto "return_type" (resultType r))]
  else oneInto "parameters" (parameters d r)

end ScriptHealth.Script.Grammar
