import ScriptHealth.Script.Grammar.Rules

/-!
# Markup elements

Elements with attributes and children inside a script. Text between elements runs up to the next
brace, angle bracket or character reference.
-/

namespace ScriptHealth.Script.Grammar

open Parse Token

/-- The length of a name in markup, which may hold hyphens. -/
def markupNameLength (s : List Char) : Nat :=
  let n := nameLength s
  if n == 0 then 0
  else n + ((s.drop n).takeWhile fun c => !isMark c || c == '-').length

/-- A name in markup. -/
def markupName (kind : String) : Parse Piece := do
  let n := markupNameLength (← look)
  ensure (n != 0)
  leaf kind true (skip n)

/-- A name with a namespace. -/
def namespacedName : Parse Piece :=
  node "jsx_namespace_name" (chain [
    one (markupName "identifier"), one (mark ":"), one (markupName "identifier")])

/-- The members of an element name, from the left. -/
def elementMembers : Nat → Piece → Parse Piece
  | 0, p => return p
  | n + 1, p => do
    let more ← opt (after (chain [one (mark "."), oneInto "property" (anyName "property_identifier")]))
    if more.isEmpty then return p
    else elementMembers n (.around "member_expression" (p.into "object") more)

/-- The name of an element. -/
def elementName : Parse Piece :=
  either namespacedName (do
    let first ← markupName "identifier"
    elementMembers (← left) first)

/-- The inside of an attribute string up to its quote. -/
def attributeStringLoop (quote : Char) : Nat → List Piece → Parse (List Piece)
  | 0, _ => fail
  | n + 1, found => do
    let s ← look
    match s with
    | [] => fail
    | c :: _ =>
      if c == quote then
        let close ← leaf (String.singleton quote) false (skip 1)
        return (close :: found).reverse
      else
        let f ← leaf "string_fragment" true (skip (s.takeWhile (· != quote)).length)
        attributeStringLoop quote n (f :: found)

/-- A string as the value of an attribute; it may hold line ends. -/
def attributeString : Parse Piece := do
  match ← look with
  | c :: _ =>
    ensure (c == Text.quote || c == Text.apostrophe)
    node "string" do
      let opening ← leaf (String.singleton c) false (skip 1)
      attributeStringLoop c ((← left) + 1) [opening]
  | [] => fail

/-- An expression between braces; it may be empty or spread. -/
def markupExpression (r : Rules) : Parse Piece :=
  node "jsx_expression" (chain [
    one (mark "\x7b"), opt (one (either (spread r) (r.expressions {}))), one (mark "\x7d")])

/-- An attribute. -/
def elementAttribute (r : Rules) : Parse Piece :=
  either (markupExpression r)
    (node "jsx_attribute" (chain [
      one (either namespacedName (markupName "property_identifier")),
      opt (chain [one (exactly "="),
        one (firstOf [attributeString, markupExpression r, r.element])])]))

/-- The name, the type arguments and the attributes of an element. -/
def elementHead (r : Rules) (typeArguments : Parse (List Piece)) : Parse (List Piece) :=
  chain [oneInto "name" elementName, opt typeArguments, many (oneInto "attribute" (elementAttribute r))]

/-- The length of text up to the next mark of the markup. -/
def markupTextLength (s : List Char) : Nat :=
  (s.takeWhile fun c => c != '<' && c != '\x7b' && c != '\x7d' && c != '>' && c != '&').length

/-- Whether text between elements counts: it is not just blanks with a line end. -/
def isShownText (s : List Char) : Bool :=
  s.any (fun c => !isSpace c) || (!s.isEmpty && !s.any (· == '\n'))

/-- A reference to a character by name or number. -/
def characterReference : Parse Piece := do
  let s ← look
  match s with
  | '&' :: r =>
    let n := (r.takeWhile fun c => c.isAlphanum || c == '#').length
    ensure (n != 0 && (r.drop n).head? == some ';')
    leaf "html_character_reference" true (skip (n + 2))
  | _ => fail

/-- The children of an element, up to the closing tag. -/
def childrenLoop (r : Rules) : Nat → List Piece → Parse (List Piece)
  | 0, _ => fail
  | n + 1, found => do
    let s ← look
    match s with
    | '<' :: '/' :: _ => return found.reverse
    | '<' :: _ => do
      let e ← r.element
      childrenLoop r n (e :: found)
    | '\x7b' :: _ => do
      let e ← markupExpression r
      childrenLoop r n (e :: found)
    | [] => fail
    | '&' :: _ => do
      let e ← either characterReference (leaf "jsx_text" true (skip 1))
      childrenLoop r n (e :: found)
    | _ => do
      let k := markupTextLength s
      ensure (k != 0)
      if isShownText (s.take k) then
        let e ← leaf "jsx_text" true (skip k)
        childrenLoop r n (e :: found)
      else
        skip k
        childrenLoop r n found

/-- An element with children. -/
def openElement (r : Rules) (typeArguments : Parse (List Piece)) : Parse Piece :=
  node "jsx_element" do
    let opening ← node "jsx_opening_element" (chain [
      one (exactly "<"), opt (elementHead r typeArguments), one (exactly ">")])
    let children ← childrenLoop r ((← left) + 1) []
    let closing ← node "jsx_closing_element" (chain [
      one (exactly "</"), opt (oneInto "name" elementName), one (exactly ">")])
    return opening.into "open_tag" :: children ++ [closing.into "close_tag"]

/-- An element without children. -/
def closedElement (r : Rules) (typeArguments : Parse (List Piece)) : Parse Piece :=
  node "jsx_self_closing_element" (chain [
    one (exactly "<"), elementHead r typeArguments, one (exactly "/>")])

/-- A markup element. -/
def element (r : Rules) (typeArguments : Parse (List Piece)) : Parse Piece :=
  either (closedElement r typeArguments) (openElement r typeArguments)

end ScriptHealth.Script.Grammar
