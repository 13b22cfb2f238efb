import ScriptHealth.Script.Token
import ScriptHealth.Source.Language

/-!
# The rules that refer to each other

Expressions, statements, patterns, types and markup refer to each other. Each group is written over
a record of the rules, and the record is closed by taking it a bounded number of times; the bound
limits how deeply constructs may be nested.
-/

namespace ScriptHealth.Script

open Parse

/-- Where an expression stands. -/
structure Spot where
  /-- The operator `in` ends the expression, as in the head of a loop. -/
  noIn : Bool := false
  /-- A colon ends the expression, so that it cannot announce the result type of a function. -/
  noResultType : Bool := false

/-- The rules that refer to each other. -/
structure Rules where
  /-- Expressions divided by commas. -/
  expressions : Spot → Parse Piece
  /-- One expression. -/
  expression : Spot → Parse Piece
  /-- An expression without binary operators. -/
  unary : Spot → Parse Piece
  /-- A statement. -/
  statement : Parse Piece
  /-- A target of a binding. -/
  target : Parse Piece
  /-- A type. -/
  typed : Parse Piece
  /-- A markup element. -/
  element : Parse Piece

namespace Rules

/-- The rules that accept nothing. -/
def none : Rules where
  expressions _ := fail
  expression _ := fail
  unary _ := fail
  statement := fail
  target := fail
  typed := fail
  element := fail

end Rules

namespace Grammar

open Token

/-- Whether a dialect has type annotations. -/
def hasTypes (d : Dialect) : Bool := d != .javascript

/-- Whether a dialect has markup elements. -/
def hasMarkup (d : Dialect) : Bool := d != .typescript

/-- A comma. -/
def comma : Parse (List Piece) := one (mark ",")

/-- Items and commas between two marks. -/
def listing (opening closing : String) (item : Parse (List Piece)) : Parse (List Piece) :=
  chain [one (mark opening), many (either comma item), one (mark closing)]

/-- The end of a statement: a semicolon, or nothing. -/
def semicolon : Parse (List Piece) := opt (one (mark ";"))

/-- Expressions between parentheses. -/
def parenthesized (r : Rules) : Parse Piece :=
  node "parenthesized_expression"
    (chain [one (mark "("), one (r.expressions {}), one (mark ")")])

/-- Three dots and an expression. -/
def spread (r : Rules) : Parse Piece :=
  node "spread_element" (chain [one (mark "..."), one (r.expression {})])

/-- A block of statements; what cannot be read is passed over token by token. -/
def skipped : Parse Piece := do
  let s ← look
  match s with
  | [] => fail
  | c :: _ =>
    ensure (c != '\x7d')
    let n := nameLength s
    let text ← either string (leaf "ERROR" true (skip (if n == 0 then 1 else n)))
    return text.renamed "ERROR"

/-- A comment in the marks of a hypertext document, where a statement could start. -/
def markupComment : Parse Piece :=
  leaf "html_comment" true (do
    let s ← look
    ensure ("<!--".toList.isPrefixOf s || "-->".toList.isPrefixOf s)
    skip (s.takeWhile fun c => !endsLine c).length)

/-- A statement, or a token that belongs to none. -/
def statementOrSkipped (r : Rules) : Parse (List Piece) :=
  one (firstOf [markupComment, r.statement, skipped])

/-- A block of statements. -/
def block (r : Rules) : Parse Piece :=
  node "statement_block"
    (chain [one (mark "\x7b"), many (statementOrSkipped r), one (mark "\x7d")])

end Grammar

end ScriptHealth.Script
