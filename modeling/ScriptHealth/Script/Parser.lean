import ScriptHealth.Fault
import ScriptHealth.Script.Grammar.Statement

/-!
# Parsing scripts

The tree of a script text in one of the dialects. Tokens that belong to no statement are kept as
nodes of their own, and reading goes on behind them. A text without a tree is refused with a reason.

## Main definitions

* `Script.parse` gives the tree of a text
* `Script.parseNamed` refuses a language that is not a known dialect
-/

namespace ScriptHealth.Script

open Parse Grammar

/-- One more level of the rules. -/
def Rules.next (d : Dialect) (r : Rules) : Rules where
  expressions := Grammar.expressions r
  expression := Grammar.expression d r
  unary := Grammar.unaryExpression d r
  statement := Grammar.statement d r
  target := Grammar.bindingTarget r
  typed := Grammar.typeExpression r
  element := Grammar.element r
    (if Grammar.hasTypes d then one (Grammar.typeArguments r) else Parse.fail)

/-- The rules for constructs that are nested no deeper than `depth`. -/
def Rules.ofDepth (d : Dialect) (depth : Nat) : Rules := Nat.repeat (Rules.next d) depth Rules.none

/-- A line at the start of a file that names its interpreter. -/
def interpreterLine : Parse (List Piece) := do
  match ← look with
  | '#' :: '!' :: r =>
    one (leaf "hash_bang_line" true (skip (2 + (r.takeWhile fun c => !endsLine c).length)))
  | _ => return []

/-- A closing brace that closes nothing. -/
def strayBrace : Parse Piece := do
  ensure ((← look).head? == some '\x7d')
  leaf "ERROR" true (skip 1)

/-- The statements of a whole text with the comments around them. -/
def programLoop (r : Rules) : Nat → List (List Piece) → Parse (List Piece)
  | 0, found => return found.reverse.flatten
  | n + 1, found => do
    let comments ← gap
    if (← look).isEmpty then return (comments :: found).reverse.flatten
    else
      let s ← firstOf [markupComment, r.statement, skipped, strayBrace]
      programLoop r n ((comments ++ [s]) :: found)

/-- The tree of a whole text. It starts behind the leading blanks and ends with the text. -/
def program (r : Rules) : Parse Piece := do
  let leading := ((← look).takeWhile isSpace).length
  skip leading
  node "program" do
    let first ← interpreterLine
    let rest ← programLoop r ((← left) + 1) []
    return first ++ rest

/-- The tree of a script text, or the reason why it has none. -/
def parse (d : Dialect) (text : String) : Except String Node :=
  let chars := text.toList
  let rules := Rules.ofDepth d (2 * chars.length + 16)
  match (program rules).run (.start chars) with
  | some (p, _) => .ok (p.toNode chars.toArray)
  | none => .error "parser returned no tree"

/-- The tree of a script text in a language that is given by name. -/
def parseNamed (text : String) (language : Option String) (path : String) : Except Fault Node :=
  let refused (reason : String) : Fault :=
    .issue (.parsing path (.str (language.getD "None")) (.str reason))
  match language.bind Dialect.ofName? with
  | some d => (parse d text).mapError refused
  | none => .error (refused "unsupported language")

end ScriptHealth.Script
