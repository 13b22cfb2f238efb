import ScriptHealth.Data.OrderedMap
import ScriptHealth.Number.Numeral
import ScriptHealth.Number.Shortest
import ScriptHealth.Text.Quoted
import ScriptHealth.Value.Moment

/-!
# Data of manifests, configurations and reports

`Value` is what a data file can hold. It has a plain text, in which a top-level string stands for
itself, and a literal form, in which strings are quoted.

## Main definitions

* `Value` and its `kindName`, `isTruthy`
* `Value.literal` and `Value.text`
* `Value.isWritable` says whether a value can be written out at all
* `Value.same`, equality in which a value that is not a number differs from itself
-/

namespace ScriptHealth

open Number

/-- A value of a data file. -/
inductive Value where
  | null
  | bool (b : Bool)
  | int (n : Int)
  | real (x : Binary64)
  | str (s : String)
  | list (items : List Value)
  | map (entries : List (String × Value))
  | moment (m : Moment)
  deriving Inhabited

namespace Value

/-- The name of the kind of a value, as messages give it. -/
def kindName : Value → String
  | .null => "NoneType"
  | .bool _ => "bool"
  | .int _ => "int"
  | .real _ => "float"
  | .str _ => "str"
  | .list _ => "list"
  | .map _ => "dict"
  | .moment m => m.kindName

/-- Whether a value counts as true: it is neither null, false, zero nor empty. -/
def isTruthy : Value → Bool
  | .null => false
  | .bool b => b
  | .int n => n != 0
  | .real x => !x.isZero
  | .str s => !s.isEmpty
  | .list items => !items.isEmpty
  | .map entries => !entries.isEmpty
  | .moment _ => true

/-- The entry of a map; other values have none. -/
def get? (key : String) : Value → Option Value
  | .map entries => OrderedMap.get? key entries
  | _ => none

/-- The entry of a map, or null. -/
def field (key : String) (v : Value) : Value := (v.get? key).getD .null

/-- The quoted form of a text. -/
def quotedText (s : String) : String := String.ofList (Text.quoted s.toList)

mutual

/-- The literal form: strings are quoted, lists stand in brackets and maps in braces. -/
def literal : Value → String
  | .null => "None"
  | .bool b => if b then "True" else "False"
  | .int n => toString n
  | .real x => String.ofList x.text
  | .str s => quotedText s
  | .list items => "[" ++ ", ".intercalate (literalItems items) ++ "]"
  | .map entries => "\x7b" ++ ", ".intercalate (literalEntries entries) ++ "\x7d"
  | .moment m => m.literal

/-- The literal forms of the items of a list. -/
def literalItems : List Value → List String
  | [] => []
  | v :: vs => literal v :: literalItems vs

/-- The literal forms of the entries of a map. -/
def literalEntries : List (String × Value) → List String
  | [] => []
  | (k, v) :: es => (quotedText k ++ ": " ++ literal v) :: literalEntries es

end

/-- The plain text: a string or a moment stands for itself, all else is literal. -/
def text : Value → String
  | .str s => s
  | .moment m => m.text
  | v => v.literal

mutual

/-- Whether every integer in a value has few enough digits to be written out. -/
def isWritable : Value → Bool
  | .int n => (Nat.toDigits 10 n.natAbs).length ≤ digitLimit
  | .list items => areWritable items
  | .map entries => entriesWritable entries
  | _ => true

/-- The same for the items of a list. -/
def areWritable : List Value → Bool
  | [] => true
  | v :: vs => isWritable v && areWritable vs

/-- The same for the entries of a map. -/
def entriesWritable : List (String × Value) → Bool
  | [] => true
  | (_, v) :: es => isWritable v && entriesWritable es

end

mutual

/-- Equality of values of equal kinds; a value that is not a number equals nothing, and maps are
compared in the order of their keys. -/
def same : Value → Value → Bool
  | .null, .null => true
  | .bool a, .bool b => a == b
  | .int a, .int b => a == b
  | .real x, .real y => x.cmp y == some .eq
  | .str a, .str b => a == b
  | .list xs, .list ys => sameItems xs ys
  | .map xs, .map ys => sameEntries xs ys
  | .moment a, .moment b => a == b
  | _, _ => false

/-- Equality item by item. -/
def sameItems : List Value → List Value → Bool
  | [], [] => true
  | x :: xs, y :: ys => same x y && sameItems xs ys
  | _, _ => false

/-- Equality entry by entry. -/
def sameEntries : List (String × Value) → List (String × Value) → Bool
  | [], [] => true
  | (k, x) :: xs, (l, y) :: ys => k == l && same x y && sameEntries xs ys
  | _, _ => false

end

end Value

end ScriptHealth
