import ScriptHealth.Value.Basic

/-!
# Writing JSON text

Every item and every entry stands on its own line, indented by two blanks for each level. All
characters beyond printable ASCII are escaped, those beyond the first plane as a pair of units.
-/

namespace ScriptHealth.Json

/-- An escaped unit. -/
def unitEscape (n : Nat) : List Char := '\\' :: 'u' :: Text.hexDigits 4 n

/-- The written form of one character of a string. -/
def escapeChar (c : Char) : List Char :=
  let n := c.toNat
  if c = Text.quote ∨ c = '\\' then ['\\', c]
  else if c = '\n' then ['\\', 'n']
  else if c = '\r' then ['\\', 'r']
  else if c = '\t' then ['\\', 't']
  else if n = 12 then ['\\', 'f']
  else if n = 8 then ['\\', 'b']
  else if 32 ≤ n ∧ n ≤ 126 then [c]
  else if n < 0x10000 then unitEscape n
  else unitEscape (0xD800 + (n - 0x10000) / 1024) ++ unitEscape (0xDC00 + (n - 0x10000) % 1024)

/-- The written form of a string. -/
def writeString (s : String) : List Char :=
  Text.quote :: (s.toList.flatMap escapeChar ++ [Text.quote])

/-- A line break and the indentation of a level. -/
def newLine (level : Nat) : List Char := '\n' :: List.replicate (2 * level) ' '

/-- The written form of a fraction; the values that are not finite have names. -/
def writeReal : Number.Binary64 → List Char
  | .nan => "NaN".toList
  | .infinite false => "Infinity".toList
  | .infinite true => "-Infinity".toList
  | x => x.text

mutual

/-- The written form of a value that starts at a level of indentation. -/
def write (level : Nat) : Value → List Char
  | .null => "null".toList
  | .bool true => "true".toList
  | .bool false => "false".toList
  | .int n => (toString n).toList
  | .real x => writeReal x
  | .str s => writeString s
  | .moment m => writeString m.text
  | .list [] => ['[', ']']
  | .list (v :: vs) =>
    '[' :: (newLine (level + 1) ++ write (level + 1) v ++ writeItems (level + 1) vs ++
      newLine level ++ [']'])
  | .map [] => ['\x7b', '\x7d']
  | .map ((k, v) :: es) =>
    '\x7b' :: (newLine (level + 1) ++ writeString k ++ ':' :: ' ' :: write (level + 1) v ++
      writeEntries (level + 1) es ++ newLine level ++ ['\x7d'])

/-- The further items of a list. -/
def writeItems (level : Nat) : List Value → List Char
  | [] => []
  | v :: vs => ',' :: (newLine level ++ write level v ++ writeItems level vs)

/-- The further entries of a map. -/
def writeEntries (level : Nat) : List (String × Value) → List Char
  | [] => []
  | (k, v) :: es =>
    ',' :: (newLine level ++ writeString k ++ ':' :: ' ' :: write level v ++ writeEntries level es)

end

/-- The JSON text of a value. -/
def render (v : Value) : String := String.ofList (write 0 v)

end ScriptHealth.Json
