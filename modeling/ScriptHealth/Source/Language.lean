import ScriptHealth.Source.Path

/-!
# Languages of script files

The extension of a file decides whether it is a script and which dialect it is written in.
-/

namespace ScriptHealth

/-- The dialects of scripts. Plain scripts may hold markup, typed scripts only in the last one. -/
inductive Dialect where
  | javascript
  | typescript
  | tsx
  deriving DecidableEq, Repr

namespace Dialect

/-- All dialects. -/
def all : List Dialect := [.javascript, .typescript, .tsx]

/-- The name of a dialect. -/
def name : Dialect → String
  | .javascript => "javascript"
  | .typescript => "typescript"
  | .tsx => "tsx"

/-- The dialect of a name. -/
def ofName? (s : String) : Option Dialect := all.find? (·.name == s)

/-- The dialect of an extension. -/
def ofExtension? (ext : String) : Option Dialect :=
  if ext = ".js" ∨ ext = ".jsx" then some .javascript
  else if ext = ".ts" then some .typescript
  else if ext = ".tsx" then some .tsx
  else none

/-- Whether a file with this extension is a script. -/
def isScriptExtension (ext : String) : Bool := (ofExtension? ext).isSome

end Dialect

/-- The extension of a path. -/
def extensionOf (path : String) : String := String.ofList (Path.suffix path.toList)

/-- The dialect of a file, or none when it is not a script. -/
def dialectOf? (path : String) : Option Dialect := Dialect.ofExtension? (extensionOf path)

end ScriptHealth
