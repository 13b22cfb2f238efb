import ScriptHealth.Source.Path

/-!
# Resolving imports

A specifier that starts with a dot or a slash names a file of the project. It is joined to the
directory of the importing file, or to the project root for a leading slash, and the result is
looked up with the usual extensions and index files; the first path that exists wins.

## Main definitions

* `Specifier.isRelative` tells project files from packages
* `Specifier.candidates` lists the paths that are looked up, in order
* `Specifier.resolve?` is the first candidate that is a project file
-/

namespace ScriptHealth.Specifier

/-- Whether a specifier names a file of the project. -/
def isRelative (s : String) : Bool :=
  match s.toList with
  | c :: _ => c == '.' || c == '/'
  | [] => false

/-- What is appended to the joined path, in order. -/
def endings : List (List Char) :=
  ["".toList, ".ts".toList, ".tsx".toList, ".js".toList, ".jsx".toList, "/index.ts".toList,
   "/index.tsx".toList, "/index.js".toList, "/index.jsx".toList]

/-- The normal form of a path that may hold backslashes. -/
def normal (p : List Char) : List Char := Path.normalize (Path.slashes p)

/-- The joined path that the endings are appended to. -/
def base (specifier dir : List Char) : List Char :=
  let s := Path.slashes specifier
  if s.head? = some '/' then
    let inner := s.dropWhile (· == '/')
    normal (if inner = [] then Path.here else inner)
  else normal (Path.join (if dir = [] then Path.here else dir) s)

/-- The typed spelling of a path that ends as a compiled script. -/
def typedSpelling? (p : List Char) : Option (List Char) :=
  if ".js".toList.isSuffixOf p then some (p.take (p.length - 3) ++ ".ts".toList) else none

/-- A candidate, followed by its typed spelling if it has one. -/
def withTypedSpelling (p : List Char) : List (List Char) := p :: (typedSpelling? p).toList

/-- The paths that are looked up for a specifier, in order, as characters. -/
def probes (specifier dir : List Char) : List (List Char) :=
  let b := base specifier dir
  endings.flatMap fun e => withTypedSpelling (normal (b ++ e))

/-- The paths that are looked up for a specifier from a directory, in order. -/
def candidates (specifier dir : String) : List String :=
  (probes specifier.toList dir.toList).map String.ofList

/-- The directory of an importing file. -/
def importerDir (importer : String) : String :=
  String.ofList (Path.parent (Path.slashes importer.toList))

/-- The first candidate that is a project file. -/
def resolve? (specifier importer : String) (isFile : String → Bool) : Option String :=
  (candidates specifier (importerDir importer)).find? isFile

end ScriptHealth.Specifier
