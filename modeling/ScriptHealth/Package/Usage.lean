import ScriptHealth.Package.Manifest
import ScriptHealth.Text.Lines

/-!
# Use of declared packages

A declared package is used when some external specifier names it or a part of it. Packages that are
only needed to build or to check types are never counted as unused. A version range that does not
float is listed as outdated.

## Main definitions

* `Package.bareName` is the package that a specifier belongs to
* `PackageUsage.classify` compares a manifest with the specifiers of a project
-/

namespace ScriptHealth

namespace Package

/-- The package that a specifier belongs to: its first segment, or the first two for a scoped
package. -/
def bareName (specifier : String) : String :=
  let parts := Text.splitAt '/' specifier.toList
  let kept := if specifier.toList.head? = some '@' then 2 else 1
  String.ofList (Text.joinWith ['/'] (parts.take kept))

/-- Packages that are expected at build time only. -/
def buildTime : List String :=
  ["typescript", "eslint", "prettier", "ts-node", "tsx", "jest", "mocha", "vitest", "webpack",
   "vite", "rollup", "esbuild", "turbo"]

/-- The scope of type declarations. -/
def typesScope : String := "@types/"

/-- Whether a package is expected at build time only. -/
def isBuildTime (name : String) : Bool :=
  buildTime.contains name || typesScope.toList.isPrefixOf name.toList

/-- Whether a version range is pinned: it is not empty and does not start with a caret, a tilde or
a star. -/
def isPinned (range : String) : Bool :=
  match range.toList with
  | [] => false
  | c :: _ => c != '^' && c != '~' && c != '*'

/-- Tools that are suggested when they are not declared, with the suggestion. -/
def suggestedTools : List (String × String) :=
  [("typescript", "typescript - Add type safety to your project"),
   ("eslint", "eslint - Add code quality linting"),
   ("prettier", "prettier - Add consistent code formatting")]

end Package

/-- A package whose range is pinned. -/
structure OutdatedPackage where
  name : String
  current : String
  latest : String := "check npm registry"
  deriving DecidableEq, Repr

/-- The declared packages by use. -/
structure PackageUsage where
  dependencies : OrderedMap String := []
  devDependencies : OrderedMap String := []
  used : List String := []
  unused : List String := []
  outdated : List OutdatedPackage := []
  suggestions : List String := []
  deriving DecidableEq, Repr

namespace PackageUsage

/-- Add a declared name that was not found before. -/
def note (declared found : List String) (name : String) : List String :=
  if declared.contains name && !found.contains name then name :: found else found

/-- The declared names that some specifier belongs to. The search ends as soon as all declared
names are found. -/
def search (declared : List String) : List String → List String → List String
  | found, [] => found
  | found, s :: rest =>
    let found' := note declared found (Package.bareName s)
    if found'.length != found.length && found'.length == declared.length then found'
    else search declared found' rest

/-- Compare a manifest with the external specifiers of a project. -/
def classify (manifest : Option Manifest) (specifiers : List String) : PackageUsage :=
  match manifest with
  | none => {}
  | some m =>
    let declared := m.all
    let names := declared.keys
    let found := search names [] specifiers
    { dependencies := m.dependencies
      devDependencies := m.devDependencies
      used := names.filter found.contains
      unused := names.filter fun n => !found.contains n && !Package.isBuildTime n
      outdated := (declared.filter fun d => Package.isPinned d.2).map fun d =>
        { name := d.1, current := d.2 }
      suggestions := (Package.suggestedTools.filter fun t => !names.contains t.1).map (·.2) }

end PackageUsage

end ScriptHealth
