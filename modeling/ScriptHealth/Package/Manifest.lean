import ScriptHealth.Value.Basic

/-!
# Package manifests

A manifest declares the packages of a project, those needed at run time and those needed for
development, each with a version range.
-/

namespace ScriptHealth

/-- The declared packages of a project. -/
structure Manifest where
  name : String := ""
  dependencies : OrderedMap String := []
  devDependencies : OrderedMap String := []
  deriving DecidableEq, Repr

namespace Manifest

/-- The file that holds the manifest. -/
def fileName : String := "package.json"

/-- The file that pins the versions. -/
def lockFileName : String := "package-lock.json"

/-- All declared packages, those of run time first; the ranges for development win. -/
def all (m : Manifest) : OrderedMap String := m.dependencies.union m.devDependencies

/-- A map with the texts of its values; every other value is an empty map. -/
def textMap : Value → OrderedMap String
  | .map entries => entries.map fun e => (e.1, e.2.text)
  | _ => []

/-- The manifest in a decoded file; parts of an unexpected kind are left out. -/
def ofValue (v : Value) : Manifest :=
  match v with
  | .map _ =>
    { name := match v.field "name" with
        | .str s => s
        | _ => ""
      dependencies := textMap (v.field "dependencies")
      devDependencies := textMap (v.field "devDependencies") }
  | _ => {}

end Manifest

end ScriptHealth
