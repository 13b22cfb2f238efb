import ScriptHealth.Analysis.Stats
import ScriptHealth.Fault
import ScriptHealth.Number.Fixed
import ScriptHealth.Package.Manifest

/-!
# Sizes and load time

The size of what is shipped is the size of the installed packages that the manifest names, or of the
sources when nothing is installed. The load time assumes a transfer of five mebibytes a second and a
fixed time for parsing.

## Main definitions

* `formatSize` writes a number of bytes as bytes, kibibytes or mebibytes
* `loadTime` writes the time that a number of bytes takes
* `Performance.of` measures a project
-/

namespace ScriptHealth

open Number

/-- The quotient of a number of bytes; it may be too large for a fraction. -/
def bytesPer (n : Int) (unit : Nat) : Except Fault Binary64 :=
  match Binary64.ofRatio (n < 0) n.natAbs unit with
  | .infinite _ => .error (.outOfRange "integer division result too large for a float")
  | x => .ok x

/-- A number of bytes as text: bytes, kibibytes with one place or mebibytes with two. -/
def formatSize (n : Int) : Except Fault String :=
  if n < 1024 then .ok (toString n ++ "B")
  else if n < 1024 * 1024 then
    (bytesPer n 1024).map fun x => String.ofList (x.fixed 1) ++ "KB"
  else (bytesPer n (1024 * 1024)).map fun x => String.ofList (x.fixed 2) ++ "MB"

/-- Bytes that are moved in a second. -/
def transferRate : Nat := 5 * 1024 * 1024

/-- Seconds that parsing takes. -/
def parseSeconds : Binary64 := Binary64.ofDecimal false 3 (-1)

/-- The seconds that a number of bytes takes to load, as text. -/
def loadTime (n : Int) : Except Fault String :=
  (bytesPer n transferRate).map fun x => String.ofList ((x.add parseSeconds).fixed 1) ++ "s"

/-- A file that is large in lines or bytes. -/
structure LargeFile where
  path : String
  size : String
  lines : Nat

/-- A package that is known to be heavy. -/
structure HeavyPackage where
  name : String
  reason : String

namespace HeavyPackage

/-- The packages that are known to be heavy, with what to do about them. -/
def catalog : List HeavyPackage :=
  [⟨"moment",
      "moment is 300KB+ with locale data. Use dayjs (~2KB) or date-fns as lighter " ++
      "alternatives."⟩,
   ⟨"lodash",
      "lodash is ~70KB. Use lodash-es for tree-shaking or import individual functions " ++
      "(lodash/get)."⟩,
   ⟨"jquery",
      "jQuery is ~90KB. Modern browsers have native APIs (fetch, querySelector) that " ++
      "replace most jQuery use cases."⟩,
   ⟨"axios",
      "axios is ~13KB. For simple use cases, the native fetch() API may be sufficient."⟩,
   ⟨"underscore",
      "underscore is ~6KB. Most utility methods are now natively available in modern " ++
      "JavaScript."⟩,
   ⟨"bluebird",
      "bluebird is ~18KB. Native Promises are now well-supported in all modern " ++
      "environments."⟩,
   ⟨"request",
      "request is deprecated and ~500KB. Use node-fetch, got, or native fetch()."⟩,
   ⟨"async",
      "async is ~30KB. Native async/await and Promise.all() cover most use cases."⟩,
   ⟨"rxjs",
      "rxjs is ~40KB minified. If only using a few operators, consider lighter " ++
      "alternatives."⟩,
   ⟨"core-js",
      "core-js can add 100KB+. Only polyfill what you actually need, or use browserslist " ++
      "targeting."⟩,
   ⟨"@fortawesome/fontawesome-free",
      "Font Awesome is 1.5MB+ with all icons. Use icon subsets or per-icon packages."⟩,
   ⟨"animate.css",
      "animate.css is ~80KB. Consider using native CSS animations or a smaller library."⟩]

/-- The heavy package of a name. -/
def ofName? (name : String) : Option HeavyPackage := catalog.find? (·.name == name)

end HeavyPackage

/-- Sizes and load time of a project. -/
structure Performance where
  bundleSize : String := "0B"
  sourceSize : String := "0B"
  loadTime : String := "0.3s"
  dependencyCount : Nat := 0
  largeFiles : List LargeFile := []
  heavyPackages : List HeavyPackage := []

namespace Performance

open scoped Number.Plain

/-- A file with more lines is large. -/
def largeLines : Nat := 500

/-- A file with more bytes is large. -/
def largeBytes : Nat := 20 * 1024

/-- Whether a file is large. -/
def isLarge (f : ProjectFile) : Bool := largeLines < f.lines.total || largeBytes < f.size

/-- The sizes and the load time of a project whose installed packages have the given size. -/
def of (files : List ProjectFile) (manifest : Option Manifest) (installed : Nat) :
    Except Fault Performance := do
  let sourceBytes := (files.map (·.size)).sum
  let shipped := if 0 < installed then installed else sourceBytes
  let largeFiles ← (files.filter isLarge).mapM fun f => do
    return { path := f.path, size := ← formatSize f.size, lines := f.lines.total : LargeFile }
  return {
    bundleSize := ← formatSize shipped
    sourceSize := ← formatSize sourceBytes
    loadTime := ← ScriptHealth.loadTime shipped
    dependencyCount := (manifest.map (·.dependencies.length)).getD 0
    largeFiles
    heavyPackages := (manifest.map fun m => m.all.keys.filterMap HeavyPackage.ofName?).getD [] }

end Performance

end ScriptHealth
