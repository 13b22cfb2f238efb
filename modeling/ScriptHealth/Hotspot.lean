import ScriptHealth.Data.OrderedMap
import ScriptHealth.Graph.Basic
import ScriptHealth.Text.Blank

/-!
# Hotspots

A hotspot is a file that many commits touch. The log of changed files names each file once for
every commit that touched it.

## Main definitions

* `Hotspot.count` counts the lines of a log by file
* `Hotspot.rank` lists the files, most commits first, up to a limit
-/

namespace ScriptHealth

/-- A file and the number of commits that touched it. -/
structure Hotspot where
  file : String
  commits : Nat
  deriving DecidableEq, Repr

namespace Hotspot

/-- The file names of a log, in order; blank lines name nothing. -/
def namedFiles (log : String) : List String :=
  ((Text.lines log.toList).map Text.trim).filterMap fun line =>
    if line = [] then none else some (String.ofList line)

/-- Count one more mention of a file. -/
def tally (counts : OrderedMap Nat) (file : String) : OrderedMap Nat :=
  counts.insert file ((counts.get? file).getD 0 + 1)

/-- The number of mentions of each file, in order of first mention. -/
def count (log : String) : OrderedMap Nat := (namedFiles log).foldl tally []

/-- The files of a log, most commits first; equal numbers keep the order of first mention. The
limit cuts the list; a negative one counts from its end. -/
def rank (limit : Int) (log : String) : List Hotspot :=
  let sorted := (count log).mergeSort fun a b => b.2 ≤ a.2
  (capped limit sorted).map fun e => ⟨e.1, e.2⟩

end Hotspot

end ScriptHealth
