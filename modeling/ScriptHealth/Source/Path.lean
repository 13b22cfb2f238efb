import ScriptHealth.Text.Lines

/-!
# Slash-separated paths

Paths are texts whose segments are divided by slashes. A path in normal form has no empty segment,
no segment `.` and, after its leading ones, no segment `..`.

## Main definitions

* `Path.normalize` brings a path into normal form
* `Path.join`, `Path.parent` combine a directory and a path, and take the directory of a path
* `Path.plain` is a path without segments that say nothing; it keeps `..`
* `Path.suffix` is the extension of the last segment, `Path.nameSuffix` that of a file name
-/

namespace ScriptHealth.Path

open Text

/-- Write backslashes as slashes. -/
def slashes (p : List Char) : List Char := p.map fun c => if c = '\\' then '/' else c

/-- The segments between slashes. -/
def segments (p : List Char) : List (List Char) := splitAt '/' p

/-- The segment that stays in its directory. -/
def here : List Char := ['.']

/-- The segment that leaves a directory. -/
def up : List Char := ['.', '.']

/-- The slashes that the normal form of a path starts with: none, one, or exactly two. -/
def leadingSlashes : List Char → Nat
  | '/' :: '/' :: '/' :: _ => 1
  | '/' :: '/' :: _ => 2
  | '/' :: _ => 1
  | _ => 0

/-- Take one segment; the segments so far stand latest first. A segment `..` removes a named
segment, is dropped at the root, and stays where there is nothing to remove. -/
def pushSegment (rooted : Bool) (stack : List (List Char)) (segment : List Char) :
    List (List Char) :=
  if segment = [] ∨ segment = here then stack
  else if segment = up then
    match stack with
    | [] => if rooted then [] else [up]
    | top :: rest => if top = up then up :: stack else rest
  else segment :: stack

/-- The normal form of a list of segments. -/
def resolveSegments (rooted : Bool) (segs : List (List Char)) : List (List Char) :=
  (segs.foldl (pushSegment rooted) []).reverse

/-- The normal form of a path; the empty path is `.`. -/
def normalize (p : List Char) : List Char :=
  let slashCount := leadingSlashes p
  let body := joinWith ['/'] (resolveSegments (slashCount != 0) (segments p))
  let path := List.replicate slashCount '/' ++ body
  if path = [] then here else path

/-- A path seen from a directory. -/
def join (dir p : List Char) : List Char :=
  if p.head? = some '/' then p
  else if dir = [] ∨ dir.getLast? = some '/' then dir ++ p
  else dir ++ '/' :: p

/-- The part up to and with the last slash, and the part after it. -/
def splitLast (p : List Char) : List Char × List Char :=
  let name := (p.reverse.takeWhile (· != '/')).reverse
  (p.take (p.length - name.length), name)

/-- The directory of a path, without slashes at its end unless it has nothing else. -/
def parent (p : List Char) : List Char :=
  let head := (splitLast p).1
  let stripped := (head.reverse.dropWhile (· == '/')).reverse
  if stripped = [] then head else stripped

/-- The segments that name something: neither empty nor `.`. -/
def namedSegments (p : List Char) : List (List Char) :=
  (segments p).filter fun s => s != [] && s != here

/-- The last named segment, or nothing. -/
def name (p : List Char) : List Char := (namedSegments p).getLast?.getD []

/-- A path without empty segments and segments `.`; the empty path is `.`. -/
def plain (p : List Char) : List Char :=
  let path := List.replicate (leadingSlashes p) '/' ++ joinWith ['/'] (namedSegments p)
  if path = [] then here else path

/-- A path seen from a directory, without segments that say nothing. -/
def under (dir p : List Char) : List Char := plain (join dir p)

/-- The path without its last named segment. -/
def plainParent (p : List Char) : List Char :=
  let path := List.replicate (leadingSlashes p) '/' ++ joinWith ['/'] (namedSegments p).dropLast
  if path = [] then here else path

/-- The part of a name from its last dot on, and the part before it. -/
def splitDot (n : List Char) : Option (List Char × List Char) :=
  let tail := (n.reverse.takeWhile (· != '.')).reverse
  if tail.length < n.length then
    some (n.take (n.length - tail.length - 1), '.' :: tail)
  else none

/-- The extension of a path: what the last segment has from its last dot on, if something stands
before and behind that dot. -/
def suffix (p : List Char) : List Char :=
  match splitDot (name p) with
  | some (stem, ext) => if stem = [] ∨ ext = here then [] else ext
  | none => []

/-- The extension of a file name: what it has from its last dot on, if something other than a dot
stands before it. -/
def nameSuffix (n : List Char) : List Char :=
  match splitDot n with
  | some (stem, ext) => if stem.all (· == '.') then [] else ext
  | none => []

theorem slashes_ne_backslash {p : List Char} {c : Char} (h : c ∈ slashes p) : c ≠ '\\' := by
  simp only [slashes, List.mem_map] at h
  obtain ⟨a, _, rfl⟩ := h
  split
  · decide
  · assumption

end ScriptHealth.Path
