import ScriptHealth.Fault
import ScriptHealth.Text.Blank
import ScriptHealth.Text.Lowercase

/-!
# Styled text

A styled text holds tags in brackets: `[red]` opens a style and `[/red]` or `[/]` closes it. A
backslash before a tag makes it plain text. What a terminal shows of a styled text is up to a
renderer, which is given to the commands. The one defined here shows what remains without the tags,
and it refuses a tag that closes a style which is not open. It compares styles by the names that
they are given, so `[b]` and `[/bold]` are different styles to it.

## Main definitions

* `Markup.Renderer` is what the commands ask for the text to show
* `Markup.parts` splits a styled text into tags and plain pieces
* `Markup.plain` is the renderer of plain text
-/

namespace ScriptHealth.Markup

/-- A renderer of styled texts: what is shown of a text, or the fault with which it is refused. -/
abbrev Renderer := String → Except Fault String

/-- A part of a styled text. -/
inductive Part where
  | piece (text : List Char)
  | tag (name : List Char)
  deriving DecidableEq, Repr

/-- The characters that the name of a tag starts with. -/
def startsTag (c : Char) : Bool := c.isLower || c == '#' || c == '/' || c == '@'

/-- The name of the tag whose opening bracket stands before `s`, and the text behind the tag. -/
def tag? (s : List Char) : Option (List Char × List Char) :=
  match s with
  | c :: r =>
    if startsTag c then
      match r.dropWhile fun c => c != '[' && c != ']' with
      | ']' :: rest => some (c :: r.takeWhile fun c => c != '[' && c != ']', rest)
      | _ => none
    else none
  | [] => none

/-- A backslash before a bracket that belongs to no tag is dropped. -/
def unescape : List Char → List Char
  | '\\' :: '[' :: r => '[' :: unescape r
  | c :: r => c :: unescape r
  | [] => []

/-- The piece that has been gathered, latest character first. -/
def gathered (found : List Char) : List Part :=
  if found = [] then [] else [.piece (unescape found.reverse)]

/-- The parts of a styled text. Two backslashes before a tag stand for one, and an odd one makes the
tag plain text. -/
def parts : Nat → List Char → List Char → List Part
  | 0, found, s => gathered (s.reverse ++ found)
  | _ + 1, found, [] => gathered found
  | n + 1, found, c :: r =>
    let slashes := ((c :: r).takeWhile (· == '\\')).length
    match (c :: r).drop slashes with
    | '[' :: t =>
      match tag? t with
      | some (name, rest) =>
        gathered found ++
          (if slashes / 2 = 0 then [] else [.piece (List.replicate (slashes / 2) '\\')]) ++
          (if slashes % 2 = 1 then [.piece ('[' :: name ++ [']'])] else [.tag name]) ++
          parts n [] rest
      | none => parts n ('[' :: List.replicate slashes '\\' ++ found) t
    | rest =>
      if slashes = 0 then parts n (c :: found) r
      else parts n (List.replicate slashes '\\' ++ found) rest

/-- The name of a style: without blanks around it, in small letters. -/
def styleName (s : List Char) : List Char := Text.lower (Text.trim s)

/-- The name of a tag without its parameters. -/
def bareTag (s : List Char) : List Char := s.takeWhile (· != '=')

/-- The characters that are never shown. -/
def isControl (c : Char) : Bool := [7, 8, 11, 12, 13].contains c.toNat

/-- The open styles after a tag. -/
def applyTag (openStyles : List (List Char)) (tag : List Char) :
    Except Fault (List (List Char)) :=
  match bareTag tag with
  | '/' :: name =>
    if Text.trim name = [] then
      match openStyles with
      | [] => .error .unbalancedMarkup
      | _ :: rest => .ok rest
    else if openStyles.contains (styleName name) then .ok (openStyles.erase (styleName name))
    else .error .unbalancedMarkup
  | name => .ok (styleName name :: openStyles)

/-- The plain text of parts, given the styles that are open, latest first. -/
def plainParts : List (List Char) → List Part → Except Fault (List Char)
  | _, [] => .ok []
  | openStyles, .piece text :: rest => do
    return text.filter (!isControl ·) ++ (← plainParts openStyles rest)
  | openStyles, .tag name :: rest => do plainParts (← applyTag openStyles name) rest

/-- The renderer of the plain text of a styled text. -/
def plain : Renderer := fun s =>
  (plainParts [] (parts (s.length + 1) [] s.toList)).map String.ofList

end ScriptHealth.Markup
