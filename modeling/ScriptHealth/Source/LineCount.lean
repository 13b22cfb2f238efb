import ScriptHealth.Text.Blank
import ScriptHealth.Text.Lines

/-!
# Counting lines

Every line of a text is blank, a comment or code. A line that opens a block comment is a comment,
and so are all lines that are not blank until one holds the end marker.

## Main definitions

* `CommentStyle.ofExtension` gives the comment markers of a kind of file
* `LineCount.of` counts the lines of a text
-/

namespace ScriptHealth

/-- The comment markers of a kind of file; an empty marker is never found. -/
structure CommentStyle where
  line : List Char
  blockStart : List Char
  blockEnd : List Char
  deriving DecidableEq, Repr

namespace CommentStyle

/-- Two slashes, and slash and star. -/
def slashStar : CommentStyle := ⟨['/', '/'], ['/', '*'], ['*', '/']⟩

/-- No comments at all. -/
def bare : CommentStyle := ⟨[], [], []⟩

/-- A number sign to the end of the line. -/
def numberSign : CommentStyle := ⟨['#'], [], []⟩

/-- The markers by extension. -/
def table : List (String × CommentStyle) :=
  [(".js", slashStar), (".jsx", slashStar), (".ts", slashStar), (".tsx", slashStar),
   (".css", ⟨[], ['/', '*'], ['*', '/']⟩), (".scss", slashStar),
   (".html", ⟨[], ['<', '!', '-', '-'], ['-', '-', '>']⟩), (".json", bare), (".md", bare),
   (".py", ⟨['#'], List.replicate 3 Text.quote, List.replicate 3 Text.quote⟩),
   (".yaml", numberSign), (".yml", numberSign)]

/-- The markers of a kind of file; an unknown extension has slashes and stars. -/
def ofExtension (ext : String) : CommentStyle :=
  ((table.find? (·.1 == ext)).map (·.2)).getD slashStar

end CommentStyle

namespace Text

/-- Whether `needle` stands somewhere in a text. -/
def holds (needle : List Char) : List Char → Bool
  | [] => needle.isEmpty
  | c :: r => needle.isPrefixOf (c :: r) || holds needle r

end Text

/-- The lines of a text by kind. -/
structure LineCount where
  total : Nat := 0
  code : Nat := 0
  comment : Nat := 0
  blank : Nat := 0
  deriving DecidableEq, Repr, Inhabited

/-- The kinds of lines. -/
inductive LineKind where
  | blank
  | comment
  | code
  deriving DecidableEq, Repr

namespace CommentStyle

/-- The kind of a trimmed line, and whether a block comment is open after it. -/
def classify (style : CommentStyle) (inBlock : Bool) (line : List Char) : LineKind × Bool :=
  if line = [] then (.blank, inBlock)
  else if inBlock then
    (.comment, !(style.blockEnd != [] && Text.holds style.blockEnd line))
  else if style.blockStart != [] && style.blockStart.isPrefixOf line then
    let rest := line.drop style.blockStart.length
    (.comment, !(style.blockEnd != [] && Text.holds style.blockEnd rest))
  else if style.line != [] && style.line.isPrefixOf line then (.comment, false)
  else (.code, false)

end CommentStyle

namespace LineCount

/-- Count one more line. -/
def add (n : LineCount) : LineKind → LineCount
  | .blank => { n with total := n.total + 1, blank := n.blank + 1 }
  | .comment => { n with total := n.total + 1, comment := n.comment + 1 }
  | .code => { n with total := n.total + 1, code := n.code + 1 }

/-- Take one line into the count. -/
def step (style : CommentStyle) (state : LineCount × Bool) (line : List Char) : LineCount × Bool :=
  let (kind, inBlock) := style.classify state.2 (Text.trim line)
  (state.1.add kind, inBlock)

/-- Count lines, given whether a block comment is open before the first. -/
def ofLines (style : CommentStyle) (inBlock : Bool) (lines : List (List Char)) :
    LineCount × Bool :=
  lines.foldl (step style) ({}, inBlock)

/-- The lines of a text by kind. -/
def of (content : String) (ext : String) : LineCount :=
  (ofLines (.ofExtension ext) false (Text.lines content.toList)).1

end LineCount

end ScriptHealth
