import ScriptHealth.Proofs.Text.Segments
import ScriptHealth.Proofs.Text.Trim
import ScriptHealth.Source.LineCount

/-!
# Counting the lines of joined texts

Lines are counted from the first to the last, and all that a line leaves behind for the next one is
whether a block comment is open. So the count of two texts, one below the other, is the count of the
first plus that of the second, read from where the first has left off.

If that is inside a block, then the second text goes on as a comment up to the line with the end
marker, and behind this line it is read as if it stood alone. Blank lines are blank in a block too,
so their number never depends on what came before.

## Main definitions

* `LineCount.endsInBlock` — a block comment is open at the end of a text
* `LineCount.filled` — the number of lines that are not blank

## Main results

* `LineCount.ofLines_append` — the count of lines goes on where it stopped
* `LineCount.total_ofLines`, `LineCount.blank_ofLines`, `LineCount.balance_ofLines` — what holds of
  a count wherever it starts
* `LineCount.ofLines_of_unclosed`, `LineCount.ofLines_of_closing` — counts that start in a block
* `LineCount.joined_text_counted_piecewise` — the count of two texts, one below the other
-/

namespace ScriptHealth

theorem Text.holds_iff_infix {needle s : List Char} : holds needle s = true ↔ needle <:+: s := by
  induction s with
  | nil => simp [holds]
  | cons c s ih =>
    rw [holds, Bool.or_eq_true, List.isPrefixOf_iff_prefix, ih, List.infix_cons_iff]

namespace CommentStyle

/-! ### The markers of a kind of file -/

/-- A block that can be opened can be closed, by a marker that trimming does not tear apart. -/
structure IsPaired (style : CommentStyle) : Prop where
  isSolid_blockEnd : Text.IsSolid style.blockEnd
  blockStart_eq_nil : style.blockEnd = [] → style.blockStart = []

instance (style : CommentStyle) : Decidable style.IsPaired :=
  decidable_of_iff
    (Text.IsSolid style.blockEnd ∧ (style.blockEnd = [] → style.blockStart = []))
    ⟨fun h => ⟨h.1, h.2⟩, fun h => ⟨h.1, h.2⟩⟩

theorem isPaired_of_mem_table : ∀ e ∈ table, e.2.IsPaired := by decide

theorem isPaired_ofExtension (ext : String) : (ofExtension ext).IsPaired := by
  unfold ofExtension
  cases hfind : table.find? (·.1 == ext) with
  | none => decide
  | some e => exact isPaired_of_mem_table e (List.mem_of_find?_eq_some hfind)

/-! ### One line -/

variable {style : CommentStyle} {line : List Char}

/-- A line is blank exactly if nothing is left of it, in a block or not. -/
theorem classify_eq_blank_iff (style : CommentStyle) (inBlock : Bool) (line : List Char) :
    (style.classify inBlock line).1 = .blank ↔ line = [] := by
  unfold classify
  by_cases hline : line = []
  · simp [hline]
  · rw [if_neg hline]
    refine iff_of_false ?_ hline
    split
    · simp
    · split
      · simp
      · split <;> simp

/-- Without a marker no block is opened. -/
theorem classify_of_no_start (hstart : style.blockStart = []) (line : List Char) :
    (style.classify false line).2 = false := by
  unfold classify
  by_cases hline : line = []
  · simp [hline]
  · simp only [if_neg hline, hstart]
    simp only [bne_self_eq_false, Bool.false_and, Bool.false_eq_true, if_false]
    split <;> rfl

/-- In a block, a line without the end marker is a comment unless it is blank, and the block stays
open. -/
theorem classify_of_unclosed (hstyle : style.IsPaired) (hline : ¬style.blockEnd <:+: line) :
    style.classify true (Text.trim line) =
      (if Text.trim line = [] then .blank else .comment, true) := by
  have hholds : Text.holds style.blockEnd (Text.trim line) = false := by
    rw [← Bool.not_eq_true, Text.holds_iff_infix, Text.infix_trim_iff hstyle.isSolid_blockEnd]
    exact hline
  unfold classify
  split
  · rfl
  · simp [hholds]

/-- In a block, a line with the end marker is a comment and closes the block. -/
theorem classify_of_closing (hstyle : style.IsPaired) (hend : style.blockEnd ≠ [])
    (hline : style.blockEnd <:+: line) :
    style.classify true (Text.trim line) = (.comment, false) := by
  have hinfix := (Text.infix_trim_iff hstyle.isSolid_blockEnd line).mpr hline
  -- the marker is left when the line is trimmed, so the line is not blank
  have hfilled : Text.trim line ≠ [] := by
    intro hblank
    rw [hblank, List.infix_nil] at hinfix
    exact hend hinfix
  unfold classify
  simp [hfilled, hend, Text.holds_iff_infix.mpr hinfix]

end CommentStyle

namespace LineCount

/-! ### Runs of lines -/

instance : Add LineCount where
  add m n := ⟨m.total + n.total, m.code + n.code, m.comment + n.comment, m.blank + n.blank⟩

@[simp] theorem total_add (m n : LineCount) : (m + n).total = m.total + n.total := rfl

@[simp] theorem code_add (m n : LineCount) : (m + n).code = m.code + n.code := rfl

@[simp] theorem comment_add (m n : LineCount) : (m + n).comment = m.comment + n.comment := rfl

@[simp] theorem blank_add (m n : LineCount) : (m + n).blank = m.blank + n.blank := rfl

/-- The count of one line. -/
def single (kind : LineKind) : LineCount := add {} kind

theorem add_eq (n : LineCount) (kind : LineKind) : n.add kind = n + single kind := by
  cases kind <;> rfl

theorem plus_assoc (k m n : LineCount) : k + m + n = k + (m + n) := by
  change LineCount.mk _ _ _ _ = LineCount.mk _ _ _ _
  congr 1 <;> exact Nat.add_assoc _ _ _

variable (style : CommentStyle) (inBlock : Bool)

/-- What was counted before does not change how the lines are counted. -/
theorem foldl_step (n : LineCount) (lines : List (List Char)) :
    lines.foldl (step style) (n, inBlock) =
      (n + (ofLines style inBlock lines).1, (ofLines style inBlock lines).2) := by
  induction lines generalizing n inBlock with
  | nil => rfl
  | cons line lines ih =>
    have hstep : step style (n, inBlock) line =
        (n + single (style.classify inBlock (Text.trim line)).1,
          (style.classify inBlock (Text.trim line)).2) := by
      rw [← add_eq]
      rfl
    have hfirst : ofLines style inBlock (line :: lines) =
        lines.foldl (step style) (single (style.classify inBlock (Text.trim line)).1,
          (style.classify inBlock (Text.trim line)).2) := rfl
    rw [List.foldl_cons, hstep, hfirst, ih, ih, plus_assoc]

/-- The first line is counted by itself, and it says whether a block is open before the others. -/
theorem ofLines_cons (line : List Char) (lines : List (List Char)) :
    ofLines style inBlock (line :: lines) =
      (single (style.classify inBlock (Text.trim line)).1 +
          (ofLines style (style.classify inBlock (Text.trim line)).2 lines).1,
        (ofLines style (style.classify inBlock (Text.trim line)).2 lines).2) :=
  foldl_step style _ _ lines

/-- The count goes on where it stopped. -/
theorem ofLines_append (lines lines' : List (List Char)) :
    ofLines style inBlock (lines ++ lines') =
      ((ofLines style inBlock lines).1 +
          (ofLines style (ofLines style inBlock lines).2 lines').1,
        (ofLines style (ofLines style inBlock lines).2 lines').2) := by
  rw [ofLines, List.foldl_append]
  exact foldl_step style _ _ lines'

/-- Every line is counted. -/
theorem total_ofLines (lines : List (List Char)) :
    (ofLines style inBlock lines).1.total = lines.length := by
  induction lines generalizing inBlock with
  | nil => rfl
  | cons line lines ih =>
    have hsingle (kind : LineKind) : (single kind).total = 1 := by cases kind <;> rfl
    rw [ofLines_cons, total_add, ih, hsingle, List.length_cons, Nat.add_comm]

/-- Blank lines are counted as such in a block too. -/
theorem blank_ofLines (lines : List (List Char)) :
    (ofLines style inBlock lines).1.blank = lines.countP fun line => Text.trim line = [] := by
  induction lines generalizing inBlock with
  | nil => rfl
  | cons line lines ih =>
    have hsingle (kind : LineKind) : (single kind).blank = if kind = .blank then 1 else 0 := by
      cases kind <;> rfl
    simp only [ofLines_cons, blank_add, ih, hsingle, List.countP_cons, decide_eq_true_eq,
      CommentStyle.classify_eq_blank_iff]
    exact Nat.add_comm _ _

/-- Every line is counted as one of the three kinds. -/
theorem balance_ofLines (lines : List (List Char)) :
    (ofLines style inBlock lines).1.code + (ofLines style inBlock lines).1.comment +
      (ofLines style inBlock lines).1.blank = (ofLines style inBlock lines).1.total := by
  induction lines generalizing inBlock with
  | nil => rfl
  | cons line lines ih =>
    have hsingle (kind : LineKind) :
        (single kind).code + (single kind).comment + (single kind).blank = (single kind).total := by
      cases kind <;> rfl
    have hline := hsingle (style.classify inBlock (Text.trim line)).1
    have hlines := ih (style.classify inBlock (Text.trim line)).2
    simp only [ofLines_cons, total_add, code_add, comment_add, blank_add]
    omega

/-! ### Runs that start in a block -/

/-- The number of lines that are not blank. -/
def filled (lines : List (List Char)) : Nat := lines.countP fun line => Text.trim line ≠ []

variable {style}

/-- Without a marker that opens blocks, none is open at the end. -/
theorem not_inBlock_of_no_start (hstart : style.blockStart = []) (lines : List (List Char)) :
    (ofLines style false lines).2 = false := by
  induction lines with
  | nil => rfl
  | cons line lines ih =>
    rw [ofLines_cons, CommentStyle.classify_of_no_start hstart]
    exact ih

/-- Without the end marker all lines that are not blank are comments, and the block stays open. -/
theorem ofLines_of_unclosed (hstyle : style.IsPaired) {lines : List (List Char)}
    (hlines : ∀ line ∈ lines, ¬style.blockEnd <:+: line) :
    (ofLines style true lines).1.code = 0 ∧
      (ofLines style true lines).1.comment = filled lines ∧
      (ofLines style true lines).2 = true := by
  induction lines with
  | nil => exact ⟨rfl, rfl, rfl⟩
  | cons line lines ih =>
    rw [List.forall_mem_cons] at hlines
    obtain ⟨hcode, hcomment, hopen⟩ := ih hlines.2
    rw [ofLines_cons, CommentStyle.classify_of_unclosed hstyle hlines.1]
    refine ⟨?_, ?_, hopen⟩
    · rw [code_add, hcode]
      split <;> rfl
    · rw [comment_add, hcomment, filled, filled, List.countP_cons]
      split
      · simp [single, add, *]
      · simp [single, add, *, Nat.add_comm]

/-- Up to the first line with the end marker all lines that are not blank are comments, and the
lines behind it are counted as if they stood alone. -/
theorem ofLines_of_closing (hstyle : style.IsPaired) (hend : style.blockEnd ≠ [])
    {before : List (List Char)} {closing : List Char}
    (hbefore : ∀ line ∈ before, ¬style.blockEnd <:+: line) (hclosing : style.blockEnd <:+: closing)
    (after : List (List Char)) :
    (ofLines style true (before ++ closing :: after)).1.code = (ofLines style false after).1.code ∧
      (ofLines style true (before ++ closing :: after)).1.comment =
        filled (before ++ [closing]) + (ofLines style false after).1.comment := by
  obtain ⟨hcode, hcomment, hopen⟩ := ofLines_of_unclosed hstyle hbefore
  have hclose := CommentStyle.classify_of_closing hstyle hend hclosing
  have hfilled : Text.trim closing ≠ [] := by
    intro hblank
    rw [hblank, CommentStyle.classify, if_pos rfl] at hclose
    cases hclose
  rw [ofLines_append, hopen, ofLines_cons, hclose]
  constructor
  · rw [code_add, code_add, hcode]
    simp [single, add]
  · rw [comment_add, comment_add, hcomment, filled, filled, List.countP_append]
    simp [single, add, hfilled, Nat.add_assoc]

/-! ### Joined texts -/

/-- Whether a block comment is open at the end of a text. -/
def endsInBlock (content ext : String) : Bool :=
  (ofLines (.ofExtension ext) false (Text.lines content.toList)).2

theorem blockEnd_ne_nil_of_endsInBlock {content ext : String}
    (h : endsInBlock content ext = true) : (CommentStyle.ofExtension ext).blockEnd ≠ [] := by
  intro hend
  have hstart := (CommentStyle.isPaired_ofExtension ext).blockStart_eq_nil hend
  rw [endsInBlock, not_inBlock_of_no_start hstart] at h
  cases h

/-- The second text is counted from where the first has left off. -/
theorem of_joined (a b ext : String) :
    of (a ++ "\n" ++ b) ext =
      of a ext + (ofLines (.ofExtension ext) (endsInBlock a ext) (Text.lines b.toList)).1 := by
  rw [of, Text.lines_joined, ofLines_append]
  rfl

theorem total_of (text ext : String) : (of text ext).total = text.toList.count '\n' + 1 := by
  rw [of, total_ofLines]
  exact Text.length_splitAt '\n' text.toList

/-- **Counting joined texts.** Put one text below another. The numbers of all lines and of blank
lines are the sums of those of the two texts. If no block comment is open at the end of the first
text, so are the numbers of code lines and comment lines. If one is open, then the lines of the
second text that are not blank are comments up to the first line with the end marker, that line
included, or all of them if no line has it; behind that line the lines are counted as if they stood
alone. Every text has one line more than line feeds, and each is code, a comment or blank. -/
theorem joined_text_counted_piecewise (a b ext : String) :
    (of (a ++ "\n" ++ b) ext).total = (of a ext).total + (of b ext).total ∧
      (of (a ++ "\n" ++ b) ext).blank = (of a ext).blank + (of b ext).blank ∧
      (endsInBlock a ext = false →
        (of (a ++ "\n" ++ b) ext).code = (of a ext).code + (of b ext).code ∧
          (of (a ++ "\n" ++ b) ext).comment = (of a ext).comment + (of b ext).comment) ∧
      (endsInBlock a ext = true →
        (∀ before closing after, Text.lines b.toList = before ++ closing :: after →
          (∀ line ∈ before, ¬(CommentStyle.ofExtension ext).blockEnd <:+: line) →
          (CommentStyle.ofExtension ext).blockEnd <:+: closing →
          (of (a ++ "\n" ++ b) ext).code =
              (of a ext).code + (ofLines (.ofExtension ext) false after).1.code ∧
            (of (a ++ "\n" ++ b) ext).comment =
              (of a ext).comment + filled (before ++ [closing]) +
                (ofLines (.ofExtension ext) false after).1.comment) ∧
        ((∀ line ∈ Text.lines b.toList, ¬(CommentStyle.ofExtension ext).blockEnd <:+: line) →
          (of (a ++ "\n" ++ b) ext).code = (of a ext).code ∧
            (of (a ++ "\n" ++ b) ext).comment =
              (of a ext).comment + filled (Text.lines b.toList))) ∧
      ∀ text : String,
        (of text ext).code + (of text ext).comment + (of text ext).blank = (of text ext).total ∧
          (of text ext).total = text.toList.count '\n' + 1 := by
  have hstyle := CommentStyle.isPaired_ofExtension ext
  rw [of_joined]
  refine ⟨?_, ?_, ?_, ?_, ?_⟩
  · rw [total_add, total_ofLines, of, of, total_ofLines, total_ofLines]
  · rw [blank_add, blank_ofLines, of, of, blank_ofLines, blank_ofLines]
  · intro houtside
    rw [houtside]
    exact ⟨rfl, rfl⟩
  · intro hinside
    rw [hinside]
    constructor
    · intro before closing after hlines hbefore hclosing
      obtain ⟨hcode, hcomment⟩ := ofLines_of_closing hstyle
        (blockEnd_ne_nil_of_endsInBlock hinside) hbefore hclosing after
      rw [hlines, code_add, comment_add, hcode, hcomment, Nat.add_assoc]
      exact ⟨rfl, rfl⟩
    · intro hunclosed
      obtain ⟨hcode, hcomment, -⟩ := ofLines_of_unclosed hstyle hunclosed
      rw [code_add, comment_add, hcode, hcomment]
      exact ⟨rfl, rfl⟩
  · intro text
    exact ⟨balance_ofLines _ _ _, total_of text ext⟩

/-- Code, and a text in triple quotes that is not closed. -/
def docstringStart : String := "x = 1\n\x22\x22\x22doc"

/-- The rest of the text in triple quotes, with a blank line in it, a comment and code. -/
def docstringRest : String := "\n  more\nend \x22\x22\x22 # tail\n# note\ny = 2"

/-- The block is closed on the third line of the rest; the two lines behind it stand alone. -/
theorem joined_text_counted_piecewise_docstring :
    endsInBlock docstringStart ".py" = true ∧
      Text.lines docstringRest.toList = [[], "  more".toList] ++
        "end \x22\x22\x22 # tail".toList :: ["# note".toList, "y = 2".toList] ∧
      (of (docstringStart ++ "\n" ++ docstringRest) ".py").code = 1 + 1 ∧
      (of (docstringStart ++ "\n" ++ docstringRest) ".py").comment = 1 + 2 + 1 := by
  have hinside : endsInBlock docstringStart ".py" = true := by decide
  have hlines : Text.lines docstringRest.toList = [[], "  more".toList] ++
      "end \x22\x22\x22 # tail".toList :: ["# note".toList, "y = 2".toList] := by decide
  obtain ⟨-, -, -, hcounts, -⟩ := joined_text_counted_piecewise docstringStart docstringRest ".py"
  obtain ⟨hcode, hcomment⟩ := (hcounts hinside).1 _ _ _ hlines (by decide) (by decide)
  exact ⟨hinside, hlines, hcode.trans (by decide), hcomment.trans (by decide)⟩

end LineCount

end ScriptHealth
