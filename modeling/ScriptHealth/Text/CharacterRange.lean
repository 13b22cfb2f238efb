/-!
# Ranges of code points

Properties of characters that are given by a table of the Unicode standard are lists of closed
ranges in rising order.
-/

namespace ScriptHealth.Text

/-- Whether a code point lies in one of the closed ranges. -/
def inRanges (ranges : List (Nat × Nat)) (n : Nat) : Bool :=
  ranges.any fun r => r.1 ≤ n && n ≤ r.2

end ScriptHealth.Text
