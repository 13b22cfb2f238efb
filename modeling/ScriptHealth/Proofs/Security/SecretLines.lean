import ScriptHealth.Proofs.Report.Security
import ScriptHealth.Proofs.Source.LineCount

/-!
# Secrets line by line

The search for secrets looks at every line by itself and numbers the lines as it goes. So the
secrets of two texts, one below the other, are those of the first and then those of the second with
higher numbers; every number belongs to a line of the text, and no line has two findings. Two
slashes in front of a line make it a comment and leave all other lines and their numbers alone.

## Main definitions

* `Finding.lowered` — a finding below more lines
* `Text.commentOut` — a text with two slashes in front of one line

## Main results

* `secretsBelow_append`, `secretsBelow_eq_map` — the search falls apart between lines
* `exists_line_of_mem_secretsBelow` — findings have the numbers of lines
* `secretsBelow_modify` — a line that is commented out loses its finding
* `secrets_found_line_by_line` — the secrets of joined and of changed texts
-/

namespace ScriptHealth

/-- A finding when more lines are put above its text. -/
def Finding.lowered (n : Nat) (f : Finding) : Finding := { f with line := f.line.map (· + n) }

namespace Text

/-- Two slashes in front of a line. -/
def withSlashes (line : List Char) : List Char := ['/', '/'] ++ line

/-- A text with two slashes in front of its line `k`, counted from zero. -/
def commentOut (k : Nat) (text : String) : String :=
  String.ofList (joinWith ['\n'] ((lines text.toList).modify k withSlashes))

/-- Slashes break no line, so all other lines stay as they are. -/
theorem lines_commentOut (k : Nat) (text : String) :
    lines (commentOut k text).toList = (lines text.toList).modify k withSlashes := by
  have hpieces : ∀ line ∈ lines text.toList, '\n' ∉ line := fun _ h => sep_notMem_of_mem_splitAt h
  rw [commentOut, String.toList_ofList]
  apply splitAt_joinWith
  · rw [Ne, ← List.length_eq_zero_iff, List.length_modify, List.length_eq_zero_iff]
    exact splitAt_ne_nil '\n' text.toList
  · intro piece hpiece
    obtain ⟨i, hi⟩ := List.mem_iff_getElem?.mp hpiece
    rw [List.getElem?_modify] at hi
    obtain ⟨line, hline, rfl⟩ := Option.map_eq_some_iff.mp hi
    have hmem := hpieces line (List.mem_of_getElem? hline)
    split
    · simpa [withSlashes] using hmem
    · exact hmem

end Text

/-! ### The search -/

/-- The secrets of lines that stand below `n` others. -/
def secretsBelow (path : String) (n : Nat) (lines : List (List Char)) : List Finding :=
  (lines.zipIdx n).filterMap fun (line, index) =>
    (secretIn? line).map (secretFinding path (index + 1))

variable (path : String) (n : Nat)

theorem scanSecrets_eq_secretsBelow (text : String) :
    scanSecrets text path = secretsBelow path 0 (Text.lines text.toList) := rfl

theorem secretsBelow_cons (line : List Char) (lines : List (List Char)) :
    secretsBelow path n (line :: lines) =
      ((secretIn? line).map (secretFinding path (n + 1))).toList ++
        secretsBelow path (n + 1) lines := by
  unfold secretsBelow
  rw [List.zipIdx_cons, List.filterMap_cons]
  cases h : secretIn? line <;> simp [h]

/-- The search goes on behind the last line with the next number. -/
theorem secretsBelow_append (lines lines' : List (List Char)) :
    secretsBelow path n (lines ++ lines') =
      secretsBelow path n lines ++ secretsBelow path (n + lines.length) lines' := by
  unfold secretsBelow
  rw [List.zipIdx_append, List.filterMap_append]

/-- Lines above a text change nothing but the numbers of its findings. -/
theorem secretsBelow_eq_map (lines : List (List Char)) :
    secretsBelow path n lines = (secretsBelow path 0 lines).map (Finding.lowered n) := by
  unfold secretsBelow
  rw [List.zipIdx_eq_map_add, List.filterMap_map, List.map_filterMap]
  congr 1
  funext ⟨line, index⟩
  have hnumber : n + index + 1 = index + 1 + n := by omega
  cases h : secretIn? line <;> simp [h, Finding.lowered, secretFinding, hnumber]

variable {path n}

/-- Every finding has the number of one of the lines. -/
theorem exists_line_of_mem_secretsBelow {lines : List (List Char)} {f : Finding}
    (h : f ∈ secretsBelow path n lines) :
    ∃ i, f.line = some i ∧ n < i ∧ i ≤ n + lines.length := by
  obtain ⟨⟨line, index⟩, hmem, hf⟩ := List.mem_filterMap.mp h
  obtain ⟨p, -, rfl⟩ := Option.map_eq_some_iff.mp hf
  have hlower := List.le_snd_of_mem_zipIdx hmem
  have hupper := List.snd_lt_of_mem_zipIdx hmem
  dsimp only at hlower hupper
  exact ⟨index + 1, rfl, by omega, by omega⟩

/-- No finding has the number of a line that stands elsewhere. -/
theorem filter_line_secretsBelow {lines : List (List Char)} {m : Nat}
    (hm : m ≤ n ∨ n + lines.length < m) :
    (secretsBelow path n lines).filter (·.line != some m) = secretsBelow path n lines := by
  rw [List.filter_eq_self]
  intro f hf
  obtain ⟨i, hi, hlower, hupper⟩ := exists_line_of_mem_secretsBelow hf
  have hne : i ≠ m := by omega
  simpa [hi] using hne

/-! ### Lines that are commented out -/

theorem isCommentLine_withSlashes (line : List Char) :
    isCommentLine (Text.withSlashes line) = true := by
  have hslashes : Text.IsSolid ['/', '/'] := by decide
  obtain ⟨rest, hrest⟩ := Text.prefix_trim hslashes line
  rw [isCommentLine, Text.withSlashes, ← hrest]
  rfl

/-- A line that is commented out loses its finding, and no other finding changes. -/
theorem secretsBelow_modify (lines : List (List Char)) (k : Nat) :
    secretsBelow path 0 (lines.modify k Text.withSlashes) =
      (secretsBelow path 0 lines).filter (·.line != some (k + 1)) := by
  by_cases hk : k < lines.length
  · -- the findings are those above the line, those of the line, and those below it
    have hsplit : lines = lines.take k ++ lines[k] :: lines.drop (k + 1) := by simp
    have habove : (lines.take k).length = k := List.length_take_of_le hk.le
    have hcomment : secretIn? (Text.withSlashes lines[k]) = none := by
      rw [secretIn?, isCommentLine_withSlashes, if_pos rfl]
    rw [List.modify_eq_take_cons_drop hk]
    conv_rhs => rw [hsplit]
    simp only [secretsBelow_append, secretsBelow_cons, List.filter_append, habove, Nat.zero_add,
      hcomment]
    rw [filter_line_secretsBelow (.inr (by omega)), filter_line_secretsBelow (.inl le_rfl)]
    cases secretIn? lines[k] <;> simp [secretFinding]
  · -- a number that is no line changes nothing, and no finding has it
    have hnone : lines.modify k Text.withSlashes = lines := by
      rw [List.modify_eq_self]
      omega
    rw [hnone, filter_line_secretsBelow (.inr (by omega))]

/-- **Secrets are found line by line.** The secrets of two texts, one below the other, are those of
the first text and then those of the second, their numbers raised by the lines of the first. In
every text the findings stand on different lines, in order, and each has the number of a line. Two
slashes in front of a line remove the finding of that line and touch no other. -/
theorem secrets_found_line_by_line (path : String) :
    (∀ a b : String, scanSecrets (a ++ "\n" ++ b) path =
        scanSecrets a path ++
          (scanSecrets b path).map (Finding.lowered (Text.lines a.toList).length)) ∧
      ∀ text : String, (scanSecrets text path).Pairwise Finding.OnEarlierLine ∧
        (∀ f ∈ scanSecrets text path, ∃ i, f.line = some i ∧ 1 ≤ i ∧
          ∀ ext, i ≤ (LineCount.of text ext).total) ∧
        ∀ k, scanSecrets (Text.commentOut k text) path =
          (scanSecrets text path).filter (·.line != some (k + 1)) := by
  simp only [scanSecrets_eq_secretsBelow]
  refine ⟨?_, fun text => ⟨pairwise_scanSecrets text path, ?_, ?_⟩⟩
  · intro a b
    rw [Text.lines_joined, secretsBelow_append, secretsBelow_eq_map path (0 + _), Nat.zero_add]
  · intro f hf
    obtain ⟨i, hi, hlower, hupper⟩ := exists_line_of_mem_secretsBelow hf
    refine ⟨i, hi, hlower, fun ext => ?_⟩
    rw [LineCount.of, LineCount.total_ofLines]
    omega
  · intro k
    rw [Text.lines_commentOut, secretsBelow_modify]

/-- A line with a secret. -/
def plainSecret : String := "password = 'correct horse'"

/-- A secret in a comment, and the same secret below it. -/
def repeatedSecret : String :=
  "  // token = 'abcdefghijklmnopqrst'\nconst token = 'abcdefghijklmnopqrst'"

/-- The secrets are found on the first and on the third line, and on the third line only when the
first is commented out. -/
theorem secrets_found_line_by_line_repeatedSecret :
    let text := plainSecret ++ "\n" ++ repeatedSecret
    (scanSecrets text "a.js").map (·.line) = [some 1, some 3] ∧
      (∃ f ∈ scanSecrets text "a.js", f.line = some 3 ∧ 3 ≤ (LineCount.of text ".js").total) ∧
      (scanSecrets (Text.commentOut 0 text) "a.js").map (·.line) = [some 3] := by
  intro text
  obtain ⟨hjoined, htexts⟩ := secrets_found_line_by_line "a.js"
  obtain ⟨-, hrange, hremoved⟩ := htexts text
  have hlines : (scanSecrets text "a.js").map (·.line) = [some 1, some 3] := by
    rw [hjoined plainSecret repeatedSecret]
    decide +kernel
  refine ⟨hlines, ?_, ?_⟩
  · have hthird : some 3 ∈ (scanSecrets text "a.js").map (·.line) := by
      rw [hlines]
      decide
    obtain ⟨f, hf, hline⟩ := List.mem_map.mp hthird
    obtain ⟨i, hi, -, hupper⟩ := hrange f hf
    obtain rfl : i = 3 := Option.some_inj.mp (hi.symm.trans hline)
    exact ⟨f, hf, hline, hupper ".js"⟩
  · have hfilter := congrArg (List.filter (· != some 1)) hlines
    rw [List.filter_map] at hfilter
    rw [hremoved 0]
    exact hfilter

end ScriptHealth
