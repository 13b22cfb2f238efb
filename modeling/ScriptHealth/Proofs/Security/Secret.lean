import ScriptHealth.Security.Secret
import Mathlib.Data.List.Infix
import Mathlib.Data.List.TakeWhile

/-!
# Secrets as parts of a line

A kind of secret is searched for from left to right: at every place each keyword is tried, blanks are
skipped, and the quoted text is read as far as its characters go. None of these choices can be wrong.
The sign and the quotes are not blank, so skipping all blanks never goes too far; and no kind allows
a quote in its text, so the text ends at the first quote and nowhere else. Hence a line holds a
secret exactly if some part of it has the form of one, and more text around it changes nothing.

## Main definitions

* `SecretPattern.Quoted` — a quoted text of a kind of secret
* `SecretPattern.Secret` — a secret of a kind: a keyword, a sign and a quoted text

## Main results

* `SecretPattern.quotedAt_iff`, `SecretPattern.valueAt_iff`, `SecretPattern.matchesAt_iff` — what
  stands at the start of a text
* `SecretPattern.foundIn_iff_suffix` — the search goes through all ends of a line
* `SecretPattern.foundIn_iff_exists_secret` — the search finds the secrets
-/

namespace ScriptHealth

namespace Text

/-- Blanks in front of something else are skipped. -/
theorem trimStart_append {blanks : List Char} (hblanks : ∀ c ∈ blanks, isBlank c = true) {c : Char}
    (hc : isBlank c = false) (rest : List Char) : trimStart (blanks ++ c :: rest) = c :: rest := by
  rw [trimStart, List.dropWhile_append_of_pos hblanks,
    List.dropWhile_cons_of_neg (by rw [hc]; decide)]

/-- What was skipped are blanks. -/
theorem exists_blanks_append (s : List Char) :
    ∃ blanks, (∀ c ∈ blanks, isBlank c = true) ∧ s = blanks ++ trimStart s :=
  ⟨s.takeWhile isBlank, fun _ => List.mem_takeWhile_imp, List.takeWhile_append_dropWhile.symm⟩

end Text

namespace SecretPattern

variable {p : SecretPattern} {s : List Char} {c : Char}

/-! ### The form of a secret -/

/-- A quoted text of a kind of secret: it is long enough, and the kind allows all of its characters.
The two quotes need not agree. -/
structure Quoted (p : SecretPattern) where
  opening : Char
  body : List Char
  closing : Char
  isQuote_opening : isQuote opening = true
  allows_body : ∀ c ∈ body, p.allows c = true
  least_le : p.least ≤ body.length
  isQuote_closing : isQuote closing = true

/-- How a quoted text is written. -/
def Quoted.text (q : p.Quoted) : List Char := q.opening :: (q.body ++ [q.closing])

/-- A secret of a kind: one of its keywords in any case of letters, a sign with blanks around it, and
a quoted text. -/
structure Secret (p : SecretPattern) extends Quoted p where
  keyword : List Char
  gap : List Char
  sign : Char
  gap' : List Char
  keyword_mem : keyword.map foldCase ∈ p.keywords
  isBlank_gap : ∀ c ∈ gap, Text.isBlank c = true
  isAssign_sign : isAssign sign = true
  isBlank_gap' : ∀ c ∈ gap', Text.isBlank c = true

/-- How a secret is written. -/
def Secret.text (s : p.Secret) : List Char :=
  s.keyword ++ (s.gap ++ s.sign :: (s.gap' ++ s.toQuoted.text))

/-! ### What stands at the start of a text -/

theorem isQuote_iff : isQuote c = true ↔ c = Text.quote ∨ c = Text.apostrophe := by
  simp [isQuote]

theorem isBlank_of_isQuote (h : isQuote c = true) : Text.isBlank c = false := by
  rcases isQuote_iff.mp h with rfl | rfl <;> decide

theorem isBlank_of_isAssign (h : isAssign c = true) : Text.isBlank c = false := by
  rw [isAssign, Bool.or_eq_true, beq_iff_eq, beq_iff_eq] at h
  rcases h with rfl | rfl <;> decide

/-- No kind of secret allows a quote in its text. -/
theorem allows_of_isQuote (hp : p ∈ catalog) (h : isQuote c = true) : p.allows c = false := by
  simp only [catalog, List.mem_cons, List.not_mem_nil, or_false] at hp
  rcases hp with rfl | rfl | rfl | rfl | rfl <;>
    rcases isQuote_iff.mp h with rfl | rfl <;> decide

/-- A quoted text stands at the start exactly if the characters that are allowed lead to a quote:
they end at the first quote, since none is allowed itself. -/
theorem quotedAt_iff (hp : p ∈ catalog) :
    p.quotedAt s = true ↔ ∃ q : p.Quoted, q.text <+: s := by
  cases s with
  | nil => simp [quotedAt, Quoted.text]
  | cons c r =>
    constructor
    · intro h
      simp only [quotedAt, Bool.and_eq_true, decide_eq_true_eq] at h
      obtain ⟨hopening, hlength, hclosing⟩ := h
      cases hrest : r.dropWhile p.allows with
      | nil => simp [hrest] at hclosing
      | cons d rest =>
        rw [hrest] at hclosing
        refine ⟨⟨c, r.takeWhile p.allows, d, hopening, fun _ => List.mem_takeWhile_imp, hlength,
          hclosing⟩, rest, ?_⟩
        have hsplit : r.takeWhile p.allows ++ d :: rest = r := by
          rw [← hrest, List.takeWhile_append_dropWhile]
        simp [Quoted.text, hsplit]
    · rintro ⟨q, rest, hq⟩
      obtain ⟨rfl, rfl⟩ : q.opening = c ∧ q.body ++ q.closing :: rest = r := by
        simpa [Quoted.text] using hq
      have hnot : ¬p.allows q.closing = true := by
        rw [allows_of_isQuote hp q.isQuote_closing]
        decide
      have htake : (q.body ++ q.closing :: rest).takeWhile p.allows = q.body := by
        rw [List.takeWhile_append_of_pos q.allows_body, List.takeWhile_cons_of_neg hnot,
          List.append_nil]
      have hdrop : (q.body ++ q.closing :: rest).dropWhile p.allows = q.closing :: rest := by
        rw [List.dropWhile_append_of_pos q.allows_body, List.dropWhile_cons_of_neg hnot]
      simp [quotedAt, htake, hdrop, q.isQuote_opening, q.least_le, q.isQuote_closing]

/-- A sign and a quoted text stand at the start behind blanks: the blanks that are skipped end at
the sign, and at the quote. -/
theorem valueAt_iff (hp : p ∈ catalog) : p.valueAt s = true ↔
    ∃ (gap gap' : List Char) (sign : Char) (q : p.Quoted), (∀ c ∈ gap, Text.isBlank c = true) ∧
      isAssign sign = true ∧ (∀ c ∈ gap', Text.isBlank c = true) ∧
      gap ++ sign :: (gap' ++ q.text) <+: s := by
  constructor
  · intro h
    obtain ⟨gap, hgap, hs⟩ := Text.exists_blanks_append s
    unfold valueAt at h
    split at h
    · rename_i sign r htrim
      obtain ⟨hsign, hquoted⟩ := Bool.and_eq_true_iff.mp h
      obtain ⟨q, rest, hq⟩ := (quotedAt_iff hp).mp hquoted
      obtain ⟨gap', hgap', hr⟩ := Text.exists_blanks_append r
      refine ⟨gap, gap', sign, q, hgap, hsign, hgap', rest, ?_⟩
      rw [hs, htrim, hr, ← hq]
      simp
    · cases h
  · rintro ⟨gap, gap', sign, q, hgap, hsign, hgap', rest, rfl⟩
    have htrim : Text.trimStart (gap ++ sign :: (gap' ++ q.text) ++ rest) =
        sign :: (gap' ++ (q.text ++ rest)) := by
      rw [List.append_assoc, List.cons_append, List.append_assoc,
        Text.trimStart_append hgap (isBlank_of_isAssign hsign)]
    have htrim' : Text.trimStart (gap' ++ (q.text ++ rest)) = q.text ++ rest :=
      Text.trimStart_append hgap' (isBlank_of_isQuote q.isQuote_opening) _
    have hquoted : p.quotedAt (q.text ++ rest) = true :=
      (quotedAt_iff hp).mpr ⟨q, List.prefix_append _ _⟩
    unfold valueAt
    rw [htrim]
    simp [hsign, htrim', hquoted]

/-- A secret stands at the start exactly if some keyword and its value do. -/
theorem matchesAt_iff (hp : p ∈ catalog) :
    p.matchesAt s = true ↔ ∃ secret : p.Secret, secret.text <+: s := by
  rw [matchesAt, List.any_eq_true]
  constructor
  · rintro ⟨k, hk, h⟩
    obtain ⟨hkeyword, hvalue⟩ := Bool.and_eq_true_iff.mp h
    rw [beq_iff_eq] at hkeyword
    obtain ⟨gap, gap', sign, q, hgap, hsign, hgap', rest, hrest⟩ := (valueAt_iff hp).mp hvalue
    have hmem : (s.take k.length).map foldCase ∈ p.keywords := by
      rw [hkeyword]
      exact hk
    refine ⟨⟨q, s.take k.length, gap, sign, gap', hmem, hgap, hsign, hgap'⟩, rest, ?_⟩
    rw [Secret.text, List.append_assoc, hrest, List.take_append_drop]
  · rintro ⟨secret, rest, rfl⟩
    refine ⟨secret.keyword.map foldCase, secret.keyword_mem, ?_⟩
    have hvalue : p.valueAt
        (secret.gap ++ secret.sign :: (secret.gap' ++ secret.toQuoted.text) ++ rest) = true :=
      (valueAt_iff hp).mpr ⟨secret.gap, secret.gap', secret.sign, secret.toQuoted,
        secret.isBlank_gap, secret.isAssign_sign, secret.isBlank_gap', List.prefix_append _ _⟩
    rw [Secret.text, List.append_assoc, List.length_map, List.take_left', List.drop_left', hvalue]
    · simp
    · rfl
    · rfl

/-! ### The search -/

/-- The search goes through all ends of a line. -/
theorem foundIn_iff_suffix {line : List Char} :
    p.foundIn line = true ↔ ∃ s, p.matchesAt s = true ∧ s <:+ line := by
  induction line with
  | nil => simp [foundIn]
  | cons c r ih =>
    rw [foundIn, Bool.or_eq_true, ih]
    constructor
    · rintro (h | ⟨s, h, hs⟩)
      · exact ⟨c :: r, h, List.suffix_rfl⟩
      · exact ⟨s, h, hs.trans (List.suffix_cons c r)⟩
    · rintro ⟨s, h, hs⟩
      rcases List.suffix_cons_iff.mp hs with rfl | hs
      · exact Or.inl h
      · exact Or.inr ⟨s, h, hs⟩

/-- **Secrets as parts of a line.** Each kind of secret is found in a line exactly if some part of
the line has its form. So what was found is found again with any text before and behind it. -/
theorem foundIn_iff_exists_secret (hp : p ∈ catalog) (line : List Char) :
    (p.foundIn line = true ↔ ∃ secret : p.Secret, secret.text <:+: line) ∧
      ∀ before after, p.foundIn line = true → p.foundIn (before ++ line ++ after) = true := by
  have hfound (line : List Char) :
      p.foundIn line = true ↔ ∃ secret : p.Secret, secret.text <:+: line := by
    rw [foundIn_iff_suffix]
    constructor
    · rintro ⟨s, h, hs⟩
      obtain ⟨secret, hsecret⟩ := (matchesAt_iff hp).mp h
      exact ⟨secret, hsecret.isInfix.trans hs.isInfix⟩
    · rintro ⟨secret, hsecret⟩
      obtain ⟨s, hs, hline⟩ := List.infix_iff_prefix_suffix.mp hsecret
      exact ⟨s, (matchesAt_iff hp).mpr ⟨secret, hs⟩, hline⟩
  refine ⟨hfound line, fun before after h => ?_⟩
  obtain ⟨secret, hsecret⟩ := (hfound line).mp h
  exact (hfound _).mpr ⟨secret, hsecret.trans (List.infix_append before line after)⟩

/-- A key behind a keyword with the Kelvin sign in it, in quotes that do not agree. -/
def kelvinKey : List Char :=
  "var api-\u212AEY\t: \x220123456789_abcdef\x27;".toList

/-- The key has the form of a secret, wherever it stands in a line. -/
theorem foundIn_iff_exists_secret_kelvinKey :
    ∃ p ∈ catalog, p.name = "Hardcoded API Key" ∧
      (∃ secret : p.Secret, secret.text <:+: kelvinKey) ∧
      p.foundIn ("if (".toList ++ kelvinKey ++ " // \x27".toList) = true := by
  have hp : catalog.head (by decide) ∈ catalog := List.head_mem _
  have hfound : (catalog.head (by decide)).foundIn kelvinKey = true := by decide
  have hsecrets := foundIn_iff_exists_secret hp kelvinKey
  exact ⟨_, hp, rfl, hsecrets.1.mp hfound, hsecrets.2 _ _ hfound⟩

end SecretPattern

end ScriptHealth
