import ScriptHealth.Proofs.Data.OrderedMap
import ScriptHealth.Proofs.Json.Escape
import Mathlib.Data.List.TakeDrop

/-!
# JSON text reads back

Values whose numbers are integers are written in one form, and reading that form gives the value
back: every list in its order, every map with its keys in their order, every string and integer
unchanged.

The reader works on what remains of a text, so the main lemma is about a written value with
anything behind it that does not extend a number. Its bound on the work is the length of the text.

## Main definitions

* `Json.Integral` — the values in question
* `Json.Stops` — a rest that does not extend a number

## Main results

* `Json.readNumber_toDigits` — written integers read back
* `Json.readValue_write` — a written value reads back and leaves the rest
* `Json.parse_render` — the text of a value reads back
-/

namespace ScriptHealth

open Number

/-! ### Decimal digits -/

namespace Number

theorem digitsValue_eq_ofDigitChars (ds : List Char) : digitsValue ds = Nat.ofDigitChars 10 ds 0 := by
  rw [digitsValue, Nat.ofDigitChars_eq_foldl]
  congr 1
  funext n c
  rw [Nat.mul_comm]
  rfl

@[simp] theorem digitsValue_toDigits (n : Nat) : digitsValue (Nat.toDigits 10 n) = n := by
  rw [digitsValue_eq_ofDigitChars, Nat.ofDigitChars_ten_toDigits]

theorem isDigit_of_mem_toDigits {n : Nat} {c : Char} (h : c ∈ Nat.toDigits 10 n) :
    c.isDigit = true :=
  Nat.isDigit_of_mem_toDigits (by decide) (by decide) h

/-- The text of a positive number does not start with a zero. -/
theorem head?_toDigits_ne_zero {n : Nat} (hn : 0 < n) : (Nat.toDigits 10 n).head? ≠ some '0' := by
  induction n using Nat.strongRecOn with
  | _ n ih =>
    by_cases hsmall : n < 10
    · rw [Nat.toDigits_of_lt_base hsmall]
      interval_cases n <;> decide
    · -- the first digit is that of the tenth part
      have hdiv : 0 < n / 10 := by omega
      rw [Nat.toDigits_of_base_le (by decide) (Nat.le_of_not_lt hsmall), List.head?_append,
        List.head?_eq_some_head Nat.toDigits_ne_nil, Option.some_or,
        ← List.head?_eq_some_head Nat.toDigits_ne_nil]
      exact ih (n / 10) (by omega) hdiv

/-- The digits at the start of a text are taken as a whole. -/
theorem spanDigits_append {ds rest : List Char} (hds : ∀ c ∈ ds, c.isDigit = true)
    (hrest : ∀ c, rest.head? = some c → c.isDigit = false) :
    spanDigits (ds ++ rest) = (ds, rest) := by
  have hstop : rest.takeWhile Char.isDigit = [] ∧ rest.dropWhile Char.isDigit = rest := by
    cases rest with
    | nil => exact ⟨rfl, rfl⟩
    | cons c r =>
      have hc := hrest c rfl
      exact ⟨List.takeWhile_cons_of_neg (by simp [hc]), List.dropWhile_cons_of_neg (by simp [hc])⟩
  rw [spanDigits, List.span_eq_takeWhile_dropWhile, List.takeWhile_append_of_pos hds,
    List.dropWhile_append_of_pos hds, hstop.1, hstop.2, List.append_nil]

end Number

namespace Json

/-! ### Numbers -/

/-- A rest that does not extend a number: it starts with no digit, point or exponent. -/
def Stops (rest : List Char) : Prop :=
  ∀ c, rest.head? = some c → c.isDigit = false ∧ c ≠ '.' ∧ c ≠ 'e' ∧ c ≠ 'E'

theorem stops_nil : Stops [] := by
  intro c hc
  exact absurd hc (by simp)

theorem stops_comma (rest : List Char) : Stops (',' :: rest) := by
  rintro c ⟨⟩
  decide

theorem stops_newLine (level : Nat) (rest : List Char) : Stops (newLine level ++ rest) := by
  rintro c ⟨⟩
  decide

theorem fraction?_eq_none {rest : List Char} (h : Stops rest) : fraction? rest = none := by
  unfold fraction?
  split
  · exact absurd rfl (h '.' rfl).2.1
  · rfl

theorem exponent?_eq_none {rest : List Char} (h : Stops rest) : exponent? rest = none := by
  unfold exponent?
  split
  · rename_i c r
    have hc := h c rfl
    rw [if_neg (not_or.mpr hc.2.2)]
  · rfl

/-- Digits that do not start with a zero are taken as a whole. -/
theorem whole?_append {ds rest : List Char} (hds : ∀ c ∈ ds, c.isDigit = true) (hne : ds ≠ [])
    (hhead : ds.head? ≠ some '0') (h : Stops rest) : whole? (ds ++ rest) = some (ds, rest) := by
  unfold whole?
  split
  · -- the reader would end the number behind a leading zero, but there is none
    rename_i r hr
    cases ds with
    | nil => exact absurd rfl hne
    | cons d ds =>
      rw [List.cons_append, List.cons.injEq] at hr
      exact absurd (congrArg some hr.1) hhead
  · rw [spanDigits_append hds fun c hc => (h c hc).1]
    dsimp only
    rw [if_neg hne]

/-- The digits of a number are taken as a whole: a zero stands alone, and other numbers do not
start with one. -/
theorem whole?_toDigits (n : Nat) {rest : List Char} (h : Stops rest) :
    whole? (Nat.toDigits 10 n ++ rest) = some (Nat.toDigits 10 n, rest) := by
  rcases Nat.eq_zero_or_pos n with rfl | hn
  · rw [Nat.toDigits_zero]
    rfl
  · exact whole?_append (fun c => isDigit_of_mem_toDigits) Nat.toDigits_ne_nil
      (head?_toDigits_ne_zero hn) h

/-- The digits of a number read back as the number, with the sign that was read before. -/
theorem readNumber_toDigits (negative : Bool) {n : Nat} (hn : n < 10 ^ digitLimit)
    {rest : List Char} (h : Stops rest) :
    readNumber negative (Nat.toDigits 10 n ++ rest) =
      .ok (.int (if negative then -(n : Int) else n), rest) := by
  have hlength : ¬ digitLimit < (Nat.toDigits 10 n).length :=
    Nat.not_lt.mpr ((Nat.length_toDigits_le_iff (by decide) (by decide)).mpr hn)
  rw [readNumber, whole?_toDigits n h]
  dsimp only
  rw [fraction?_eq_none h]
  dsimp only
  rw [exponent?_eq_none h]
  dsimp only
  rw [if_neg (by decide), if_neg hlength, digitsValue_toDigits]

theorem toList_toString_ofNat (n : Nat) : (toString (n : Int)).toList = Nat.toDigits 10 n := by
  rw [Int.toString_eq_repr, Int.repr_eq_if, if_pos (Int.natCast_nonneg n), Int.toNat_natCast,
    Nat.toList_repr]

theorem toList_toString_neg {n : Nat} (hn : 0 < n) :
    (toString (-(n : Int))).toList = '-' :: Nat.toDigits 10 n := by
  rw [Int.toString_eq_repr, Int.repr_eq_if, if_neg (by omega), Int.neg_neg, Int.toNat_natCast,
    String.toList_append, Nat.toList_repr]
  rfl

/-! ### Values without fractions -/

/-- The JSON values whose numbers are integers that can be read, and whose maps have every key
once. -/
inductive Integral : Value → Prop
  | null : Integral .null
  | bool (b : Bool) : Integral (.bool b)
  | int {n : Int} (h : n.natAbs < 10 ^ digitLimit) : Integral (.int n)
  | str (s : String) : Integral (.str s)
  | list {items : List Value} (h : ∀ v ∈ items, Integral v) : Integral (.list items)
  | map {entries : OrderedMap Value} (distinct : entries.keys.Nodup)
      (h : ∀ e ∈ entries, Integral e.2) : Integral (.map entries)

theorem skipSpace_cons {c : Char} (h : isSpace c = false) (rest : List Char) :
    skipSpace (c :: rest) = c :: rest := by
  rw [skipSpace, List.dropWhile_cons_of_neg (by simp [h])]

theorem skipSpace_newLine (level : Nat) (rest : List Char) :
    skipSpace (newLine level ++ rest) = skipSpace rest := by
  apply List.dropWhile_append_of_pos
  intro c hc
  rw [newLine, List.mem_cons] at hc
  rcases hc with rfl | hc
  · rfl
  · rw [List.eq_of_mem_replicate hc]
    rfl

/-- A digit starts no other kind of value. -/
theorem ne_of_isDigit {c d : Char} (h : c.isDigit = true) (hd : d.isDigit = false) : c ≠ d := by
  rintro rfl
  rw [h] at hd
  exact absurd hd (by decide)

theorem isSpace_of_isDigit {c : Char} (h : c.isDigit = true) : isSpace c = false := by
  simp only [isSpace, Bool.or_eq_false_iff, beq_eq_false_iff_ne]
  exact ⟨⟨⟨ne_of_isDigit h rfl, ne_of_isDigit h rfl⟩, ne_of_isDigit h rfl⟩, ne_of_isDigit h rfl⟩

/-- The text of an integer is a digit text, behind a sign if the integer is negative. -/
theorem toString_int_cases (n : Int) :
    (∃ d ds, Nat.toDigits 10 n.natAbs = d :: ds ∧ d.isDigit = true ∧
      ((toString n).toList = d :: ds ∧ (n.natAbs : Int) = n ∨
        (toString n).toList = '-' :: d :: ds ∧ -(n.natAbs : Int) = n)) := by
  obtain ⟨d, ds, hds⟩ := List.exists_cons_of_ne_nil (Nat.toDigits_ne_nil (b := 10) (n := n.natAbs))
  have hd : d.isDigit = true :=
    isDigit_of_mem_toDigits (n := n.natAbs) (hds ▸ List.mem_cons_self)
  refine ⟨d, ds, hds, hd, ?_⟩
  rcases Int.natAbs_eq n with hn | hn
  · left
    refine ⟨?_, hn.symm⟩
    rw [hn, toList_toString_ofNat, hds]
  · by_cases hzero : n.natAbs = 0
    · -- zero is its own opposite, and is written without a sign
      left
      have hcast : (n.natAbs : Int) = n := by omega
      refine ⟨?_, hcast⟩
      rw [← hcast, toList_toString_ofNat, hds]
    · right
      refine ⟨?_, hn.symm⟩
      rw [hn, toList_toString_neg (Nat.pos_of_ne_zero hzero), hds]

/-- A written value starts with neither a blank nor a closing bracket. -/
theorem write_eq_cons (level : Nat) {v : Value} (hv : Integral v) :
    ∃ c t, write level v = c :: t ∧ isSpace c = false ∧ c ≠ ']' := by
  cases hv with
  | null => exact ⟨'n', _, rfl, rfl, by decide⟩
  | bool b =>
    cases b with
    | true => exact ⟨'t', _, rfl, rfl, by decide⟩
    | false => exact ⟨'f', _, rfl, rfl, by decide⟩
  | @int n h =>
    obtain ⟨d, ds, -, hd, ⟨htext, -⟩ | ⟨htext, -⟩⟩ := toString_int_cases n
    · exact ⟨d, ds, by rw [write, htext], isSpace_of_isDigit hd, ne_of_isDigit hd (by decide)⟩
    · exact ⟨'-', d :: ds, by rw [write, htext], by decide, by decide⟩
  | str s => exact ⟨Text.quote, _, rfl, by decide, by decide⟩
  | @list items h =>
    cases items with
    | nil => exact ⟨'[', _, rfl, rfl, by decide⟩
    | cons v vs => exact ⟨'[', _, rfl, rfl, by decide⟩
  | @map entries _ h =>
    cases entries with
    | nil => exact ⟨'\x7b', _, rfl, rfl, by decide⟩
    | cons e es => exact ⟨'\x7b', _, rfl, rfl, by decide⟩

/-! ### Reading what was written -/

/-- A text that starts no string, list or map is read as a name or a number. -/
theorem readValue_eq_readAtom (n : Nat) {c : Char} {t : List Char}
    (h : c ≠ '[' ∧ c ≠ '\x7b' ∧ c ≠ '\x22') : readValue (n + 1) (c :: t) = readAtom (c :: t) := by
  rw [readValue]
  · intro r heq
    exact h.1 (List.cons.inj heq).1
  · intro r heq
    exact h.2.1 (List.cons.inj heq).1
  · intro r heq
    exact h.2.2 (List.cons.inj heq).1

/-- No name starts with a digit. -/
theorem readName?_digit {d : Char} (hd : d.isDigit = true) (t : List Char) :
    readName? (d :: t) = none := by
  have hne {c : Char} (hc : c.isDigit = false) : c ≠ d := (ne_of_isDigit hd hc).symm
  simp [readName?, names, hne]

/-- No name is a sign and a digit. -/
theorem readName?_neg_digit {d : Char} (hd : d.isDigit = true) (t : List Char) :
    readName? ('-' :: d :: t) = none := by
  have hne : 'I' ≠ d := (ne_of_isDigit hd (by decide)).symm
  simp [readName?, names, hne]

/-- A written integer reads back. -/
theorem readValue_int (n : Nat) {k : Int} (hk : k.natAbs < 10 ^ digitLimit) {rest : List Char}
    (hrest : Stops rest) : readValue (n + 1) ((toString k).toList ++ rest) = .ok (.int k, rest) := by
  obtain ⟨d, ds, hds, hd, ⟨htext, hcast⟩ | ⟨htext, hcast⟩⟩ := toString_int_cases k
  · have hminus : d ≠ '-' := ne_of_isDigit hd (by decide)
    rw [htext, List.cons_append, readValue_eq_readAtom n
      ⟨ne_of_isDigit hd (by decide), ne_of_isDigit hd (by decide), ne_of_isDigit hd (by decide)⟩,
      readAtom, readName?_digit hd]
    dsimp only
    · rw [← List.cons_append, ← hds, readNumber_toDigits false hk hrest, if_neg (by decide), hcast]
    · intro r heq
      exact hminus (List.cons.inj heq).1
  · rw [htext, List.cons_append, readValue_eq_readAtom n (by decide), readAtom, List.cons_append,
      readName?_neg_digit hd]
    dsimp only
    rw [← List.cons_append, ← hds, readNumber_toDigits true hk hrest, if_pos rfl, hcast]

/-- The value reads back from its text at every level, whatever stands behind it. -/
def ReadsBack (v : Value) : Prop :=
  ∀ (level n : Nat) (rest : List Char), (write level v).length ≤ n → Stops rest →
    readValue n (write level v ++ rest) = .ok (v, rest)

/-- No value is written as the empty text, so the reader always has a step to take. -/
theorem ReadsBack.of_succ {v : Value} (hv : Integral v)
    (h : ∀ (level m : Nat) (rest : List Char), (write level v).length ≤ m + 1 → Stops rest →
      readValue (m + 1) (write level v ++ rest) = .ok (v, rest)) : ReadsBack v := by
  intro level n rest hn hrest
  obtain ⟨c, t, hwrite, -⟩ := write_eq_cons level hv
  obtain ⟨m, rfl⟩ : ∃ m, n = m + 1 := ⟨n - 1, by
    rw [hwrite, List.length_cons] at hn
    omega⟩
  exact h level m rest hn hrest

/-- Blanks before a written value are passed over, and none of its own characters. -/
theorem skipSpace_newLine_write (outer level : Nat) {v : Value} (hv : Integral v)
    (rest : List Char) :
    skipSpace (newLine outer ++ (write level v ++ rest)) = write level v ++ rest := by
  obtain ⟨c, t, hwrite, hspace, -⟩ := write_eq_cons level hv
  rw [skipSpace_newLine, hwrite, List.cons_append, skipSpace_cons hspace]

/-- What stands behind an item of a list: a comma, or the line of the closing bracket. -/
theorem stops_writeItems (level outer : Nat) (vs : List Value) (rest : List Char) :
    Stops (writeItems level vs ++ (newLine outer ++ rest)) := by
  cases vs with
  | nil => exact stops_newLine outer rest
  | cons v vs => exact stops_comma _

/-- What stands behind an entry of a map: a comma, or the line of the closing brace. -/
theorem stops_writeEntries (level outer : Nat) (es : OrderedMap Value) (rest : List Char) :
    Stops (writeEntries level es ++ (newLine outer ++ rest)) := by
  cases es with
  | nil => exact stops_newLine outer rest
  | cons e es => exact stops_comma _

/-- The reader of a list takes one written item and looks at what stands behind it. -/
theorem readItems_item {level m : Nat} {v : Value} (hv : ReadsBack v)
    (hm : (write level v).length ≤ m) {tail : List Char} (htail : Stops tail) (acc : List Value) :
    readItems (m + 1) (write level v ++ tail) acc =
      match skipSpace tail with
      | ']' :: r => .ok (.list (v :: acc).reverse, r)
      | ',' :: r => readItems m (skipSpace r) (v :: acc)
      | _ => .error .malformed := by
  rewrite [readItems, hv level m tail hm htail]
  rfl

/-- The reader of a map takes one written entry and looks at what stands behind it. -/
theorem readEntries_entry {level m : Nat} (k : String) {v : Value} (hint : Integral v)
    (hv : ReadsBack v) (hm : (write level v).length ≤ m) {tail : List Char} (htail : Stops tail)
    (acc : OrderedMap Value) :
    readEntries (m + 1) (writeString k ++ ':' :: ' ' :: (write level v ++ tail)) acc =
      match skipSpace tail with
      | '\x7d' :: r => .ok (.map (OrderedMap.ofPairs ((k, v) :: acc).reverse), r)
      | ',' :: r => readEntries m (skipSpace r) ((k, v) :: acc)
      | _ => .error .malformed := by
  obtain ⟨body, hbody, hkey⟩ :=
    readString_writeString k (':' :: ' ' :: (write level v ++ tail))
  obtain ⟨c, t, hwrite, hspace, -⟩ := write_eq_cons level hint
  have hblank : skipSpace (' ' :: (write level v ++ tail)) = write level v ++ tail := by
    rw [skipSpace, List.dropWhile_cons_of_pos (by decide), ← skipSpace, hwrite, List.cons_append,
      skipSpace_cons hspace]
  rw [hbody, readEntries, hkey]
  simp only [skipSpace_cons (show isSpace ':' = false by decide)]
  rewrite [hblank, hv level m tail hm htail]
  rfl

/-- Written items read back, behind those that were read before. -/
theorem readItems_write {level outer n : Nat} {v : Value} {vs : List Value} {rest : List Char}
    {acc : List Value} (hv : ∀ u ∈ v :: vs, Integral u ∧ ReadsBack u)
    (hn : (write level v).length + (writeItems level vs).length < n) :
    readItems n (write level v ++ (writeItems level vs ++ (newLine outer ++ ']' :: rest))) acc =
      .ok (.list (acc.reverse ++ v :: vs), rest) := by
  induction vs generalizing v n acc with
  | nil =>
    obtain ⟨m, rfl⟩ : ∃ m, n = m + 1 := ⟨n - 1, by omega⟩
    -- behind the last item the reader finds the closing bracket
    rw [readItems_item (hv v List.mem_cons_self).2 (by omega) (stops_writeItems level outer [] _),
      writeItems, List.nil_append, skipSpace_newLine, skipSpace_cons (by decide),
      List.reverse_cons]
    rfl
  | cons w ws ih =>
    obtain ⟨m, rfl⟩ : ∃ m, n = m + 1 := ⟨n - 1, by omega⟩
    have hw := (hv w (List.mem_cons_of_mem v List.mem_cons_self)).1
    have hrest : (write level w).length + (writeItems level ws).length < m := by
      rw [writeItems, List.length_cons, List.length_append, List.length_append] at hn
      omega
    -- behind the comma it starts over, with one more item read
    rw [readItems_item (hv v List.mem_cons_self).2 (by omega)
      (stops_writeItems level outer (w :: ws) _), writeItems, List.cons_append,
      List.append_assoc, List.append_assoc, skipSpace_cons (by decide)]
    change readItems m (skipSpace _) (v :: acc) = _
    rw [skipSpace_newLine_write level level hw, ih (fun u hu => hv u (List.mem_cons_of_mem v hu))
      hrest, List.reverse_cons, List.append_assoc, List.singleton_append]

/-- Written entries read back, behind those that were read before. -/
theorem readEntries_write {level outer n : Nat} {k : String} {v : Value} {es : OrderedMap Value}
    {rest : List Char} (acc : OrderedMap Value)
    (hv : ∀ e ∈ (k, v) :: es, Integral e.2 ∧ ReadsBack e.2)
    (hn : (write level v).length + (writeEntries level es).length < n) :
    readEntries n (writeString k ++ ':' :: ' ' :: (write level v ++ (writeEntries level es ++
      (newLine outer ++ '\x7d' :: rest)))) acc =
      .ok (.map (OrderedMap.ofPairs (acc.reverse ++ (k, v) :: es)), rest) := by
  have hfirst : Integral v ∧ ReadsBack v := hv (k, v) List.mem_cons_self
  induction es generalizing k v n acc with
  | nil =>
    obtain ⟨m, rfl⟩ : ∃ m, n = m + 1 := ⟨n - 1, by omega⟩
    rw [readEntries_entry k hfirst.1 hfirst.2 (by omega) (stops_writeEntries level outer [] _),
      writeEntries, List.nil_append, skipSpace_newLine, skipSpace_cons (by decide),
      List.reverse_cons]
    rfl
  | cons e es ih =>
    obtain ⟨m, rfl⟩ : ∃ m, n = m + 1 := ⟨n - 1, by omega⟩
    obtain ⟨l, w⟩ := e
    have hrest : (write level w).length + (writeEntries level es).length < m := by
      simp only [writeEntries, List.length_cons, List.length_append] at hn
      omega
    -- the next key starts with its quotation mark, so only the indentation is passed over
    have hnext : skipSpace (newLine level ++ (writeString l ++ ':' :: ' ' :: (write level w ++
        (writeEntries level es ++ (newLine outer ++ '\x7d' :: rest))))) =
        writeString l ++ ':' :: ' ' :: (write level w ++ (writeEntries level es ++
          (newLine outer ++ '\x7d' :: rest))) := by
      rw [skipSpace_newLine, writeString, List.cons_append, skipSpace_cons (by decide)]
    have hread := ih ((k, v) :: acc) (fun f hf => hv f (List.mem_cons_of_mem (k, v) hf))
      hrest (hv (l, w) (List.mem_cons_of_mem (k, v) List.mem_cons_self))
    rw [readEntries_entry k hfirst.1 hfirst.2 (by omega)
      (stops_writeEntries level outer ((l, w) :: es) _), writeEntries, List.cons_append,
      skipSpace_cons (by decide)]
    change readEntries m (skipSpace _) ((k, v) :: acc) = _
    simp only [List.append_assoc, List.cons_append]
    rw [hnext, hread, List.reverse_cons, List.append_assoc, List.singleton_append]

/-- A list reads back if its items do. -/
theorem readsBack_list {items : List Value} (h : ∀ v ∈ items, Integral v ∧ ReadsBack v) :
    ReadsBack (.list items) := by
  refine .of_succ (.list fun v hv => (h v hv).1) fun level m rest hm hrest => ?_
  cases items with
  | nil => simp [write, readValue, skipSpace_cons (show isSpace ']' = false by decide)]
  | cons v vs =>
    have hv := (h v List.mem_cons_self).1
    rw [write] at hm ⊢
    simp only [List.length_cons, List.length_append] at hm
    have hitems : readItems m (write (level + 1) v ++ (writeItems (level + 1) vs ++
        (newLine level ++ ']' :: rest))) [] = .ok (.list (v :: vs), rest) :=
      readItems_write h (by omega)
    simp only [List.cons_append, List.append_assoc, List.nil_append, readValue,
      skipSpace_newLine_write (level + 1) (level + 1) hv]
    -- the first item starts with no closing bracket, so the list is not taken for an empty one
    obtain ⟨c, t, hwrite, -, hclose⟩ := write_eq_cons (level + 1) hv
    rw [hwrite, List.cons_append] at hitems ⊢
    split
    · rename_i heq
      exact absurd (List.cons.inj heq).1 hclose
    · exact hitems

/-- A map without repeated keys reads back if its values do. -/
theorem readsBack_map {entries : OrderedMap Value} (distinct : entries.keys.Nodup)
    (h : ∀ e ∈ entries, Integral e.2 ∧ ReadsBack e.2) : ReadsBack (.map entries) := by
  refine .of_succ (.map distinct fun e he => (h e he).1) fun level m rest hm hrest => ?_
  cases entries with
  | nil => simp [write, readValue, skipSpace_cons (show isSpace '\x7d' = false by decide)]
  | cons e es =>
    obtain ⟨k, v⟩ := e
    rw [write] at hm ⊢
    simp only [List.length_cons, List.length_append] at hm
    have hentries : readEntries m (writeString k ++ ':' :: ' ' :: (write (level + 1) v ++
        (writeEntries (level + 1) es ++ (newLine level ++ '\x7d' :: rest)))) [] =
        .ok (.map (OrderedMap.ofPairs ((k, v) :: es)), rest) :=
      readEntries_write [] h (by omega)
    -- the reader inserts the entries one by one, which keeps them as they are
    rw [OrderedMap.ofPairs_eq_self distinct] at hentries
    simp only [List.cons_append, List.append_assoc, List.nil_append, readValue, skipSpace_newLine]
    rw [writeString, List.cons_append, skipSpace_cons (by decide)]
    exact hentries

/-- A string reads back. -/
theorem readsBack_str (s : String) : ReadsBack (.str s) := by
  refine .of_succ (.str s) fun level m rest hm hrest => ?_
  obtain ⟨body, hbody, hstring⟩ := readString_writeString s rest
  rw [write, hbody, readValue, hstring]

/-- Every value without fractions reads back. -/
theorem readValue_write {v : Value} (hv : Integral v) : ReadsBack v := by
  -- along the nesting of lists and maps
  induction hv with
  | null =>
    refine .of_succ .null fun level m rest _ _ => ?_
    exact (readValue_eq_readAtom m (by decide)).trans rfl
  | bool b =>
    refine .of_succ (.bool b) fun level m rest _ _ => ?_
    cases b with
    | true => exact (readValue_eq_readAtom m (by decide)).trans rfl
    | false => exact (readValue_eq_readAtom m (by decide)).trans rfl
  | int h =>
    refine .of_succ (.int h) fun level m rest _ hrest => ?_
    rw [write, readValue_int m h hrest]
  | str s => exact readsBack_str s
  | list h ih => exact readsBack_list fun v hv => ⟨h v hv, ih v hv⟩
  | map distinct h ih => exact readsBack_map distinct fun e he => ⟨h e he, ih e he⟩

/-- The text of a value reads back, also with blanks behind it. -/
theorem parse_render_append {v : Value} (hv : Integral v) {rest : List Char} (hstops : Stops rest)
    (hrest : skipSpace rest = []) : parse ((render v).toList ++ rest) = .ok v := by
  obtain ⟨c, t, hwrite, hspace, -⟩ := write_eq_cons 0 hv
  have hstart : skipSpace (write 0 v ++ rest) = write 0 v ++ rest := by
    rw [hwrite, List.cons_append, skipSpace_cons hspace]
  have hlength : (write 0 v).length ≤ (write 0 v ++ rest).length + 1 := by
    rw [List.length_append]
    omega
  rw [render, String.toList_ofList, parse, hstart, readValue_write hv 0 _ rest hlength hstops]
  exact if_pos hrest

/-- **The text of a value reads back.** -/
theorem parse_render {v : Value} (hv : Integral v) : parse (render v).toList = .ok v := by
  simpa using parse_render_append hv stops_nil rfl

end Json

end ScriptHealth
