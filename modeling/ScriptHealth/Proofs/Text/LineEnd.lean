import ScriptHealth.Project.Files
import Mathlib.Data.List.Basic

/-!
# Line ends

A line of a file ends with a line feed, with a carriage return, or with both. The text that is read
from a file does not show which: writing the line ends of a file in another way leaves its text as
it is, whether or not the bytes between them are well-formed.

The decoder is followed byte by byte. A byte of a line end is never part of a longer sequence, so it
closes a sequence that stands open before it in either spelling, and no longer sequence stands for
the character of a line end.

## Main definitions

* `LineEnd.respell` writes the line ends of bytes in another way
* `Utf8.Machine.Sound` — what holds of the decoder between two bytes

## Main results

* `Utf8.Machine.foldl_step_lineEnd`, `Utf8.Machine.exists_step_eq` — what a line end and every other
  byte adds
* `LineEnd.decodeLossy_respell` — decoding commutes with the change
* `LineEnd.sourceText_respell` — the text of a file does not depend on its line ends
-/

namespace ScriptHealth

/-- How the lines of a file end. -/
inductive LineEnd where
  | lf
  | crlf
  | cr
  deriving DecidableEq, Repr

namespace LineEnd

/-- The bytes of a line end. -/
def bytes : LineEnd → List UInt8
  | .lf => [10]
  | .crlf => [13, 10]
  | .cr => [13]

/-- The characters of a line end. -/
def chars : LineEnd → List Char
  | .lf => ['\n']
  | .crlf => ['\r', '\n']
  | .cr => ['\r']

/-- Bytes with another line end in place of every line feed. -/
def respell (e : LineEnd) (content : List UInt8) : List UInt8 :=
  content.flatMap fun b => if b = 10 then e.bytes else [b]

/-- Characters with another line end in place of every line feed. -/
def respellChars (e : LineEnd) (s : List Char) : List Char :=
  s.flatMap fun c => if c = '\n' then e.chars else [c]

/-- Units of decoded bytes with another line end in place of every line feed. -/
def respellUnits (e : LineEnd) (us : List (Option Char)) : List (Option Char) :=
  us.flatMap fun u => if u = some '\n' then e.chars.map some else [u]

theorem respell_lf (content : List UInt8) : respell .lf content = content := by
  induction content with
  | nil => rfl
  | cons b rest ih =>
    rw [respell, List.flatMap_cons, ← respell, ih]
    split
    · rename_i hb
      simp [bytes, hb]
    · rfl

theorem respellUnits_append (e : LineEnd) (us vs : List (Option Char)) :
    e.respellUnits (us ++ vs) = e.respellUnits us ++ e.respellUnits vs :=
  List.flatMap_append

/-- Units among which there is no line feed stay as they are. -/
theorem respellUnits_of_notMem (e : LineEnd) {us : List (Option Char)} (h : some '\n' ∉ us) :
    e.respellUnits us = us := by
  induction us with
  | nil => rfl
  | cons u us ih =>
    rw [List.mem_cons, not_or] at h
    rw [respellUnits, List.flatMap_cons, ← respellUnits, ih h.2, if_neg (Ne.symm h.1)]
    rfl

end LineEnd

namespace Utf8

/-- The next byte of an open sequence is not an ASCII byte, and the character that the sequence
stands for lies behind the characters of line ends. -/
def Pending.Sound (p : Pending) : Prop := 0x80 ≤ p.low ∧ 14 ≤ p.bits * 64 + (p.low - 0x80)

theorem lead_of_lt {b : Nat} (h : b < 0x80) : lead b = .whole (Char.ofNat b) := if_pos h

/-- A lead byte is a character on its own, opens a sequence, or is malformed. -/
theorem lead_cases (b : Nat) :
    lead b = .whole (Char.ofNat b) ∨ (∃ p, p.Sound ∧ lead b = .sequence p) ∨
      lead b = .malformed := by
  unfold lead
  split
  · exact .inl rfl
  · refine .inr ?_
    split
    · exact .inr rfl
    · -- a short range of the next byte makes up for a lead byte that holds no bits
      split
      · refine .inl ⟨_, ?_, rfl⟩
        unfold Pending.Sound
        dsimp only
        omega
      · split
        · refine .inl ⟨_, ?_, rfl⟩
          unfold Pending.Sound
          dsimp only
          split <;> omega
        · split
          · refine .inl ⟨_, ?_, rfl⟩
            unfold Pending.Sound
            dsimp only
            split <;> omega
          · exact .inr rfl

/-- Units among which there is no line end. -/
def IsInner (us : List (Option Char)) : Prop := some '\n' ∉ us ∧ some '\r' ∉ us

/-- The characters of line ends have no other numbers than their own. -/
theorem isInner_ofNat {n : Nat} (hlf : n ≠ 10) (hcr : n ≠ 13) : IsInner [some (Char.ofNat n)] := by
  have htoNat : (Char.ofNat n).toNat = n ∨ (Char.ofNat n).toNat = 0 := by
    by_cases hvalid : n.isValidChar
    · rw [Char.ofNat, dif_pos hvalid]
      exact .inl rfl
    · rw [Char.ofNat, dif_neg hvalid]
      exact .inr rfl
  have hne (c : Char) (hc : c.toNat ≠ n ∧ c.toNat ≠ 0) : c ≠ Char.ofNat n := by
    rintro rfl
    omega
  constructor
  · simpa using hne '\n' ⟨Ne.symm hlf, by decide⟩
  · simpa using hne '\r' ⟨Ne.symm hcr, by decide⟩

namespace Machine

/-- The units found so far, with one more for a sequence that stands open. -/
def closed (m : Machine) : List (Option Char) :=
  match m.pending with
  | none => m.found
  | some _ => none :: m.found

theorem finish_eq (m : Machine) : m.finish = m.closed.reverse := by
  unfold finish closed
  cases m.pending with
  | none => rfl
  | some p => rfl

/-- What holds between two bytes, when no carriage return has been read. -/
structure Sound (m : Machine) : Prop where
  pending : ∀ p, m.pending = some p → p.Sound
  found : some '\r' ∉ m.found

theorem Sound.closed {m : Machine} (h : m.Sound) : some '\r' ∉ m.closed := by
  unfold Machine.closed
  cases m.pending with
  | none => exact h.found
  | some p => simpa using h.found

/-- An ASCII byte closes an open sequence and is a character on its own. -/
theorem step_ascii {m : Machine} (h : ∀ p, m.pending = some p → p.Sound) {b : UInt8}
    (hb : b.toNat < 0x80) :
    m.step b = ⟨some (Char.ofNat b.toNat) :: m.closed, none⟩ := by
  obtain ⟨found, pending⟩ := m
  cases pending with
  | none => simp only [step, start, lead_of_lt hb, closed]
  | some p =>
    have hlow : ¬(p.low ≤ b.toNat ∧ b.toNat ≤ p.high) := by
      have hp := (h p rfl).1
      omega
    simp only [step, if_neg hlow, start, lead_of_lt hb, closed]

/-- A lead byte outside of line ends adds units that are no line ends, the same ones to whatever was
found before. -/
theorem exists_start_eq {b : Nat} (hlf : b ≠ 10) (hcr : b ≠ 13) :
    ∃ us pending, IsInner us ∧ (∀ p, pending = some p → p.Sound) ∧
      ∀ found, start found b = ⟨us ++ found, pending⟩ := by
  unfold start
  obtain hlead | ⟨p, hp, hlead⟩ | hlead := lead_cases b
  · rw [hlead]
    exact ⟨_, none, isInner_ofNat hlf hcr, nofun, fun _ => rfl⟩
  · rw [hlead]
    refine ⟨[], some p, ⟨nofun, nofun⟩, ?_, fun _ => rfl⟩
    intro q hq
    cases hq
    exact hp
  · rw [hlead]
    exact ⟨[none], none, by simp [IsInner], nofun, fun _ => rfl⟩

/-- So does every byte outside of line ends. -/
theorem exists_step_eq {pending : Option Pending} (h : ∀ p, pending = some p → p.Sound) {b : UInt8}
    (hlf : b ≠ 10) (hcr : b ≠ 13) :
    ∃ us pending', IsInner us ∧ (∀ p, pending' = some p → p.Sound) ∧
      ∀ found, step ⟨found, pending⟩ b = ⟨us ++ found, pending'⟩ := by
  have hlf' : b.toNat ≠ 10 := fun h => hlf (UInt8.toNat_inj.mp h)
  have hcr' : b.toNat ≠ 13 := fun h => hcr (UInt8.toNat_inj.mp h)
  obtain ⟨us, pending', hus, hpending', hstart⟩ := exists_start_eq hlf' hcr'
  cases pending with
  | none => exact ⟨us, pending', hus, hpending', hstart⟩
  | some p =>
    obtain ⟨hlow, hbits⟩ := h p rfl
    by_cases hrange : p.low ≤ b.toNat ∧ b.toNat ≤ p.high
    · -- a sequence of two or more bytes stands for no character as small as a line end
      have hnext : 14 ≤ p.bits * 64 + (b.toNat - 0x80) := by omega
      by_cases hlast : p.missing = 1
      · refine ⟨[some (Char.ofNat (p.bits * 64 + (b.toNat - 0x80)))], none,
          isInner_ofNat (by omega) (by omega), nofun, ?_⟩
        intro found
        simp only [step, if_pos hrange, if_pos hlast]
        rfl
      · refine ⟨[], some ⟨p.missing - 1, 0x80, 0xBF, p.bits * 64 + (b.toNat - 0x80)⟩,
          ⟨nofun, nofun⟩, ?_, ?_⟩
        · intro q hq
          cases hq
          unfold Pending.Sound
          dsimp only
          omega
        · intro found
          simp only [step, if_pos hrange, if_neg hlast]
          rfl
    · -- the open sequence is broken off, and the byte is read as a lead byte
      refine ⟨us ++ [none], pending', ?_, hpending', ?_⟩
      · simpa [IsInner] using hus
      · intro found
        simp only [step, if_neg hrange, hstart, List.append_assoc]
        rfl

/-- The machine with another line end in place of every line feed found. -/
def respelled (e : LineEnd) (m : Machine) : Machine where
  found := (e.respellUnits m.found.reverse).reverse
  pending := m.pending

theorem closed_respelled (e : LineEnd) (m : Machine) :
    (m.respelled e).closed = (e.respellUnits m.closed.reverse).reverse := by
  obtain ⟨found, pending⟩ := m
  cases pending with
  | none => rfl
  | some p =>
    have hnone : e.respellUnits [none] = [none] := e.respellUnits_of_notMem (by simp)
    simp only [closed, respelled, List.reverse_cons, LineEnd.respellUnits_append, hnone]
    simp

theorem finish_respelled (e : LineEnd) (m : Machine) :
    (m.respelled e).finish = e.respellUnits m.finish := by
  rw [finish_eq, finish_eq, closed_respelled, List.reverse_reverse]

/-- A line end closes an open sequence and is read as its own characters. -/
theorem foldl_step_lineEnd {m : Machine} (h : ∀ p, m.pending = some p → p.Sound) (e : LineEnd) :
    e.bytes.foldl step m = ⟨(e.chars.map some).reverse ++ m.closed, none⟩ := by
  cases e with
  | lf => exact step_ascii h (by decide)
  | cr => exact step_ascii h (by decide)
  | crlf =>
    have hreturn : m.step 13 = ⟨some '\r' :: m.closed, none⟩ := step_ascii h (by decide)
    have hfeed : step ⟨some '\r' :: m.closed, none⟩ 10 =
        ⟨some '\n' :: some '\r' :: m.closed, none⟩ :=
      step_ascii (m := ⟨some '\r' :: m.closed, none⟩) nofun (by decide)
    rw [LineEnd.bytes, List.foldl_cons, List.foldl_cons, hreturn, hfeed]
    rfl

/-- Reading a byte, other than a carriage return, and the bytes that are written in its place comes
to the same. -/
theorem foldl_step_respelled {m : Machine} (h : m.Sound) (e : LineEnd) {b : UInt8} (hb : b ≠ 13) :
    (if b = 10 then e.bytes else [b]).foldl step (m.respelled e) = (m.step b).respelled e ∧
      (m.step b).Sound := by
  split
  · rename_i hlf
    subst hlf
    have hstep : m.step 10 = ⟨some '\n' :: m.closed, none⟩ := step_ascii h.pending (by decide)
    have hsome : e.respellUnits [some '\n'] = e.chars.map some := by simp [LineEnd.respellUnits]
    constructor
    · rw [foldl_step_lineEnd (m := m.respelled e) h.pending, closed_respelled, hstep]
      simp [respelled, LineEnd.respellUnits_append, hsome]
    · rw [hstep]
      refine ⟨nofun, ?_⟩
      simpa using h.closed
  · rename_i hlf
    obtain ⟨us, pending, hus, hpending, hstep⟩ := exists_step_eq h.pending hlf hb
    have hm : m.step b = ⟨us ++ m.found, pending⟩ := hstep m.found
    rw [hm]
    constructor
    · have hus' : e.respellUnits us.reverse = us.reverse :=
        e.respellUnits_of_notMem (by simpa using hus.1)
      refine (hstep _).trans ?_
      simp [respelled, LineEnd.respellUnits_append, hus']
    · exact ⟨hpending, by simpa using ⟨hus.2, h.found⟩⟩

/-- So it does for all bytes of a file. -/
theorem foldl_step_respell (e : LineEnd) {content : List UInt8} (hcr : 13 ∉ content) {m : Machine}
    (h : m.Sound) :
    (e.respell content).foldl step (m.respelled e) = (content.foldl step m).respelled e ∧
      (content.foldl step m).Sound := by
  induction content generalizing m with
  | nil => exact ⟨rfl, h⟩
  | cons b rest ih =>
    rw [List.mem_cons, not_or] at hcr
    obtain ⟨hstep, hsound⟩ := foldl_step_respelled h e (Ne.symm hcr.1)
    rw [LineEnd.respell, List.flatMap_cons, List.foldl_append, hstep, ← LineEnd.respell]
    exact ih hcr.2 hsound

theorem sound_empty : Sound {} := ⟨nofun, nofun⟩

end Machine

end Utf8

namespace LineEnd

/-- Decoding finds the other line end in place of every line feed. -/
theorem units_respell (e : LineEnd) {content : List UInt8} (hcr : 13 ∉ content) :
    Utf8.units (e.respell content) = e.respellUnits (Utf8.units content) := by
  have hrun := (Utf8.Machine.foldl_step_respell e hcr Utf8.Machine.sound_empty).1
  rw [Utf8.units, Utf8.units, ← Utf8.Machine.finish_respelled, ← hrun]
  rfl

theorem return_notMem_units {content : List UInt8} (hcr : 13 ∉ content) :
    some '\r' ∉ Utf8.units content := by
  have hsound := (Utf8.Machine.foldl_step_respell .lf hcr Utf8.Machine.sound_empty).2
  rw [Utf8.units, Utf8.Machine.finish_eq, List.mem_reverse]
  exact hsound.closed

theorem decodeLossy_respell (e : LineEnd) {content : List UInt8} (hcr : 13 ∉ content) :
    Utf8.decodeLossy (e.respell content) = e.respellChars (Utf8.decodeLossy content) := by
  rw [Utf8.decodeLossy, Utf8.decodeLossy, units_respell e hcr, respellUnits, respellChars,
    List.map_flatMap, List.flatMap_map]
  congr 1
  funext u
  cases u with
  | none => rfl
  | some c =>
    by_cases hc : c = '\n'
    · subst hc
      simp [Function.comp_def]
    · simp [hc]

theorem return_notMem_decodeLossy {content : List UInt8} (hcr : 13 ∉ content) :
    '\r' ∉ Utf8.decodeLossy content := by
  intro hmem
  obtain ⟨u, hu, hchar⟩ := List.mem_map.mp hmem
  cases u with
  | none => exact absurd hchar (by decide)
  | some c =>
    rw [Option.getD_some] at hchar
    exact return_notMem_units hcr (hchar ▸ hu)

/-- Every line end is read as one line feed. -/
theorem unifyBreaks_respellChars (e : LineEnd) {s : List Char} (hcr : '\r' ∉ s) :
    Text.unifyBreaks (e.respellChars s) = s := by
  -- with single carriage returns no line feed is left, so none of them is taken for half a line end
  have hfold : ((e.respellChars s).foldr Text.unifyStep ([], false)).1 = s ∧
      (e = .cr → ((e.respellChars s).foldr Text.unifyStep ([], false)).2 = false) := by
    induction s with
    | nil => exact ⟨rfl, fun _ => rfl⟩
    | cons c s ih =>
      rw [List.mem_cons, not_or] at hcr
      obtain ⟨ihText, ihFlag⟩ := ih hcr.2
      rw [respellChars, List.flatMap_cons, List.foldr_append, ← respellChars]
      by_cases hc : c = '\n'
      · subst hc
        cases e with
        | lf => simp [chars, Text.unifyStep, ihText]
        | crlf => simp [chars, Text.unifyStep, ihText]
        | cr => simp [chars, Text.unifyStep, ihText, ihFlag rfl]
      · simp [hc, Text.unifyStep, Ne.symm hcr.1, ihText]
  exact hfold.1

/-- **The text of a file does not depend on its line ends.** -/
theorem sourceText_respell (e : LineEnd) {content : List UInt8} (hcr : 13 ∉ content) :
    Project.sourceText (e.respell content) = Project.sourceText content := by
  have htext (e : LineEnd) : Project.sourceText (e.respell content) =
      String.ofList (Utf8.decodeLossy content) := by
    rw [Project.sourceText, decodeLossy_respell e hcr,
      unifyBreaks_respellChars e (return_notMem_decodeLossy hcr)]
  rw [htext e, ← htext .lf, respell_lf]

end LineEnd

end ScriptHealth
