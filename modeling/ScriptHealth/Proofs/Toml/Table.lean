import ScriptHealth.Proofs.Data.OrderedMap
import ScriptHealth.Proofs.Data.Outcome
import ScriptHealth.Toml.Reader

/-!
# Documents have each key once

The table of a document grows entry by entry and header by header. Every such step inserts under a
name, so no name comes to stand in the table twice.

## Main results

* `Toml.nodup_keys_within` — changing the table behind a key keeps the names distinct
* `Toml.Document.Distinct.readLines` — so does reading any number of lines
* `Toml.nodup_keys_parse` — a document has each of its names once
-/

namespace ScriptHealth.Toml

open Outcome OrderedMap

/-- Changing the table behind a key keeps the names distinct, if the change itself does. -/
theorem nodup_keys_within {intoLists : Bool}
    {change : OrderedMap Value → Except Blocked (OrderedMap Value)}
    (hchange : ∀ table t, table.keys.Nodup → change table = .ok t → t.keys.Nodup) {key : Key}
    {table t : OrderedMap Value} (htable : table.keys.Nodup)
    (h : within intoLists change key table = .ok t) : t.keys.Nodup := by
  have hinserted {x : Except Blocked (OrderedMap Value)} {v : OrderedMap Value → Value}
      {name : String} (hx : (x.map fun inner => table.insert name (v inner)) = .ok t) :
      t.keys.Nodup := by
    cases x with
    | error e => cases hx
    | ok inner =>
      cases hx
      exact nodup_keys_insert htable name (v inner)
  cases key with
  | nil => exact hchange table t htable h
  | cons name rest =>
    -- whatever stands under the name, the table gets one insertion
    rw [within] at h
    split at h
    · exact hinserted h
    · exact hinserted h
    · split at h
      · exact hinserted h
      · cases h
    · cases h

theorem nodup_keys_addEntry {name : String} {v : Value} {table t : OrderedMap Value}
    (htable : table.keys.Nodup) (h : addEntry name v table = .ok t) : t.keys.Nodup := by
  unfold addEntry at h
  split at h
  · cases h
  · cases h
    exact nodup_keys_insert htable name v

theorem nodup_keys_addItem {name : String} {table t : OrderedMap Value}
    (htable : table.keys.Nodup) (h : addItem name table = .ok t) : t.keys.Nodup := by
  unfold addItem at h
  split at h
  · cases h
    exact nodup_keys_insert htable name _
  · cases h
    exact nodup_keys_insert htable name _
  · cases h

namespace Document

/-- No name stands in the table of the document twice. -/
def Distinct (d : Document) : Prop := d.table.keys.Nodup

namespace Distinct

variable {d d' : Document} {rest : List Char}

theorem putEntry (hd : d.Distinct) {key : Key} {v : Value}
    (h : d.putEntry key v rest = .ok d') : d'.Distinct := by
  unfold Document.putEntry at h
  dsimp only at h
  split at h
  · cases h
  · obtain ⟨-, h⟩ := check_eq_ok.mp h
    split at h
    · cases h
    · rename_i table htable
      cases h
      exact nodup_keys_within (fun _ _ => nodup_keys_addEntry) hd htable

theorem openTable (hd : d.Distinct) {key : Key} (h : d.openTable key rest = .ok d') :
    d'.Distinct := by
  unfold Document.openTable at h
  split at h
  · cases h
  · split at h
    · cases h
    · rename_i table htable
      cases h
      exact nodup_keys_within (fun _ _ hkeys => by rintro ⟨⟩; exact hkeys) hd htable

theorem openItem (hd : d.Distinct) {key : Key} (h : d.openItem key rest = .ok d') :
    d'.Distinct := by
  unfold Document.openItem at h
  split at h
  · cases h
  · split at h
    · cases h
    · rename_i table htable
      cases h
      exact nodup_keys_within (fun _ _ => nodup_keys_addItem) hd htable

/-- A header opens a table or an item. -/
theorem readHeader (hd : d.Distinct) {r : List Char} (h : d.readHeader r = .ok (d', rest)) :
    d'.Distinct := by
  have hhere : d.atHeader.Distinct := hd
  unfold Document.readHeader at h
  dsimp only at h
  split at h
  · obtain ⟨⟨key, r⟩, -, h⟩ := bind_eq_ok.mp h
    obtain ⟨opened, hopened, h⟩ := bind_eq_ok.mp h
    split at h
    · cases h
      exact hhere.openItem hopened
    · cases h
  · obtain ⟨⟨key, r⟩, -, h⟩ := bind_eq_ok.mp h
    obtain ⟨opened, hopened, h⟩ := bind_eq_ok.mp h
    split at h
    · cases h
      exact hhere.openTable hopened
    · cases h

theorem readStatement (hd : d.Distinct) {s : List Char}
    (h : d.readStatement s = .ok (d', rest)) : d'.Distinct := by
  unfold Document.readStatement at h
  split at h
  · exact hd.readHeader h
  · cases h
    exact hd
  · split at h
    · obtain ⟨⟨key, r⟩, -, h⟩ := bind_eq_ok.mp h
      obtain ⟨r', -, h⟩ := bind_eq_ok.mp h
      obtain ⟨⟨v, r''⟩, -, h⟩ := bind_eq_ok.mp h
      obtain ⟨changed, hchanged, h⟩ := bind_eq_ok.mp h
      cases h
      exact hd.putEntry hchanged
    · cases h
  · cases h
    exact hd

/-- Any number of lines keeps the names distinct. -/
theorem readLines (hd : d.Distinct) {n : Nat} {s : List Char}
    (h : Document.readLines n d s = .ok d') : d'.Distinct := by
  induction n generalizing d s with
  | zero =>
    cases h
    exact hd
  | succ n ih =>
    rw [Document.readLines] at h
    split at h
    · cases h
      exact hd
    · exact ih hd h
    · obtain ⟨⟨changed, r⟩, hchanged, h⟩ := bind_eq_ok.mp h
      obtain ⟨r', -, h⟩ := bind_eq_ok.mp h
      have hkept := hd.readStatement hchanged
      split at h
      · cases h
        exact hkept
      · exact ih hkept h
      · cases h

end Distinct

end Document

/-- A document has each of its names once. -/
theorem nodup_keys_parse {text : List Char} {table : OrderedMap Value}
    (h : parse text = .ok table) : table.keys.Nodup := by
  unfold parse at h
  dsimp only at h
  split at h
  · rename_i d hd
    cases h
    have hempty : ({} : Document).Distinct := List.nodup_nil
    exact hempty.readLines hd
  · cases h
  · cases h

end ScriptHealth.Toml
