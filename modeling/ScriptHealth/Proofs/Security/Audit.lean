import ScriptHealth.Security.Audit
import Mathlib.Data.List.Basic

/-!
# The answer of the audit tool, entry by entry

The audit tool answers with a map of vulnerabilities or with a collection of advisories. Each entry
is judged by itself: an entry that is no map is passed over, a map gives one finding, and neither
changes what comes of the entries around it. So the findings of an answer are those of the answers
with a single entry, one after the other.

## Main definitions

* `Audit.answerWith` — an answer with a single field
* `Audit.FromEntry` — a finding that an entry gives
* `Audit.EntryFindings` — all that comes of one entry

## Main results

* `Audit.severityOf_eq_iff` — a value has a severity above low exactly if it spells its name
* `Audit.findings_vulnerabilities`, `Audit.findings_of_no_vulnerabilities` — which entries of an
  answer count
* `Audit.findings_entry_by_entry` — the findings of an answer
-/

namespace ScriptHealth.Audit

/-- An answer with a single field. -/
def answerWith (field : String) (v : Value) : Value := .map [(field, v)]

/-- A finding that an entry gives: it comes from the audit, it has no place in the code, and its
severity is above low exactly if the severity of the entry spells the name of it. -/
structure FromEntry (entry : Value) (f : Finding) : Prop where
  source : f.source = .dependencyAudit
  file : f.file = none
  line : f.line = none
  severity : ∀ s ≠ .low,
    (f.severity = s ↔ Text.lower (entry.field "severity").text.toList = s.name.toList)

/-- All that comes of one entry: nothing, unless it is a map, and then one finding. -/
inductive EntryFindings : Value → List Finding → Prop
  | skipped {v : Value} (h : ∀ fields, v ≠ .map fields) : EntryFindings v []
  | reported {fields : List (String × Value)} {f : Finding} (h : FromEntry (.map fields) f) :
      EntryFindings (.map fields) [f]

/-! ### One entry -/

/-- A value has a severity above low exactly if its text, in lower case, is the name of it. -/
theorem severityOf_eq_iff (v : Value) {s : Severity} (hs : s ≠ .low) :
    severityOf v = s ↔ Text.lower v.text.toList = s.name.toList := by
  have hname : Text.lower v.text.toList = s.name.toList ↔
      String.ofList (Text.lower v.text.toList) = s.name :=
    ⟨fun h => by rw [h, String.ofList_toList], fun h => by rw [← h, String.toList_ofList]⟩
  rw [hname, severityOf, Severity.ofName?]
  generalize String.ofList (Text.lower v.text.toList) = text
  -- the names differ, so the first severity with the name is the only one
  constructor
  · intro h
    cases hfound : Severity.all.find? (·.name == text) with
    | none =>
      rw [hfound] at h
      exact absurd h.symm hs
    | some t =>
      rw [hfound] at h
      obtain rfl : t = s := h
      have hname := List.find?_some (p := fun t : Severity => t.name == text) hfound
      exact (beq_iff_eq.mp hname).symm
  · rintro rfl
    cases s <;> rfl

theorem fromEntry_finding (entry : Value) (name : String) (description : Value) :
    FromEntry entry (finding name (entry.field "severity") description) where
  source := rfl
  file := rfl
  line := rfl
  severity := fun _ hs => severityOf_eq_iff _ hs

theorem entryFindings_vulnerability (name : String) (v : Value) :
    EntryFindings v (ofVulnerability? name v).toList := by
  unfold ofVulnerability?
  split
  · exact .reported (fromEntry_finding _ _ _)
  · rename_i hmap
    exact .skipped hmap

theorem entryFindings_advisory (v : Value) : EntryFindings v (ofAdvisory? v).toList := by
  unfold ofAdvisory?
  split
  · exact .reported (fromEntry_finding _ _ _)
  · rename_i hmap
    exact .skipped hmap

/-! ### All entries -/

section Entries

variable {payload : Value}

/-- Only a map has a field that is not null. -/
theorem exists_map_of_field {key : String} (h : payload.field key ≠ .null) :
    ∃ fields, payload = .map fields := by
  cases payload with
  | map fields => exact ⟨fields, rfl⟩
  | _ => exact absurd rfl h

theorem findings_vulnerabilities {entries : List (String × Value)}
    (h : payload.field "vulnerabilities" = .map entries) :
    findings payload = entries.flatMap fun e => (ofVulnerability? e.1 e.2).toList := by
  have hfield : payload.field "vulnerabilities" ≠ .null := by
    rw [h]
    exact nofun
  obtain ⟨fields, rfl⟩ := exists_map_of_field hfield
  rw [findings, h]
  exact List.filterMap_eq_flatMap_toList _ _

/-- What comes of the advisories, which are a map or a list. -/
def advisoryFindings : Value → List Finding
  | .map entries => entries.flatMap fun e => (ofAdvisory? e.2).toList
  | .list items => items.flatMap fun v => (ofAdvisory? v).toList
  | _ => []

/-- Without a map of vulnerabilities only the advisories count. -/
theorem findings_of_no_vulnerabilities
    (h : ∀ entries, payload.field "vulnerabilities" ≠ .map entries) :
    findings payload = advisoryFindings (payload.field "advisories") := by
  cases payload with
  | map fields =>
    rw [findings]
    generalize Value.field "advisories" (.map fields) = advisories
    split
    · exact absurd ‹_› (h _)
    · cases advisories with
      | map entries => exact List.filterMap_eq_flatMap_toList _ _
      | list items => exact List.filterMap_eq_flatMap_toList _ _
      | _ => rfl
  | _ => rfl

/-- An answer with a single vulnerability. -/
theorem findings_vulnerability (e : String × Value) :
    findings (answerWith "vulnerabilities" (.map [e])) = (ofVulnerability? e.1 e.2).toList := by
  have hentries : (answerWith "vulnerabilities" (.map [e])).field "vulnerabilities" = .map [e] :=
    rfl
  rw [findings_vulnerabilities hentries, List.flatMap_singleton]

/-- An answer with advisories only. -/
theorem findings_advisories (advisories : Value) :
    findings (answerWith "advisories" advisories) = advisoryFindings advisories :=
  findings_of_no_vulnerabilities nofun

end Entries

/-- **The findings of an audit, entry by entry.** If the answer has a map of vulnerabilities, its
findings are those of the answers with one of them, in the order of the map, whatever else the answer
holds. Otherwise a map of advisories counts as the list of its values, and the findings of a list are
those of the answers with one item. Any other answer has no findings. An entry that is no map
contributes nothing, and a map exactly one finding, which comes from the audit, has no place in the
code, and is more severe than low only if the entry says so. -/
theorem findings_entry_by_entry (payload : Value) :
    (∀ entries, payload.field "vulnerabilities" = .map entries →
      findings payload = entries.flatMap fun e =>
        findings (answerWith "vulnerabilities" (.map [e]))) ∧
    ((∀ entries, payload.field "vulnerabilities" ≠ .map entries) →
      (∀ entries, payload.field "advisories" = .map entries →
        findings payload =
          findings (answerWith "advisories" (.list (OrderedMap.values entries)))) ∧
      (∀ items, payload.field "advisories" = .list items →
        findings payload = items.flatMap fun v =>
          findings (answerWith "advisories" (.list [v]))) ∧
      ((∀ entries, payload.field "advisories" ≠ .map entries) →
        (∀ items, payload.field "advisories" ≠ .list items) → findings payload = [])) ∧
    (∀ e : String × Value,
      EntryFindings e.2 (findings (answerWith "vulnerabilities" (.map [e])))) ∧
    ∀ v, EntryFindings v (findings (answerWith "advisories" (.list [v]))) := by
  have hitem (v : Value) : advisoryFindings (.list [v]) = (ofAdvisory? v).toList :=
    List.flatMap_singleton _ v
  simp only [findings_vulnerability, findings_advisories, hitem]
  refine ⟨fun entries => findings_vulnerabilities, fun hnone => ?_, fun e => ?_,
    entryFindings_advisory⟩
  · rw [findings_of_no_vulnerabilities hnone]
    generalize payload.field "advisories" = advisories
    refine ⟨?_, ?_, ?_⟩
    · rintro entries rfl
      rw [advisoryFindings, advisoryFindings, OrderedMap.values, List.flatMap_map]
    · rintro items rfl
      rfl
    · intro hmap hlist
      cases advisories with
      | map entries => exact absurd rfl (hmap entries)
      | list items => exact absurd rfl (hlist items)
      | _ => rfl
  · exact entryFindings_vulnerability e.1 e.2

/-- An answer in which an entry that is no map stands between two vulnerabilities, with advisories
besides. -/
def mixedAnswer : Value :=
  .map [("advisories", .list [.map [("severity", .str "critical")]]),
    ("vulnerabilities", .map [("a", .map [("severity", .str "HIGH")]), ("b", .int 3),
      ("c", .map [("severity", .str "moderate")])])]

/-- The two vulnerabilities are found, and neither the entry between them nor the advisory is. -/
theorem findings_entry_by_entry_mixedAnswer :
    ∃ f g, findings mixedAnswer = [f, g] ∧ f.severity = .high ∧ f.source = .dependencyAudit ∧
      g.severity = .low := by
  have hmoderate : ∀ s ≠ Severity.low, Text.lower "moderate".toList ≠ s.name.toList := by
    intro s hs
    cases s with
    | low => exact absurd rfl hs
    | _ => decide +kernel
  obtain ⟨hvulnerabilities, -, hentry, -⟩ := findings_entry_by_entry mixedAnswer
  have hfindings := hvulnerabilities _ rfl
  simp only [List.flatMap_cons, List.flatMap_nil, List.append_nil] at hfindings
  rw [hfindings]
  have ha := hentry ("a", .map [("severity", .str "HIGH")])
  have hb := hentry ("b", .int 3)
  have hc := hentry ("c", .map [("severity", .str "moderate")])
  generalize findings (answerWith "vulnerabilities" (.map [("a", _)])) = fs at ha ⊢
  generalize findings (answerWith "vulnerabilities" (.map [("b", _)])) = gs at hb ⊢
  generalize findings (answerWith "vulnerabilities" (.map [("c", _)])) = hs at hc ⊢
  obtain ⟨hne⟩ | ⟨hf⟩ := ha
  · exact absurd rfl (hne _)
  · obtain ⟨-⟩ | - := hb
    obtain ⟨hne⟩ | ⟨hg⟩ := hc
    · exact absurd rfl (hne _)
    · refine ⟨_, _, rfl, (hf.severity .high (by decide)).mpr (by decide +kernel), hf.source, ?_⟩
      by_contra hsevere
      exact hmoderate _ hsevere ((hg.severity _ hsevere).mp rfl)

end ScriptHealth.Audit
