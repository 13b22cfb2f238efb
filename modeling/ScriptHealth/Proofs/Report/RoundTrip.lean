import ScriptHealth.Proofs.Data.Outcome
import ScriptHealth.Proofs.Json.RoundTrip
import ScriptHealth.Report.Stored

/-!
# Stored reports read back

A report that was read from a value without fractions is written as a value without fractions, and
the text of that value reads back as the same report.

Reading and writing come in pairs, one pair for every kind of record. Such a pair is faithful if
what was written reads back and if reading brings no fractions in. Lists of records inherit this
from their records, and the report inherits it from its parts.

## Main definitions

* `StoredReport.Faithful` — a reader and a writer of records that belong together

## Main results

* `StoredReport.ofValue_toValue` — a written report reads back
* `StoredReport.integral_toValue` — no fraction comes in between reading and writing
* `storedReport_text_reads_back` — the text of a report reads back
-/

namespace ScriptHealth

open Json Outcome

namespace Json

theorem integral_list_iff {items : List Value} :
    Integral (.list items) ↔ ∀ v ∈ items, Integral v :=
  ⟨fun h => by cases h; assumption, .list⟩

theorem integral_map_iff {entries : OrderedMap Value} :
    Integral (.map entries) ↔ entries.keys.Nodup ∧ ∀ e ∈ entries, Integral e.2 :=
  ⟨fun h => by cases h; exact ⟨‹_›, ‹_›⟩, fun h => .map h.1 h.2⟩

/-- Small integers can always be read. -/
theorem integral_of_natAbs_le {n : Int} (h : n.natAbs ≤ Number.digitLimit) : Integral (.int n) :=
  .int (Nat.lt_of_le_of_lt h (Nat.lt_pow_self (by decide)))

theorem integral_zero : Integral (.int 0) := integral_of_natAbs_le (by decide)

end Json

namespace StoredReport

/-! ### Values inside values -/

/-- The entry of a record that has to be there. -/
theorem integral_need {v x : Value} {key : String} (hv : Integral v) (h : need v key = .ok x) :
    Integral x := by
  unfold need at h
  split at h
  · rename_i entries
    split at h
    · rename_i found
      cases h
      exact (integral_map_iff.mp hv).2 _ (OrderedMap.mem_of_get?_eq_some found)
    · exact absurd h (by simp)
  · exact absurd h (by simp)

/-- The entries of a value that has to be a map. -/
theorem integral_mapOf {v : Value} {es : OrderedMap Value} (hv : Integral v)
    (h : mapOf v = .ok es) : ∀ e ∈ es, Integral e.2 := by
  unfold mapOf at h
  split at h
  · cases h
    exact (integral_map_iff.mp hv).2
  · exact absurd h (by simp)

/-- A field of a record, or its default. -/
theorem integral_pickOr {es : OrderedMap Value} (hes : ∀ e ∈ es, Integral e.2) (key : String)
    {default : Value} (hdefault : Integral default) : Integral (pickOr es key default) := by
  unfold pickOr
  cases hget : OrderedMap.get? key es with
  | none => exact hdefault
  | some x => exact hes _ (OrderedMap.mem_of_get?_eq_some hget)

theorem integral_pick {es : OrderedMap Value} (hes : ∀ e ∈ es, Integral e.2) (key : String) :
    Integral (pick es key) :=
  integral_pickOr hes key .null

/-- The items of a value that can be run through. -/
theorem integral_itemsOf {v : Value} {items : List Value} (hv : Integral v)
    (h : itemsOf v = .ok items) : ∀ x ∈ items, Integral x := by
  unfold itemsOf at h
  split at h
  · cases h
    exact integral_list_iff.mp hv
  · cases h
    intro x hx
    obtain ⟨c, -, rfl⟩ := List.mem_map.mp hx
    exact .str _
  · cases h
    intro x hx
    obtain ⟨e, -, rfl⟩ := List.mem_map.mp hx
    exact .str _
  · exact absurd h (by simp)

/-- Taking one pair into a record. -/
theorem integral_addPair {fields result : Fields} {index : Nat} {pair : Value}
    (hfields : ∀ e ∈ fields.entries, Integral e.2) (hpair : Integral pair)
    (h : fields.addPair index pair = .ok result) : ∀ e ∈ result.entries, Integral e.2 := by
  unfold Fields.addPair at h
  split at h
  · exact absurd h (by simp)
  · -- the value of the pair is one of its two items
    rename_i key v hitems
    cases h
    intro e he
    rcases OrderedMap.mem_insert he with rfl | hmem
    · exact integral_itemsOf hpair hitems _ (by simp)
    · exact hfields e hmem
  · exact absurd h (by simp)
  · exact absurd h (by simp)
  · cases h
    exact hfields
  · exact absurd h (by simp)

/-- The record in a value, given as a map or as pairs. -/
theorem integral_fieldsOf {v : Value} {fields : Fields} (hv : Integral v)
    (h : fieldsOf v = .ok fields) : ∀ e ∈ fields.entries, Integral e.2 := by
  unfold fieldsOf at h
  split at h
  · cases h
    exact (integral_map_iff.mp hv).2
  · obtain ⟨pairs, hpairs, hrun⟩ := bind_eq_ok.mp h
    have hall := integral_itemsOf hv hpairs
    -- every pair that is taken in is an item of the value
    refine foldlM_invariant (fun fields : Fields => ∀ e ∈ fields.entries, Integral e.2) ?_ ?_ hrun
    · rintro fields ⟨pair, index⟩ result hmem hfields hstep
      exact integral_addPair hfields (hall pair (List.fst_mem_of_mem_zipIdx hmem)) hstep
    · intro e he
      exact absurd he List.not_mem_nil

/-! ### Records -/

/-- A reader and a writer of records that belong together: what was written reads back, and what
was read from a value without fractions is written without fractions. -/
structure Faithful {α : Type} (read : Value → Except Fault α) (value : α → Value) : Prop where
  read_value : ∀ x, read (value x) = .ok x
  integral : ∀ {v x}, Integral v → read v = .ok x → Integral (value x)

/-- Records that are read by checking their shape and picking their fields. -/
theorem Faithful.of_fields {α : Type} {shape : Shape} {make : OrderedMap Value → α}
    {value : α → Value}
    (read_value : ∀ x, (do let es ← mapOf (value x); shape.check es; return make es) = .ok x)
    (integral : ∀ es : OrderedMap Value, (∀ e ∈ es, Integral e.2) → Integral (value (make es))) :
    Faithful (fun v => do let es ← mapOf v; shape.check es; return make es) value where
  read_value := read_value
  integral := by
    intro v x hv h
    obtain ⟨es, hes, h⟩ := bind_eq_ok.mp h
    obtain ⟨_, -, h⟩ := bind_eq_ok.mp h
    cases h
    exact integral es (integral_mapOf hv hes)

theorem faithful_lines : Faithful linesOf linesValue :=
  .of_fields (fun _ => rfl) fun es hes => by
    simp [linesValue, integral_map_iff, integral_pickOr hes, integral_zero]

theorem faithful_hotspot : Faithful hotspotOf hotspotValue :=
  .of_fields (fun _ => rfl) fun es hes => by
    simp [hotspotValue, integral_map_iff, integral_pick hes]

theorem faithful_edge : Faithful edgeOf edgeValue :=
  .of_fields (fun _ => rfl) fun es hes => by
    simp [edgeValue, integral_map_iff, integral_pick hes]

theorem faithful_package : Faithful packageOf packageValue :=
  .of_fields (fun _ => rfl) fun es hes => by
    simp [packageValue, integral_map_iff, integral_pick hes, integral_pickOr hes, Integral.str]

theorem faithful_largeFile : Faithful largeFileOf largeFileValue :=
  .of_fields (fun _ => rfl) fun es hes => by
    simp [largeFileValue, integral_map_iff, integral_pick hes]

theorem faithful_heavyPackage : Faithful heavyPackageOf heavyPackageValue :=
  .of_fields (fun _ => rfl) fun es hes => by
    simp [heavyPackageValue, integral_map_iff, integral_pick hes]

/-- A file holds a record of its own, its line counts. -/
theorem faithful_file : Faithful fileOf fileValue where
  read_value _ := rfl
  integral := by
    intro v x hv h
    obtain ⟨es, hes, h⟩ := bind_eq_ok.mp h
    obtain ⟨loc, hloc, h⟩ := bind_eq_ok.mp h
    obtain ⟨lines, hlines, h⟩ := bind_eq_ok.mp h
    obtain ⟨_, -, h⟩ := bind_eq_ok.mp h
    cases h
    have hpick := integral_pick (integral_mapOf hv hes)
    have hcounts := faithful_lines.integral (integral_need hv hloc) hlines
    simp [fileValue, integral_map_iff, hpick, hcounts]

/-- A finding names its severity and its source. -/
theorem faithful_finding : Faithful findingOf findingValue where
  read_value := by
    -- the names of severities and sources are looked up, so they are tried one by one
    rintro ⟨name, severity, description, source, category, file, line⟩
    cases severity <;> cases source <;> rfl
  integral := by
    intro v x hv h
    obtain ⟨es, hes, h⟩ := bind_eq_ok.mp h
    obtain ⟨_, -, h⟩ := bind_eq_ok.mp h
    obtain ⟨severity, -, h⟩ := bind_eq_ok.mp h
    obtain ⟨_, -, h⟩ := bind_eq_ok.mp h
    obtain ⟨source, -, h⟩ := bind_eq_ok.mp h
    obtain ⟨_, -, h⟩ := bind_eq_ok.mp h
    cases h
    have hpick := integral_pick (integral_mapOf hv hes)
    simp [findingValue, integral_map_iff, hpick, Integral.str]

/-! ### Lists of records -/

section Items

variable {α : Type} {read : Value → Except Fault α} {value : α → Value}

/-- A written list of records reads back. -/
theorem Faithful.itemsIn_eq (faithful : Faithful read value) {entries : OrderedMap Value}
    {key : String} {xs : List α} (h : pickOr entries key (.list []) = .list (xs.map value)) :
    itemsIn entries key read = .ok xs := by
  refine bind_eq_ok.mpr ⟨xs.map value, by rw [h]; rfl, ?_⟩
  rw [mapM_eq_ok_iff, List.forall₂_map_left_iff, List.forall₂_same]
  intro x _
  exact faithful.read_value x

/-- A list of records that was read without fractions is written without fractions. -/
theorem Faithful.integral_itemsIn (faithful : Faithful read value) {entries : OrderedMap Value}
    (hes : ∀ e ∈ entries, Integral e.2) {key : String} {xs : List α}
    (h : itemsIn entries key read = .ok xs) : Integral (.list (xs.map value)) := by
  obtain ⟨items, hitems, hread⟩ := bind_eq_ok.mp h
  have hall := integral_itemsOf (integral_pickOr hes key (integral_list_iff.mpr (by simp))) hitems
  refine .list fun w hw => ?_
  obtain ⟨x, hx, rfl⟩ := List.mem_map.mp hw
  obtain ⟨v, hv, hvx⟩ := exists_of_mem_mapM hread hx
  exact faithful.integral (hall v hv) hvx

end Items

/-! ### Reports -/

/-- A written report reads back. -/
theorem ofValue_toValue (r : StoredReport) : ofValue r.toValue = .ok r := by
  -- the steps of the reader, in its own order
  refine bind_eq_ok.mpr ⟨statsValue r.stats, rfl, ?_⟩
  refine bind_eq_ok.mpr ⟨_, rfl, ?_⟩
  refine bind_eq_ok.mpr ⟨r.stats.files, faithful_file.itemsIn_eq rfl, ?_⟩
  refine bind_eq_ok.mpr ⟨_, rfl, ?_⟩
  refine bind_eq_ok.mpr ⟨usageValue r.packages, rfl, ?_⟩
  refine bind_eq_ok.mpr ⟨_, rfl, ?_⟩
  refine bind_eq_ok.mpr ⟨r.packages.outdated, faithful_package.itemsIn_eq rfl, ?_⟩
  refine bind_eq_ok.mpr ⟨performanceValue r.performance, rfl, ?_⟩
  refine bind_eq_ok.mpr ⟨_, rfl, ?_⟩
  refine bind_eq_ok.mpr ⟨r.performance.largeFiles, faithful_largeFile.itemsIn_eq rfl, ?_⟩
  refine bind_eq_ok.mpr ⟨r.performance.heavyPackages, faithful_heavyPackage.itemsIn_eq rfl, ?_⟩
  refine bind_eq_ok.mpr ⟨r.projectName, rfl, ?_⟩
  refine bind_eq_ok.mpr ⟨r.timestamp, rfl, ?_⟩
  refine check_eq_ok.mpr ⟨rfl, ?_⟩
  refine bind_eq_ok.mpr ⟨(), rfl, ?_⟩
  refine bind_eq_ok.mpr ⟨_, rfl, ?_⟩
  refine bind_eq_ok.mpr ⟨r.hotspots, faithful_hotspot.itemsIn_eq rfl, ?_⟩
  refine bind_eq_ok.mpr ⟨_, rfl, ?_⟩
  refine bind_eq_ok.mpr ⟨r.nodes, rfl, ?_⟩
  refine bind_eq_ok.mpr ⟨r.edges, faithful_edge.itemsIn_eq rfl, ?_⟩
  refine check_eq_ok.mpr ⟨rfl, ?_⟩
  refine bind_eq_ok.mpr ⟨(), rfl, ?_⟩
  refine bind_eq_ok.mpr ⟨r.security, faithful_finding.itemsIn_eq rfl, ?_⟩
  refine check_eq_ok.mpr ⟨rfl, ?_⟩
  refine bind_eq_ok.mpr ⟨(), rfl, ?_⟩
  exact bind_eq_ok.mpr ⟨r.score, rfl, rfl⟩

/-- No fraction comes in between reading and writing a report. -/
theorem integral_toValue {v : Value} {r : StoredReport} (hv : Integral v)
    (h : ofValue v = .ok r) : Integral r.toValue := by
  -- the run is taken apart in its own order; checks of shapes bring nothing in
  obtain ⟨statsIn, hstatsIn, h⟩ := bind_eq_ok.mp h
  obtain ⟨stats, hstats, h⟩ := bind_eq_ok.mp h
  obtain ⟨files, hfiles, h⟩ := bind_eq_ok.mp h
  obtain ⟨graph, hgraph, h⟩ := bind_eq_ok.mp h
  obtain ⟨packagesIn, hpackagesIn, h⟩ := bind_eq_ok.mp h
  obtain ⟨packages, hpackages, h⟩ := bind_eq_ok.mp h
  obtain ⟨outdated, houtdated, h⟩ := bind_eq_ok.mp h
  obtain ⟨performanceIn, hperformanceIn, h⟩ := bind_eq_ok.mp h
  obtain ⟨performance, hperformance, h⟩ := bind_eq_ok.mp h
  obtain ⟨largeFiles, hlargeFiles, h⟩ := bind_eq_ok.mp h
  obtain ⟨heavyPackages, hheavyPackages, h⟩ := bind_eq_ok.mp h
  obtain ⟨projectName, hprojectName, h⟩ := bind_eq_ok.mp h
  obtain ⟨timestamp, htimestamp, h⟩ := bind_eq_ok.mp h
  obtain ⟨-, h⟩ := check_eq_ok.mp h
  obtain ⟨_, -, h⟩ := bind_eq_ok.mp h
  obtain ⟨es, hes, h⟩ := bind_eq_ok.mp h
  obtain ⟨hotspots, hhotspots, h⟩ := bind_eq_ok.mp h
  -- the graph was needed early, and is found to be a map only here
  obtain ⟨graphEntries, rfl⟩ : ∃ graphEntries, graph = .map graphEntries := by
    cases graph with
    | map graphEntries => exact ⟨graphEntries, rfl⟩
    | _ => cases h
  obtain ⟨_, hgraphEntries, h⟩ := bind_eq_ok.mp h
  cases hgraphEntries
  obtain ⟨nodes, hnodes, h⟩ := bind_eq_ok.mp h
  obtain ⟨edges, hedges, h⟩ := bind_eq_ok.mp h
  obtain ⟨-, h⟩ := check_eq_ok.mp h
  obtain ⟨_, -, h⟩ := bind_eq_ok.mp h
  obtain ⟨security, hsecurity, h⟩ := bind_eq_ok.mp h
  obtain ⟨-, h⟩ := check_eq_ok.mp h
  obtain ⟨_, -, h⟩ := bind_eq_ok.mp h
  obtain ⟨score, hscore, h⟩ := bind_eq_ok.mp h
  cases h
  have hfields := integral_mapOf hv hes
  have hstatsFields := integral_fieldsOf (integral_need hv hstatsIn) hstats
  have hpackageFields := integral_fieldsOf (integral_need hv hpackagesIn) hpackages
  have hperformanceFields := integral_fieldsOf (integral_need hv hperformanceIn) hperformance
  have hgraphFields := (integral_map_iff.mp (integral_need hv hgraph)).2
  have hempty : Integral (.list []) := integral_list_iff.mpr (by simp)
  have hemptyMap : Integral (.map []) := integral_map_iff.mpr (by simp)
  -- and the report is put together from its parts in the order in which they are written
  refine .map (by simp) ?_
  simp only [List.forall_mem_cons]
  refine ⟨integral_need hv hprojectName, integral_need hv htimestamp, ?stats,
    faithful_hotspot.integral_itemsIn hfields hhotspots, ?graph, ?packages,
    faithful_finding.integral_itemsIn hfields hsecurity, ?performance, integral_need hv hscore,
    by simp⟩
  case stats =>
    have hlist := faithful_file.integral_itemsIn hstatsFields hfiles
    simp [statsValue, integral_map_iff, integral_pickOr hstatsFields, integral_zero, hemptyMap,
      hlist]
  case graph =>
    have hitems := integral_itemsOf (integral_pickOr hgraphFields "nodes" hempty) hnodes
    have hlist := faithful_edge.integral_itemsIn hgraphFields hedges
    simp [integral_map_iff, integral_list_iff.mpr hitems, hlist]
  case packages =>
    have hlist := faithful_package.integral_itemsIn hpackageFields houtdated
    simp [usageValue, integral_map_iff, integral_pickOr hpackageFields, hempty, hemptyMap, hlist]
  case performance =>
    have hfileList := faithful_largeFile.integral_itemsIn hperformanceFields hlargeFiles
    have hpackageList := faithful_heavyPackage.integral_itemsIn hperformanceFields hheavyPackages
    simp [performanceValue, integral_map_iff, integral_pickOr hperformanceFields, integral_zero,
      Integral.str, hfileList, hpackageList]

end StoredReport

/-- **A report and its text.** A report that was read from a value without fractions is read back
from its own text: every list and every map in its order, every text and every integer unchanged.
Nothing that a report holds is lost on the way: whatever it holds, it is what is read from the value
that is written for it, and without fractions that value is what its text says. -/
theorem storedReport_text_reads_back :
    (∀ d r, Integral d → StoredReport.ofValue d = .ok r →
      ∃ v, Json.parse r.text.toList = .ok v ∧ StoredReport.ofValue v = .ok r) ∧
    ∀ r : StoredReport, StoredReport.ofValue r.toValue = .ok r ∧
      (Integral r.toValue → Json.parse r.text.toList = .ok r.toValue) :=
  ⟨fun _ r hd h => ⟨r.toValue, parse_render (StoredReport.integral_toValue hd h),
      StoredReport.ofValue_toValue r⟩,
    fun r => ⟨StoredReport.ofValue_toValue r, parse_render⟩⟩

/-- A value with two files, an import and a finding. It has a quote, a line break and a character
beyond the basic plane in a text, a text in the place of a list, and a list in the place of a map. -/
def escapedReport : Value :=
  .map [("project_name", .str "\"a\n\\𝄞"), ("timestamp", .null),
    ("stats", .map [("total_loc", .int (-7)), ("file_list", .list
      [.map [("path", .str "b.js"), ("size", .int 4096), ("extension", .str ".js"),
          ("loc", .map [("total_lines", .int 9)])],
        .map [("path", .str "a.js"), ("size", .int 0), ("extension", .str ".js"),
          ("loc", .map [])]])]),
    ("dependencies", .map [("nodes", .str "ab"),
      ("edges", .list [.map [("source", .str "b.js"), ("target", .str "a.js")]])]),
    ("package_dependencies", .list []),
    ("security", .list [.map [("severity", .str "high"), ("source", .str "code-scan"),
      ("name", .str "eval"), ("description", .str "\t"), ("category", .str "injection"),
      ("line", .int 3)]]),
    ("performance", .map []), ("score", .int 100)]

/-- The report that is read back holds the files, the import and the finding of the value. -/
theorem storedReport_text_reads_back_escaped :
    ∃ r v, StoredReport.ofValue escapedReport = .ok r ∧ Json.parse r.text.toList = .ok v ∧
      StoredReport.ofValue v = .ok r ∧ r.projectName = .str "\"a\n\\𝄞" ∧
      r.stats.totalLines = .int (-7) ∧
      r.stats.files = [⟨.str "b.js", .int 4096, .str ".js", { total := .int 9 }⟩,
        ⟨.str "a.js", .int 0, .str ".js", {}⟩] ∧
      r.nodes = [.str "a", .str "b"] ∧ r.edges = [⟨.str "b.js", .str "a.js"⟩] ∧
      r.security = [{ name := .str "eval", severity := .high, description := .str "\t"
                      source := .codeScan, category := .str "injection", line := .int 3 }] := by
  have hd : Integral escapedReport := by
    simp (disch := decide) [escapedReport, integral_map_iff, integral_list_iff, Integral.str,
      Integral.null, integral_of_natAbs_le]
  have hread : StoredReport.ofValue escapedReport = .ok _ := rfl
  obtain ⟨v, hv, hback⟩ := storedReport_text_reads_back.1 escapedReport _ hd hread
  exact ⟨_, v, hread, hv, hback, rfl, rfl, rfl, rfl, rfl, rfl⟩

end ScriptHealth
