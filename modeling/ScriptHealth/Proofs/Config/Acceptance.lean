import ScriptHealth.Proofs.Config.Escape

/-!
# Which settings are accepted

Every setting has a declared kind, but loading asks only the environment for it. Other settings are
compared with their least values, the extensions are run through and the verbosity is looked up, and
what passes these checks is accepted, whatever its kind. Settings that are not checked are accepted
as they are, and weights that are no table are dropped. The theory here says exactly which supplied
settings are let through, and that all of them take effect except for those weights.

## Main definitions

* `Config.Inputs.supplies` — the setting that is supplied for a name, if any
* `Config.checks`, `Config.Accepts` — what is let through
* `Config.isDeclared` — whether a setting is of its declared kind
* `Config.Takes` — a configuration in which a setting has taken effect

## Main results

* `Config.get?_merge_eq_supplies` — the merged layers hold what is supplied
* `Config.exists_ofSettings_iff` — which settings give a configuration
* `Config.load_returns_iff_accepted` — loading returns exactly if everything supplied is accepted
* `Config.load_not_sound` — settings of other kinds are accepted, and weights are dropped
-/

namespace ScriptHealth

open OrderedMap Outcome

/-- No entry has an unknown name if all keys are known. -/
theorem OrderedMap.find?_unknown_eq_none_iff {α : Type} {m : OrderedMap α} {known : List String} :
    (m.find? fun e => !known.contains e.1) = none ↔ ∀ name ∈ m.keys, name ∈ known := by
  rw [List.find?_eq_none, OrderedMap.keys, List.forall_mem_map]
  refine forall₂_congr fun e _ => ?_
  rw [Bool.not_eq_true', Bool.not_eq_false, List.contains_iff_mem]

/-! ### Weights over the defaults -/

namespace Weights

/-- Weights that are the given ones, and the defaults where nothing is given. -/
structure Overlays (w : Weights) (given : OrderedMap Value) : Prop where
  known : ∀ name ∈ given.keys, name ∈ names
  entries : w.entries.map (fun e => (e.1, e.2.toValue)) =
    ({} : Weights).entries.map fun d => (d.1, (given.get? d.1).getD d.2.toValue)

theorem toValue_of_pick {given : OrderedMap Value} {name : String} {default q : Quantity}
    (h : pick given name default = .ok q) :
    q.toValue = (given.get? name).getD default.toValue := by
  unfold pick at h
  split at h
  · rename_i hnone
    cases h
    rw [hnone]
    rfl
  · rename_i v hv
    rw [hv]
    split at h
    · cases h
    · rename_i r hr
      split at h
      · cases h
      · cases h
        exact Quantity.toValue_of_ofValue? hr

/-- Accepted weights are exactly the given ones over the defaults. -/
theorem overlays_of_ofEntries {given : OrderedMap Value} {w : Weights}
    (h : ofEntries given = .ok w) : w.Overlays given := by
  refine ⟨?_, ?_⟩
  · rw [← find?_unknown_eq_none_iff, Option.eq_none_iff_forall_ne_some]
    intro e he
    unfold ofEntries at h
    rw [he] at h
    cases h
  · have hpicked := forall₂_picked_of_ofEntries h
    have hforall : List.Forall₂ (· = ·)
        (({} : Weights).entries.map fun d => (d.1, (given.get? d.1).getD d.2.toValue))
        (w.entries.map fun e => (e.1, e.2.toValue)) := by
      rw [List.forall₂_map_left_iff, List.forall₂_map_right_iff]
      refine hpicked.imp ?_
      rintro d e ⟨hname, hpick⟩
      rw [hname, toValue_of_pick hpick, hname]
    rw [List.forall₂_eq_eq_eq] at hforall
    exact hforall.symm

end Weights

namespace Config

/-! ### What is supplied -/

/-- The sources of a name, the strongest first. Of the caller the two switches are not taken as
settings. -/
def Source.behind (name : String) : List Source :=
  if name = "verbose" ∨ name = "quiet" then [.environment, .namedFile, .projectFile, .homeFile]
  else ranked

/-- The setting that is supplied for a name: ready-made weights, or what the strongest source gives
that gives anything. -/
def Inputs.supplies (i : Inputs) (name : String) : Option Setting :=
  (Layers.readyMade i.weights name).or
    (((Source.behind name).findSome? (i.gives name)).map .value)

/-- The merged layers hold what is supplied. -/
theorem get?_merge_eq_supplies {i : Inputs} (hkeys : i.overrides.keys.Nodup) {l : Layers}
    (hl : i.layers = .ok l) (name : String) : l.merge.get? name = i.supplies name := by
  obtain ⟨hoverrides, hweights, henvironment, hfiles, hgives⟩ := strongest_of_layers hl
  rw [Layers.get?_merge_eq_or (hoverrides ▸ hkeys) henvironment hfiles,
    Layers.get?_callerSettings (hoverrides ▸ hkeys), (hgives name).1, (hgives name).2, hoverrides,
    hweights]
  unfold Inputs.supplies Source.behind
  split
  · rename_i hswitch
    have hne : name ≠ "weights" := by
      rcases hswitch with rfl | rfl <;> decide
    rw [Layers.readyMade_of_ne hne, ← findSome?_cons_eq_or]
  · by_cases hname : name = "weights"
    · -- a switch gives the verbosity only
      have hswitch (switch : String) : switchGives i.overrides switch name = none :=
        if_neg fun h => absurd (hname.symm.trans h.1) (by decide)
      simp only [Source.ranked, findSome?_cons_eq_or, Option.map_or, Option.or_assoc, Inputs.gives,
        hswitch, Option.none_or, Option.map_none]
    · rw [Layers.readyMade_of_ne hname]
      simp only [Source.ranked, findSome?_cons_eq_or, Option.map_or, Option.or_assoc, Inputs.gives,
        Option.none_or]

/-! ### What is let through -/

/-- A number that is not below a bound: a switch, an integer or a fraction. -/
def IsNumberFrom (least : Int) (v : Value) : Prop :=
  ∃ q, Quantity.ofValue? v = some q ∧ q.lt (.int least) = false

/-- Something that is not empty, whose items are texts that start with a dot. -/
def AreExtensions (v : Value) : Prop :=
  v.isTruthy = true ∧ ∃ vs, items? v = some vs ∧
    ∀ x ∈ vs, ∃ s, x = .str s ∧ s.toList.head? = some '.'

/-- One of three words. -/
def IsVerbosity (v : Value) : Prop := ∃ s ∈ ["quiet", "normal", "verbose"], v = .str s

/-- What the settings are checked for, all but the weights. -/
def checks : OrderedMap (Value → Prop) :=
  [("workers", fun v => v = .null ∨ IsNumberFrom 1 v), ("max_nodes", IsNumberFrom 1),
   ("max_edges", IsNumberFrom 1), ("enable_audit", fun _ => True),
   ("audit_timeout_seconds", IsNumberFrom 1), ("enable_git", fun _ => True),
   ("hotspot_limit", IsNumberFrom 0), ("extensions", AreExtensions),
   ("exclude_dirs", fun _ => True), ("exclude_files", fun _ => True),
   ("output_dir", fun _ => True), ("verbosity", IsVerbosity)]

/-- A setting is let through: it has a known name and passes its check. Of weights only a table is
checked. -/
def Accepts (name : String) : Setting → Prop
  | .weights _ => name = "weights"
  | .value v =>
    if name = "weights" then ∀ entries, v = .map entries → ∃ w, Weights.ofEntries entries = .ok w
    else ∃ check, checks.get? name = some check ∧ check v

theorem exists_atLeast_iff {least : Int} {complaint : String} {v : Value} :
    (∃ q, atLeast least complaint v = .ok q) ↔ IsNumberFrom least v := by
  unfold atLeast IsNumberFrom
  cases Quantity.ofValue? v with
  | none => simp
  | some q => cases hlt : q.lt (.int least) <;> simp [hlt]

theorem checkWorkers_eq_ok_iff {v : Value} :
    checkWorkers v = .ok () ↔ v = .null ∨ IsNumberFrom 1 v := by
  have hmap {x : Except Fault Quantity} :
      (x.map fun _ => ()) = .ok () ↔ ∃ q, x = .ok q := by
    cases x <;> simp [Except.map]
  unfold checkWorkers
  split
  · exact iff_of_true rfl (.inl rfl)
  · rename_i hne
    rw [hmap, exists_atLeast_iff, or_iff_right hne]

theorem checkExtensions_eq_ok_iff {v : Value} :
    checkExtensions v = .ok () ↔ AreExtensions v := by
  have hitem (x : Value) :
      checkExtension x = .ok () ↔ ∃ s, x = .str s ∧ s.toList.head? = some '.' := by
    unfold checkExtension
    split
    · split <;> simp_all
    · simp_all
  unfold checkExtensions AreExtensions
  cases v.isTruthy with
  | false => simp
  | true =>
    cases items? v with
    | none => simp
    | some vs =>
      have hall : vs.forM checkExtension = .ok () ↔ _ := forM_eq_ok_iff
      simpa [hitem] using hall

theorem exists_readVerbosity_iff {v : Value} :
    (∃ s, readVerbosity v = .ok s) ↔ IsVerbosity v := by
  unfold readVerbosity IsVerbosity
  dsimp only
  split
  · split <;> simp_all
  · simp_all

theorem checkNames_eq_ok_iff {settings : OrderedMap Setting} :
    checkNames settings = .ok () ↔ ∀ name ∈ settings.keys, name ∈ names := by
  rw [← find?_unknown_eq_none_iff]
  unfold checkNames
  cases settings.find? fun s => !names.contains s.1 with
  | none => exact iff_of_true rfl rfl
  | some s => exact iff_of_false nofun nofun

/-- The default of a setting. -/
def defaultOf (name : String) : Value := (({} : Config).values.get? name).getD .null

/-- Settings give a configuration exactly if their names are known and each one passes its check,
given or not. -/
theorem exists_ofSettings_iff {settings : OrderedMap Setting} :
    (∃ c, ofSettings settings = .ok c) ↔ (∀ name ∈ settings.keys, name ∈ names) ∧
      ∀ e ∈ checks, e.2 (given settings e.1 (defaultOf e.1)) := by
  simp only [checks, List.forall_mem_cons, List.not_mem_nil, false_imp_iff, implies_true, and_true,
    true_and]
  constructor
  · -- the checks are peeled off in the order in which they are made
    rintro ⟨c, h⟩
    unfold ofSettings at h
    obtain ⟨_, hnames, h⟩ := bind_eq_ok.mp h
    obtain ⟨_, hworkers, h⟩ := bind_eq_ok.mp h
    obtain ⟨nodes, hnodes, h⟩ := bind_eq_ok.mp h
    obtain ⟨edges, hedges, h⟩ := bind_eq_ok.mp h
    obtain ⟨timeout, htimeout, h⟩ := bind_eq_ok.mp h
    obtain ⟨hotspots, hhotspots, h⟩ := bind_eq_ok.mp h
    obtain ⟨_, hextensions, h⟩ := bind_eq_ok.mp h
    obtain ⟨verbosity, hverbosity, -⟩ := bind_eq_ok.mp h
    exact ⟨checkNames_eq_ok_iff.mp hnames, checkWorkers_eq_ok_iff.mp hworkers,
      exists_atLeast_iff.mp ⟨nodes, hnodes⟩, exists_atLeast_iff.mp ⟨edges, hedges⟩,
      exists_atLeast_iff.mp ⟨timeout, htimeout⟩, exists_atLeast_iff.mp ⟨hotspots, hhotspots⟩,
      checkExtensions_eq_ok_iff.mp hextensions, exists_readVerbosity_iff.mp ⟨verbosity, hverbosity⟩⟩
  · rintro ⟨hnames, hworkers, hnodes, hedges, htimeout, hhotspots, hextensions, hverbosity⟩
    refine exists_bind_eq_ok.mpr ⟨(), checkNames_eq_ok_iff.mpr hnames, ?_⟩
    refine exists_bind_eq_ok.mpr ⟨(), checkWorkers_eq_ok_iff.mpr hworkers, ?_⟩
    refine exists_bind_eq_ok.mpr ((exists_atLeast_iff.mpr hnodes).imp fun nodes h => ⟨h, ?_⟩)
    refine exists_bind_eq_ok.mpr ((exists_atLeast_iff.mpr hedges).imp fun edges h => ⟨h, ?_⟩)
    refine exists_bind_eq_ok.mpr ((exists_atLeast_iff.mpr htimeout).imp fun timeout h => ⟨h, ?_⟩)
    refine exists_bind_eq_ok.mpr ((exists_atLeast_iff.mpr hhotspots).imp fun hotspots h => ⟨h, ?_⟩)
    refine exists_bind_eq_ok.mpr ⟨(), checkExtensions_eq_ok_iff.mpr hextensions, ?_⟩
    exact exists_bind_eq_ok.mpr
      ((exists_readVerbosity_iff.mpr hverbosity).imp fun verbosity h => ⟨h, _, rfl⟩)

/-- Every default passes its own check. -/
theorem checks_default : ∀ e ∈ checks, e.2 (defaultOf e.1) := by
  simp only [checks, List.forall_mem_cons, List.not_mem_nil, false_imp_iff, implies_true, and_true,
    true_and]
  refine ⟨.inl rfl, ⟨_, rfl, rfl⟩, ⟨_, rfl, rfl⟩, ⟨_, rfl, rfl⟩, ⟨_, rfl, rfl⟩, ⟨rfl, _, rfl, ?_⟩,
    ⟨"normal", by decide, rfl⟩⟩
  simp

/-- So only the settings that are given have to pass theirs. -/
theorem forall_checks_given_iff {settings : OrderedMap Setting} :
    (∀ e ∈ checks, e.2 (given settings e.1 (defaultOf e.1))) ↔
      ∀ e ∈ checks, ∀ v, settings.get? e.1 = some (.value v) → e.2 v := by
  refine forall₂_congr fun e he => ?_
  unfold given
  split
  · rename_i v hv
    rw [hv]
    exact ⟨fun h _ heq => by cases heq; exact h, fun h => h v rfl⟩
  · rename_i hnone
    exact ⟨fun _ v hv => absurd hv (hnone v), fun _ => checks_default e he⟩

/-! ### Weights among the settings -/

/-- What becomes of the weights among settings: a table is read, ready-made weights stay, and
anything else is dropped. -/
theorem readWeights_cases {settings read : OrderedMap Setting}
    (h : Layers.readWeights settings = .ok read) :
    (∃ entries w, settings.get? "weights" = some (.value (.map entries)) ∧
        Weights.ofEntries entries = .ok w ∧ read.get? "weights" = some (.weights w)) ∨
      (∃ w, settings.get? "weights" = some (.weights w) ∧
        read.get? "weights" = some (.weights w)) ∨
      (∀ w, settings.get? "weights" ≠ some (.weights w)) ∧
        (∀ entries, settings.get? "weights" ≠ some (.value (.map entries))) ∧
        read.get? "weights" = none := by
  have hinsert (w : Weights) :
      ((settings.erase "weights").insert "weights" (.weights w)).get? "weights" =
        some (.weights w) := by
    rw [get?_insert, if_pos rfl]
  unfold Layers.readWeights at h
  dsimp only at h
  split at h
  · rename_i entries hentries
    split at h
    · rename_i w hw
      cases h
      exact .inl ⟨entries, w, hentries, hw, hinsert w⟩
    all_goals cases h
  · rename_i w hw
    cases h
    exact .inr (.inl ⟨w, hw, hinsert w⟩)
  · rename_i htable hready
    cases h
    exact .inr (.inr ⟨hready, htable, get?_erase_self _ _⟩)

/-- The weights can be read exactly if they are accepted. -/
theorem exists_readWeights_iff {settings : OrderedMap Setting} :
    (∃ read, Layers.readWeights settings = .ok read) ↔
      ∀ s, settings.get? "weights" = some s → Accepts "weights" s := by
  constructor
  · rintro ⟨read, h⟩ s hs
    rcases readWeights_cases h with ⟨entries, w, htable, hw, -⟩ | ⟨w, hready, -⟩ | ⟨hready, hother, -⟩
    · cases hs.symm.trans htable
      intro _ heq
      cases heq
      exact ⟨w, hw⟩
    · cases hs.symm.trans hready
      rfl
    · cases s with
      | weights w => exact absurd hs (hready w)
      | value v =>
        rintro entries rfl
        exact absurd hs (hother entries)
  · intro h
    unfold Layers.readWeights
    dsimp only
    split
    · rename_i entries hentries
      obtain ⟨w, hw⟩ := h _ hentries entries rfl
      rw [hw]
      exact ⟨_, rfl⟩
    · exact ⟨_, rfl⟩
    · exact ⟨_, rfl⟩

theorem exists_ofLayers_iff {l : Layers} :
    (∃ c, ofLayers l = .ok c) ↔
      ∃ settings, Layers.readWeights l.merge = .ok settings ∧ ∃ c, ofSettings settings = .ok c := by
  constructor
  · rintro ⟨c, h⟩
    obtain ⟨settings, hsettings, hc⟩ := ofSettings_of_ofLayers h
    exact ⟨settings, hsettings, c, hc⟩
  · rintro ⟨settings, hsettings, c, hc⟩
    refine ⟨c, bind_eq_ok.mpr ⟨settings, hsettings, ?_⟩⟩
    rw [hc]
    rfl

/-! ### Loading -/

/-- The checked names and the weights are all names. -/
theorem names_eq : names = checks.keys ++ ["weights"] := rfl

theorem nodup_keys_checks : checks.keys.Nodup := by decide

/-- A value is accepted exactly if its name has a check that it passes. -/
theorem accepts_value_iff {name : String} (hname : name ≠ "weights") {v : Value} :
    Accepts name (.value v) ↔ ∃ check, (name, check) ∈ checks ∧ check v := by
  have hget (check : Value → Prop) : checks.get? name = some check ↔ (name, check) ∈ checks :=
    get?_eq_some_iff nodup_keys_checks
  rw [Accepts, if_neg hname]
  exact exists_congr fun check => and_congr_left' (hget check)

theorem mem_names_of_accepts {name : String} {s : Setting} (h : Accepts name s) :
    name ∈ names := by
  rw [names_eq, List.mem_append, List.mem_singleton]
  by_cases hname : name = "weights"
  · exact .inr hname
  · cases s with
    | weights _ => exact absurd h hname
    | value v =>
      obtain ⟨check, hcheck, -⟩ := (accepts_value_iff hname).mp h
      exact .inl (List.mem_map.mpr ⟨_, hcheck, rfl⟩)

/-- Only ready-made weights are a setting that is no value. -/
theorem exists_value_of_supplies {i : Inputs} {name : String} (hname : name ≠ "weights")
    {s : Setting} (h : i.supplies name = some s) : ∃ v, s = .value v := by
  rw [Inputs.supplies, Layers.readyMade_of_ne hname, Option.none_or] at h
  obtain ⟨v, -, rfl⟩ := Option.map_eq_some_iff.mp h
  exact ⟨v, rfl⟩

/-- Merged layers give a configuration exactly if everything supplied is accepted. -/
theorem exists_ofLayers_iff_accepts {i : Inputs} (hkeys : i.overrides.keys.Nodup) {l : Layers}
    (hl : i.layers = .ok l) :
    (∃ c, ofLayers l = .ok c) ↔ ∀ name s, i.supplies name = some s → Accepts name s := by
  have hmerge := get?_merge_eq_supplies hkeys hl
  rw [exists_ofLayers_iff]
  constructor
  · rintro ⟨settings, hread, hc⟩ name s hs
    rw [← hmerge] at hs
    -- weights are judged when they are read, all other settings behind that
    by_cases hname : name = "weights"
    · subst hname
      exact exists_readWeights_iff.mp ⟨settings, hread⟩ s hs
    · rw [exists_ofSettings_iff, forall_checks_given_iff] at hc
      obtain ⟨v, rfl⟩ := exists_value_of_supplies hname ((hmerge name).symm.trans hs)
      rw [← Layers.get?_readWeights hread hname] at hs
      have hknown : name ∈ names :=
        hc.1 name (List.mem_map.mpr ⟨_, mem_of_get?_eq_some hs, rfl⟩)
      rw [names_eq, List.mem_append, List.mem_singleton] at hknown
      obtain ⟨⟨_, check⟩, hcheck, rfl⟩ := List.mem_map.mp (hknown.resolve_right hname)
      exact (accepts_value_iff hname).mpr ⟨check, hcheck, hc.2 _ hcheck v hs⟩
  · intro haccepts
    obtain ⟨settings, hread⟩ := exists_readWeights_iff.mpr fun s hs =>
      haccepts "weights" s ((hmerge _).symm.trans hs)
    refine ⟨settings, hread, ?_⟩
    rw [exists_ofSettings_iff, forall_checks_given_iff]
    have hsupplied {name : String} (hname : name ≠ "weights") {s : Setting}
        (hs : settings.get? name = some s) : Accepts name s :=
      haccepts name s (by rw [← hmerge, ← Layers.get?_readWeights hread hname, hs])
    refine ⟨fun name hname => ?_, fun e he v hv => ?_⟩
    · -- weights that were read have a known name, and so has everything that is accepted
      by_cases hweights : name = "weights"
      · rw [hweights]
        decide
      · have hget : settings.get? name ≠ none := fun h => get?_eq_none_iff.mp h hname
        obtain ⟨s, hs⟩ := Option.ne_none_iff_exists'.mp hget
        exact mem_names_of_accepts (hsupplied hweights hs)
    · have hname : e.1 ≠ "weights" := by
        intro h
        have hmem : "weights" ∈ checks.keys := h ▸ List.mem_map.mpr ⟨e, he, rfl⟩
        exact absurd hmem (by decide)
      -- a name has one check, so the one that was passed is the one that is asked for
      obtain ⟨check, hcheck, hpass⟩ := (accepts_value_iff hname).mp (hsupplied hname hv)
      have hget {check : Value → Prop} (h : (e.1, check) ∈ checks) : checks.get? e.1 = some check :=
        (get?_eq_some_iff nodup_keys_checks).mpr h
      rw [Option.some.inj ((hget he).symm.trans (hget hcheck))]
      exact hpass

/-- A configuration in which a setting has taken effect. -/
def Takes (c : Config) (name : String) : Setting → Prop
  | .weights w => c.weights = w
  | .value v =>
    if name = "weights" then ∃ entries, v = .map entries ∧ c.weights.Overlays entries
    else c.values.get? name = some v

/-- Weights that are dropped: a value that is no table. -/
def IsDropped (name : String) (s : Setting) : Prop :=
  name = "weights" ∧ ∃ v, s = .value v ∧ ∀ entries, v ≠ .map entries

theorem weights_of_ofSettings {settings : OrderedMap Setting} {c : Config}
    (h : ofSettings settings = .ok c) :
    c.weights = match settings.get? "weights" with
      | some (.weights w) => w
      | _ => {} := by
  unfold ofSettings at h
  iterate 8 obtain ⟨_, -, h⟩ := bind_eq_ok.mp h
  cases h
  rfl

/-- What is supplied has taken effect, except for weights that are no table: they leave the
defaults. -/
theorem takes_of_load {i : Inputs} (hkeys : i.overrides.keys.Nodup) {c : Config}
    (h : i.load = .ok c) {name : String} {s : Setting} (hs : i.supplies name = some s) :
    c.Takes name s ∨ IsDropped name s ∧ c.weights = {} := by
  obtain ⟨l, hl, hc⟩ := bind_eq_ok.mp h
  obtain ⟨settings, hread, hc⟩ := ofSettings_of_ofLayers hc
  have hweights := weights_of_ofSettings hc
  have hmerge := get?_merge_eq_supplies hkeys hl
  rw [← hmerge] at hs
  by_cases hname : name = "weights"
  · subst hname
    rcases readWeights_cases hread with
      ⟨entries, w, htable, hw, hget⟩ | ⟨w, hready, hget⟩ | ⟨hready, hother, hget⟩
    · cases hs.symm.trans htable
      rw [hget] at hweights
      refine .inl ⟨entries, rfl, ?_⟩
      rw [hweights]
      exact Weights.overlays_of_ofEntries hw
    · cases hs.symm.trans hready
      rw [hget] at hweights
      exact .inl hweights
    · rw [hget] at hweights
      cases s with
      | weights w => exact absurd hs (hready w)
      | value v =>
        refine .inr ⟨⟨rfl, v, rfl, ?_⟩, hweights⟩
        rintro entries rfl
        exact hother entries hs
  · obtain ⟨v, rfl⟩ := exists_value_of_supplies hname ((hmerge name).symm.trans hs)
    rw [← Layers.get?_readWeights hread hname] at hs
    have hknown : name ∈ names :=
      (exists_ofSettings_iff.mp ⟨c, hc⟩).1 name (List.mem_map.mpr ⟨_, mem_of_get?_eq_some hs, rfl⟩)
    obtain ⟨d, hd⟩ := exists_default hknown hname
    left
    rw [Takes, if_neg hname, values_of_ofSettings hc, get?_map (given settings), hd,
      Option.map_some, given, hs]

/-! ### Declared kinds -/

/-- Whether a value is a text. -/
def isText : Value → Bool
  | .str _ => true
  | _ => false

/-- Whether a value is a table. -/
def isTable : Value → Bool
  | .map _ => true
  | _ => false

/-- Whether a value is of a kind; the structured values of settings are lists of texts. -/
def isOfKind : SettingKind → Value → Bool
  | .switch, .bool _ => true
  | .integer, .int _ => true
  | .fraction, .real _ => true
  | .text, v => isText v
  | .structured, .list vs => vs.all isText
  | _, _ => false

/-- Whether a setting is of its declared kind; weights are a table, or ready-made. -/
def isDeclared (name : String) : Setting → Bool
  | .weights _ => name == "weights"
  | .value v =>
    if name = "weights" then isTable v
    else (OrderedMap.get? name Environment.kinds).any fun kind => isOfKind kind v

/-- What is read by a kind is of that kind. -/
theorem isOfKind_of_read {kind : SettingKind} {s : String} {v : Value}
    (h : Environment.read kind s = .ok (some v)) : isOfKind kind v = true := by
  have hmap {x : Except Fault Value} (hx : x.map some = .ok (some v)) : x = .ok v := by
    cases x with
    | error f => cases hx
    | ok u =>
      cases hx
      rfl
  cases kind with
  | switch =>
    have hread := hmap h
    unfold Environment.readSwitch at hread
    dsimp only at hread
    split at hread
    · cases hread
      rfl
    · split at hread
      · cases hread
        rfl
      · cases hread
  | integer =>
    have hread := hmap h
    unfold Environment.readInteger at hread
    split at hread
    · cases hread
      rfl
    · cases hread
    · cases hread
  | fraction =>
    have hread := hmap h
    unfold Environment.readFraction at hread
    split at hread
    · cases hread
      rfl
    · cases hread
  | text =>
    cases h
    rfl
  | structured => cases h

/-- The environment gives settings of their declared kinds only. -/
theorem isDeclared_of_environment {i : Inputs} {name : String} {v : Value}
    (h : i.gives name .environment = some v) : isDeclared name (.value v) = true := by
  rw [Inputs.gives, environmentGives] at h
  split at h
  · rename_i kind text hkind _
    have hread : Environment.read kind text = .ok (some v) :=
      eq_ok_of_toOption (Option.join_eq_some_iff.mp h)
    -- weights are declared as structured, and such a variable is never read
    have hname : name ≠ "weights" := by
      rintro rfl
      cases hkind
      cases hread
    rw [isDeclared, if_neg hname, hkind]
    exact isOfKind_of_read hread
  · cases h

/-- **Which settings are accepted.** When the files and the environment can be read, loading returns
exactly if every supplied setting is accepted: it has a known name and passes the check of that
name, which is a comparison for a number, a look at its items for the extensions, and nothing for
the switches, the excluded names and the output folder. A setting that is not accepted ends loading
with an issue about the configuration, or with an escape. Files are read by `Toml.parse` here, which
nests without a limit. In a configuration that is returned,
whatever was supplied has taken effect, the weights as the table over the defaults; only weights
that are no table are dropped. What comes from the environment is of its declared kind. -/
theorem load_returns_iff_accepted {i : Inputs} (hkeys : i.overrides.keys.Nodup) :
    ((∃ c, i.load = .ok c) ↔
        (∃ l, i.layers = .ok l) ∧ ∀ name s, i.supplies name = some s → Accepts name s) ∧
      (∀ name s, i.supplies name = some s → ¬Accepts name s →
        ∃ f, i.load = .error f ∧ (f.IsConfigurationIssue ∨ i.Escape f)) ∧
      (∀ c, i.load = .ok c → ∀ name s, i.supplies name = some s →
        c.Takes name s ∨ IsDropped name s ∧ c.weights = {}) ∧
      ∀ name v, i.gives name .environment = some v → isDeclared name (.value v) = true := by
  have hiff : (∃ c, i.load = .ok c) ↔
      (∃ l, i.layers = .ok l) ∧ ∀ name s, i.supplies name = some s → Accepts name s := by
    constructor
    · intro h
      obtain ⟨l, hl, hc⟩ := exists_bind_eq_ok.mp h
      exact ⟨⟨l, hl⟩, (exists_ofLayers_iff_accepts hkeys hl).mp hc⟩
    · rintro ⟨⟨l, hl⟩, haccepts⟩
      exact exists_bind_eq_ok.mpr ⟨l, hl, (exists_ofLayers_iff_accepts hkeys hl).mpr haccepts⟩
  refine ⟨hiff, fun name s hs hrefused => ?_, fun c hc name s hs => takes_of_load hkeys hc hs,
    fun name v => isDeclared_of_environment⟩
  cases hload : i.load with
  | ok c => exact absurd ((hiff.mp ⟨c, hload⟩).2 name s hs) hrefused
  | error f =>
    have hfails : FailsWith i.IssueOrEscape i.load :=
      failsWith_layers.bind fun _ hl => failsWith_ofLayers hl
    exact ⟨f, rfl, hfails f hload⟩

/-- Settings that are all of other kinds than declared. -/
def laxContent : ByteArray :=
  ("max_nodes = 1.5\nenable_audit = \"no\"\nextensions = \".\"\n" ++
    "exclude_dirs = \"build\"\noutput_dir = 5\nweights = 5\n").toUTF8

/-- A file with these settings. -/
def laxFile : Inputs := withProjectFile laxContent [] []

/-- The names of these settings. -/
def laxNames : List String :=
  ["max_nodes", "enable_audit", "extensions", "exclude_dirs", "output_dir", "weights"]

theorem parseFile_laxContent : ∃ settings,
    parseFile (Workspace.under "/" projectFileName) laxContent.data.toList = .ok settings ∧
      settings.keys = laxNames ∧ ∀ e ∈ settings, isDeclared e.1 (.value e.2) = false := by
  -- the kernel reads the file once, and all that is asked of the settings is one truth value
  have hparse : (parseFile (Workspace.under "/" projectFileName)
      laxContent.data.toList).toOption.any (fun settings => settings.keys == laxNames &&
        settings.all fun e => !isDeclared e.1 (.value e.2)) = true := by
    decide +kernel
  cases hcontent : parseFile (Workspace.under "/" projectFileName) laxContent.data.toList with
  | error f =>
    rw [hcontent] at hparse
    cases hparse
  | ok settings =>
    rw [hcontent] at hparse
    obtain ⟨hnames, hkinds⟩ := Bool.and_eq_true_iff.mp hparse
    refine ⟨settings, rfl, eq_of_beq hnames, fun e he => ?_⟩
    simpa using List.all_eq_true.mp hkinds e he

/-- What a file alone supplies is what stands in it. -/
theorem supplies_withProjectFile {content : ByteArray} {settings : OrderedMap Value}
    (h : parseFile (Workspace.under "/" projectFileName) content.data.toList = .ok settings)
    (name : String) :
    (withProjectFile content [] []).supplies name = (settings.get? name).map .value := by
  have hlayers : (withProjectFile content [] []).layers =
      .ok { files := [[], settings, []] } := by
    refine (layers_withProjectFile content [] []).trans ?_
    rw [h]
    rfl
  obtain ⟨-, -, henvironment, hfiles, -⟩ := strongest_of_layers hlayers
  have hkeys : (withProjectFile content [] []).overrides.keys.Nodup := List.nodup_nil
  rw [← get?_merge_eq_supplies hkeys hlayers, Layers.get?_merge_eq_or hkeys henvironment hfiles]
  have hnone : get? name ([] : OrderedMap Value) = none := rfl
  have hcaller : get? name (Layers.callerSettings { files := [[], settings, []] }) = none := rfl
  rw [hcaller, hnone]
  simp [hnone, findSome?_cons_eq_or]

theorem exists_load_laxFile : ∃ c, laxFile.load = .ok c := by
  have hok : laxFile.load.isOk = true := by
    rw [laxFile, load_withProjectFile]
    decide +kernel
  cases hload : laxFile.load with
  | ok c => exact ⟨c, rfl⟩
  | error f =>
    rw [hload] at hok
    cases hok

/-- Whatever the file supplies is of another kind than declared. -/
theorem supplies_laxFile (name : String) (hname : name ∈ laxNames) :
    ∃ v, laxFile.supplies name = some (.value v) ∧ isDeclared name (.value v) = false := by
  obtain ⟨settings, hparse, hkeys, hkinds⟩ := parseFile_laxContent
  have hnodup : settings.keys.Nodup := by
    rw [hkeys]
    decide
  rw [← hkeys] at hname
  obtain ⟨⟨name, v⟩, hv, rfl⟩ := List.mem_map.mp hname
  refine ⟨v, ?_, hkinds (name, v) hv⟩
  rw [laxFile, supplies_withProjectFile hparse, (get?_eq_some_iff hnodup).mpr hv]
  rfl

/-- A file whose settings are all of other kinds than declared is accepted. -/
theorem load_returns_iff_accepted_laxFile :
    laxFile.overrides.keys.Nodup ∧ (∃ c, laxFile.load = .ok c) ∧
      ∀ name ∈ laxNames, ∃ s, laxFile.supplies name = some s ∧ Accepts name s ∧
        isDeclared name s = false := by
  have hkeys : laxFile.overrides.keys.Nodup := List.nodup_nil
  have haccepts := ((load_returns_iff_accepted hkeys).1.mp exists_load_laxFile).2
  refine ⟨hkeys, exists_load_laxFile, fun name hname => ?_⟩
  obtain ⟨v, hv, hkind⟩ := supplies_laxFile name hname
  exact ⟨.value v, hv, haccepts name _ hv, hkind⟩

/-- Loading is not sound: settings of other kinds than declared take effect, and weights that are no
table are dropped without a word. -/
theorem load_not_sound :
    ∃ c, laxFile.load = .ok c ∧
      (∀ name ∈ laxNames, name ≠ "weights" → ∃ v, laxFile.supplies name = some (.value v) ∧
        isDeclared name (.value v) = false ∧ c.values.get? name = some v) ∧
      ∃ v, laxFile.supplies "weights" = some (.value v) ∧ isTable v = false ∧ c.weights = {} := by
  obtain ⟨c, hc⟩ := exists_load_laxFile
  have hkeys : laxFile.overrides.keys.Nodup := List.nodup_nil
  refine ⟨c, hc, fun name hname hweights => ?_, ?_⟩
  · obtain ⟨v, hv, hkind⟩ := supplies_laxFile name hname
    refine ⟨v, hv, hkind, ?_⟩
    rcases takes_of_load hkeys hc hv with htakes | ⟨hdropped, -⟩
    · rwa [Takes, if_neg hweights] at htakes
    · exact absurd hdropped.1 hweights
  · obtain ⟨v, hv, hkind⟩ := supplies_laxFile "weights" (by decide)
    refine ⟨v, hv, hkind, ?_⟩
    rcases takes_of_load hkeys hc hv with ⟨entries, rfl, -⟩ | ⟨-, hdefault⟩
    · cases hkind
    · exact hdefault

end Config

end ScriptHealth
