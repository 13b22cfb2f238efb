import ScriptHealth.Config.Files
import ScriptHealth.Proofs.Data.OrderedMap
import ScriptHealth.Proofs.Data.Outcome
import ScriptHealth.Proofs.Toml.Table
import ScriptHealth.Proofs.Workspace.Way

/-!
# The source of each setting

A setting can come from seven sources: two switches, the caller, the environment and three files.
Loading merges whole layers, one after the other; the theory here asks for a single name instead,
and every layer turns into one alternative in a ranking of the sources.

## Main definitions

* `Config.values` — the settings of a configuration under their names
* `Config.Inputs.gives` — what a source gives for a name
* `Config.Source.ranked` — the sources, the strongest first

## Main results

* `Layers.get?_merge` — what the merged layers have for a name
* `Config.get?_values_of_load` — a loaded setting is the default unless a source gives it
* `Config.load_takes_strongest_source` — the strongest source that gives a setting decides it, and
  nothing else has an influence
-/

namespace ScriptHealth

open OrderedMap Outcome

/-- The number in a value is the value. -/
theorem Quantity.toValue_of_ofValue? {v : Value} {q : Quantity} (h : ofValue? v = some q) :
    q.toValue = v := by
  cases v <;> cases h <;> rfl

namespace Config

/-- The settings of a configuration under their names, all but the weights. -/
def values (c : Config) : OrderedMap Value :=
  [("workers", c.workers), ("max_nodes", c.maxNodes.toValue), ("max_edges", c.maxEdges.toValue),
   ("enable_audit", c.enableAudit), ("audit_timeout_seconds", c.auditTimeout.toValue),
   ("enable_git", c.enableGit), ("hotspot_limit", c.hotspotLimit.toValue),
   ("extensions", c.extensions), ("exclude_dirs", c.excludeDirs),
   ("exclude_files", c.excludeFiles), ("output_dir", c.outputDir),
   ("verbosity", .str c.verbosity)]

/-- What a configuration is loaded from. -/
structure Inputs where
  workspace : Workspace
  /-- The path of the file that the caller names. -/
  named : Option String := none
  overrides : OrderedMap Value := []
  weights : Option Weights := none

/-- Where a setting can come from. -/
inductive Source where
  | quietSwitch
  | verboseSwitch
  | caller
  | environment
  | namedFile
  | projectFile
  | homeFile
  deriving DecidableEq, Repr

/-- The sources, the strongest first. -/
def Source.ranked : List Source :=
  [.quietSwitch, .verboseSwitch, .caller, .environment, .namedFile, .projectFile, .homeFile]

/-- A switch that is on gives the verbosity and nothing else. -/
def switchGives (overrides : OrderedMap Value) (switch name : String) : Option Value :=
  if name = "verbosity" ∧ (overrides.get? switch).any Value.isTruthy then some (.str switch)
  else none

/-- The caller gives what is not null. -/
def callerGives (overrides : OrderedMap Value) (name : String) : Option Value :=
  match overrides.get? name with
  | none | some .null => none
  | some v => some v

/-- The environment gives what the variable of the setting says when it is read by the kind of the
setting; `lookup` gives the text of a variable. -/
def environmentGives (lookup : String → Option String) (name : String) : Option Value :=
  match OrderedMap.get? name Environment.kinds, lookup (Environment.variableOf name) with
  | some kind, some s => (Environment.read kind s).toOption.join
  | _, _ => none

/-- A file gives what stands in it under the name. -/
def fileGives (w : Workspace) (path name : String) : Option Value :=
  (readFile w path).toOption.bind (OrderedMap.get? name)

namespace Inputs

variable (i : Inputs)

/-- Load the configuration. -/
def load : Except Fault Config := Config.load i.workspace i.named i.overrides i.weights

/-- What a source gives for a name. -/
def gives (name : String) : Source → Option Value
  | .quietSwitch => switchGives i.overrides "quiet" name
  | .verboseSwitch => switchGives i.overrides "verbose" name
  | .caller => callerGives i.overrides name
  | .environment => environmentGives i.workspace.environment.get? name
  | .namedFile => i.named.bind fun path => fileGives i.workspace path name
  | .projectFile =>
    fileGives i.workspace (Workspace.under i.workspace.current projectFileName) name
  | .homeFile => fileGives i.workspace (Workspace.under i.workspace.home homeFileName) name

end Inputs

/-! ### The settings of a configuration -/

/-- A number that was checked is the value that was given. -/
theorem toValue_of_atLeast {least : Int} {complaint : String} {v : Value} {q : Quantity}
    (h : atLeast least complaint v = .ok q) : q.toValue = v := by
  unfold atLeast at h
  split at h
  · cases h
  · rename_i r hr
    split at h
    · cases h
    · cases h
      exact Quantity.toValue_of_ofValue? hr

theorem eq_of_readVerbosity {v : Value} {s : String} (h : readVerbosity v = .ok s) :
    v = .str s := by
  unfold readVerbosity at h
  dsimp only at h
  split at h
  · split at h
    · cases h
      rfl
    · cases h
  · cases h

/-- Each setting of a configuration is the given one, or the default. -/
theorem values_of_ofSettings {settings : OrderedMap Setting} {c : Config}
    (h : ofSettings settings = .ok c) :
    c.values = ({} : Config).values.map fun e => (e.1, given settings e.1 e.2) := by
  unfold ofSettings at h
  obtain ⟨-, -, h⟩ := bind_eq_ok.mp h
  obtain ⟨-, -, h⟩ := bind_eq_ok.mp h
  obtain ⟨nodes, hnodes, h⟩ := bind_eq_ok.mp h
  obtain ⟨edges, hedges, h⟩ := bind_eq_ok.mp h
  obtain ⟨timeout, htimeout, h⟩ := bind_eq_ok.mp h
  obtain ⟨hotspots, hhotspots, h⟩ := bind_eq_ok.mp h
  obtain ⟨-, -, h⟩ := bind_eq_ok.mp h
  obtain ⟨verbosity, hverbosity, h⟩ := bind_eq_ok.mp h
  cases h
  rw [values, toValue_of_atLeast hnodes, toValue_of_atLeast hedges, toValue_of_atLeast htimeout,
    toValue_of_atLeast hhotspots, ← eq_of_readVerbosity hverbosity]
  rfl

end Config

/-! ### Merged layers -/

namespace Layers

open Config

/-- A switch that is on is stronger than the verbosity behind it; other settings stay. -/
theorem get?_applySwitch {switch name : String} {overrides : OrderedMap Value}
    {m : OrderedMap Setting} (h : m.get? switch = (overrides.get? switch).map .value)
    (hname : name ≠ switch) :
    (applySwitch switch switch m).get? name =
      ((switchGives overrides switch name).map .value).or (m.get? name) := by
  unfold applySwitch switchGives
  cases hv : overrides.get? switch with
  | none =>
    rw [hv] at h
    simp [h]
  | some v =>
    rw [hv] at h
    by_cases htruthy : v.isTruthy = true
    · by_cases hverbosity : name = "verbosity" <;>
        simp [h, Setting.isTruthy, htruthy, get?_insert, get?_erase hname, hverbosity]
    · simp [h, Setting.isTruthy, htruthy, get?_erase hname]

/-- A switch is gone once it was turned into the verbosity. -/
theorem get?_applySwitch_self {switch : String} (hne : switch ≠ "verbosity") (verbosity : String)
    (m : OrderedMap Setting) : (applySwitch switch verbosity m).get? switch = none := by
  unfold applySwitch
  split
  · assumption
  · dsimp only
    split
    · rw [get?_insert, if_neg hne, get?_erase_self]
    · exact get?_erase_self switch m

theorem nodup_keys_applySwitch {m : OrderedMap Setting} (h : m.keys.Nodup)
    (switch verbosity : String) : (applySwitch switch verbosity m).keys.Nodup := by
  have herase : (m.erase switch).keys.Nodup := h.sublist (List.filter_sublist.map _)
  unfold applySwitch
  split
  · exact h
  · dsimp only
    split
    · exact nodup_keys_insert herase _ _
    · exact herase

/-- Weights that the caller passes ready-made are a setting of their own. -/
def readyMade (weights : Option Weights) (name : String) : Option Setting :=
  if name = "weights" then weights.map .weights else none

theorem readyMade_of_ne {name : String} (h : name ≠ "weights") (weights : Option Weights) :
    readyMade weights name = none :=
  if_neg h

/-- The settings of the caller are the open ones left out, behind both switches; the switches work
on the caller's values, over which ready-made weights are put. -/
theorem exists_callerSettings_eq {l : Layers} (hkeys : l.overrides.keys.Nodup) :
    ∃ m : OrderedMap Setting, m.keys.Nodup ∧
      (∀ name, m.get? name =
        (readyMade l.weights name).or ((l.overrides.get? name).map .value)) ∧
      l.callerSettings =
        (applySwitch "quiet" "quiet" (applySwitch "verbose" "verbose" m)).filter
          fun e => !isOpen e.2 := by
  let plain : OrderedMap Setting := l.overrides.map fun e => (e.1, .value e.2)
  have hplain : plain.keys.Nodup := by
    rw [keys, List.map_map]
    exact hkeys
  have hget (name : String) : plain.get? name = (l.overrides.get? name).map .value :=
    get?_map (fun _ => Setting.value) _ name
  unfold callerSettings
  cases hw : l.weights with
  | none =>
    refine ⟨plain, hplain, fun name => ?_, rfl⟩
    rw [hget]
    unfold readyMade
    split <;> rfl
  | some w =>
    refine ⟨plain.insert "weights" (.weights w), nodup_keys_insert hplain _ _, fun name => ?_, rfl⟩
    rw [get?_insert, hget]
    unfold readyMade
    split <;> rfl

/-- What the caller has for a name: a switch that is on, ready-made weights, or a value of its own
that is not null. The switches themselves are gone. -/
theorem get?_callerSettings {l : Layers} (hkeys : l.overrides.keys.Nodup) (name : String) :
    l.callerSettings.get? name =
      if name = "verbose" ∨ name = "quiet" then none
      else (((switchGives l.overrides "quiet" name).or
        (switchGives l.overrides "verbose" name)).map Setting.value).or
          ((readyMade l.weights name).or ((callerGives l.overrides name).map Setting.value)) := by
  obtain ⟨m, hm, hget, hsettings⟩ := exists_callerSettings_eq hkeys
  have hnodup := nodup_keys_applySwitch (nodup_keys_applySwitch hm "verbose" "verbose")
    "quiet" "quiet"
  have hverbose : m.get? "verbose" = (l.overrides.get? "verbose").map .value := by
    rw [hget, readyMade_of_ne (by decide), Option.none_or]
  -- the word `quiet` is no verbosity, so the first switch leaves the second one alone
  have hquiet : (applySwitch "verbose" "verbose" m).get? "quiet" =
      (l.overrides.get? "quiet").map .value := by
    rw [get?_applySwitch hverbose (by decide), hget, readyMade_of_ne (by decide)]
    rfl
  have hfilter := get?_filter hnodup (fun s => !isOpen s) name
  rw [hsettings, hfilter]
  split
  · rename_i hswitch
    have hgone : (applySwitch "quiet" "quiet" (applySwitch "verbose" "verbose" m)).get? name =
        none := by
      rcases hswitch with rfl | rfl
      · rw [get?_applySwitch hquiet (by decide), get?_applySwitch_self (by decide)]
        rfl
      · exact get?_applySwitch_self (by decide) _ _
    rw [hgone]
    rfl
  · rename_i hswitch
    rw [not_or] at hswitch
    rw [get?_applySwitch hquiet hswitch.2, get?_applySwitch hverbose hswitch.1, hget]
    -- null is the only setting that is left out, and neither a switch nor weights are null
    have hvalue : (((l.overrides.get? name).map .value).filter fun s => !isOpen s) =
        (callerGives l.overrides name).map .value := by
      unfold callerGives
      cases l.overrides.get? name with
      | none => rfl
      | some v => cases v <;> rfl
    rw [← hvalue]
    unfold switchGives readyMade
    split
    · rfl
    · split
      · rfl
      · split
        · cases l.weights <;> rfl
        · rfl

theorem nodup_keys_callerSettings {l : Layers} (hkeys : l.overrides.keys.Nodup) :
    l.callerSettings.keys.Nodup := by
  obtain ⟨m, hm, -, hsettings⟩ := exists_callerSettings_eq hkeys
  have hnodup := nodup_keys_applySwitch (nodup_keys_applySwitch hm "verbose" "verbose")
    "quiet" "quiet"
  rw [hsettings]
  exact hnodup.sublist (List.filter_sublist.map _)

/-- A layer of plain values on top of other settings. -/
theorem get?_union_plain {m : OrderedMap Value} (hkeys : m.keys.Nodup) (below : OrderedMap Setting)
    (name : String) :
    (below.union (m.map fun e => (e.1, Setting.value e.2))).get? name =
      ((m.get? name).map .value).or (below.get? name) := by
  have hplain : keys (m.map fun e => (e.1, Setting.value e.2)) = m.keys := by
    rw [keys, List.map_map]
    rfl
  rw [get?_union (hplain ▸ hkeys), get?_map fun _ => Setting.value]

/-- Files on top of each other: the last one that has a name decides. -/
theorem get?_foldl_union {files : List (OrderedMap Value)} (hkeys : ∀ f ∈ files, f.keys.Nodup)
    (below : OrderedMap Setting) (name : String) :
    get? name (files.foldl
        (fun m f => m.union (f.map fun e => (e.1, Setting.value e.2))) below) =
      ((files.reverse.findSome? (get? name)).map .value).or (below.get? name) := by
  induction files generalizing below with
  | nil => rfl
  | cons f fs ih =>
    rw [List.foldl_cons, ih fun g hg => hkeys g (List.mem_cons_of_mem f hg),
      get?_union_plain (hkeys f List.mem_cons_self), List.reverse_cons, List.findSome?_append]
    cases fs.reverse.findSome? (get? name) with
    | some v => rfl
    | none => cases hf : f.get? name <;> simp [hf]

/-- The caller's settings are stronger than the environment, and that is stronger than the files. -/
theorem get?_merge_eq_or {l : Layers} (hoverrides : l.overrides.keys.Nodup)
    (henvironment : l.environment.keys.Nodup) (hfiles : ∀ f ∈ l.files, f.keys.Nodup)
    (name : String) :
    l.merge.get? name = (l.callerSettings.get? name).or
      (((l.environment.get? name).or (l.files.reverse.findSome? (get? name))).map
        Setting.value) := by
  unfold merge
  dsimp only
  rw [get?_union (nodup_keys_callerSettings hoverrides), get?_union_plain henvironment,
    get?_foldl_union hfiles, show get? name ([] : OrderedMap Setting) = none from rfl,
    Option.or_none, Option.map_or]

/-- What all layers together have for a setting. -/
theorem get?_merge {l : Layers} (hoverrides : l.overrides.keys.Nodup)
    (henvironment : l.environment.keys.Nodup) (hfiles : ∀ f ∈ l.files, f.keys.Nodup)
    {name : String} (hweights : name ≠ "weights") (hverbose : name ≠ "verbose")
    (hquiet : name ≠ "quiet") :
    l.merge.get? name =
      (((switchGives l.overrides "quiet" name).or
        ((switchGives l.overrides "verbose" name).or (callerGives l.overrides name))).or
          ((l.environment.get? name).or (l.files.reverse.findSome? (get? name)))).map
            Setting.value := by
  rw [get?_merge_eq_or hoverrides henvironment hfiles, get?_callerSettings hoverrides,
    if_neg (by simp [hverbose, hquiet]), readyMade_of_ne hweights, Option.none_or]
  simp only [Option.map_or, Option.or_assoc]

/-- Reading the weights changes no other setting. -/
theorem get?_readWeights {settings read : OrderedMap Setting} (h : readWeights settings = .ok read)
    {name : String} (hname : name ≠ "weights") : read.get? name = settings.get? name := by
  have hinsert (w : Weights) :
      ((settings.erase "weights").insert "weights" (.weights w)).get? name =
        settings.get? name := by
    rw [get?_insert, if_neg hname, get?_erase hname]
  unfold readWeights at h
  dsimp only at h
  split at h
  · split at h
    · cases h
      exact hinsert _
    all_goals cases h
  · cases h
    exact hinsert _
  · cases h
    exact get?_erase hname settings

end Layers

/-! ### Settings from the environment -/

namespace Environment

variable {lookup : String → Option String}

/-- What was found for some settings has the names of these settings, and under each of them what
the environment gives. -/
theorem get?_found {expected : OrderedMap SettingKind} (hkeys : expected.keys.Nodup)
    {found : List (Option (String × Value))}
    (h : List.Forall₂
      (fun e v => (settingOf lookup e.1 e.2).map (fun v => v.map (e.1, ·)) = .ok v)
      expected found) :
    (keys (found.filterMap id)).Sublist expected.keys ∧
      ∀ name, get? name (found.filterMap id) =
        (expected.get? name).bind fun kind => (settingOf lookup name kind).toOption.join := by
  induction h with
  | nil => exact ⟨.slnil, fun _ => rfl⟩
  | @cons e v es vs hv _ ih =>
    rw [keys_cons, List.nodup_cons] at hkeys
    obtain ⟨hsub, hget⟩ := ih hkeys.2
    cases hread : settingOf lookup e.1 e.2 with
    | error f =>
      rw [hread] at hv
      cases hv
    | ok given =>
      rw [hread] at hv
      cases hv
      rw [List.filterMap_cons]
      cases given with
      | none =>
        refine ⟨hsub.cons e.1, fun name => ?_⟩
        rw [get?_cons]
        by_cases hname : e.1 = name
        · -- no later setting has this name, so the others give nothing either
          subst hname
          have hnone := get?_eq_none_iff.mpr hkeys.1
          rw [if_pos rfl, Option.bind_some, hread]
          exact (hget e.1).trans (by rw [hnone]; rfl)
        · rw [if_neg hname]
          exact hget name
      | some value =>
        refine ⟨hsub.cons_cons e.1, fun name => ?_⟩
        dsimp only [Option.map_some, id]
        rw [get?_cons, get?_cons]
        by_cases hname : e.1 = name
        · subst hname
          rw [if_pos rfl, if_pos rfl, Option.bind_some, hread]
          rfl
        · rw [if_neg hname, if_neg hname]
          exact hget name

theorem get?_settings {settings : OrderedMap Value}
    (h : Environment.settings lookup = .ok settings) :
    settings.keys.Nodup ∧ ∀ name, settings.get? name = Config.environmentGives lookup name := by
  have hkinds : keys kinds |>.Nodup := by decide
  obtain ⟨found, hfound, hsettings⟩ := bind_eq_ok.mp h
  cases hsettings
  obtain ⟨hsub, hget⟩ := get?_found hkinds (mapM_eq_ok_iff.mp hfound)
  refine ⟨hkinds.sublist hsub, fun name => ?_⟩
  rw [hget, Config.environmentGives]
  cases OrderedMap.get? name kinds with
  | none => rfl
  | some kind =>
    rw [Option.bind_some, settingOf]
    cases lookup (variableOf name) with
    | none => rfl
    | some s => 
      dsimp only
      split
      · rename_i hread
        rw [hread]
        rfl
      · rfl

end Environment

/-! ### Settings from files -/

namespace Config

variable {w : Workspace} {path : String}

theorem nodup_keys_readFile {settings : OrderedMap Value} (h : readFile w path = .ok settings) :
    settings.keys.Nodup := by
  unfold readFile at h
  split at h
  · cases h
  · cases h
  · unfold parseFile at h
    split at h
    · cases h
    · split at h
      · rename_i hparse
        cases h
        exact Toml.nodup_keys_parse hparse
      · cases h
      · cases h

/-- What is not there cannot be read. -/
theorem readFile_of_not_isThere (h : w.isThere path = .ok false) :
    (readFile w path).toOption = none := by
  have hentry : ∃ f, w.entry path = .error f := by
    unfold Workspace.isThere Workspace.look at h
    cases hentry : w.entry path with
    | error f => exact ⟨f, rfl⟩
    | ok e => 
      rw [hentry] at h
      cases h
  obtain ⟨f, hf⟩ := hentry
  have hread : w.readBytes path = .error f := by
    rw [Workspace.readBytes, Workspace.read, hf]
    rfl
  unfold readFile
  split
  · rfl
  · rfl
  · rename_i hbytes
    rw [hread] at hbytes
    cases hbytes

theorem get?_readFile {settings : OrderedMap Value} (h : readFile w path = .ok settings) :
    settings.keys.Nodup ∧ ∀ name, settings.get? name = fileGives w path name :=
  ⟨nodup_keys_readFile h, fun name => by rw [fileGives, h]; rfl⟩

/-- A file that need not be there has what it gives, and nothing if it is not there. -/
theorem get?_readIfThere {settings : OrderedMap Value} (h : readIfThere w path = .ok settings) :
    settings.keys.Nodup ∧ ∀ name, settings.get? name = fileGives w path name := by
  obtain ⟨there, hthere, h⟩ := bind_eq_ok.mp h
  cases there with
  | true =>
    rw [if_pos rfl] at h
    exact get?_readFile h
  | false =>
    cases h
    exact ⟨List.nodup_nil, fun name => by rw [fileGives, readFile_of_not_isThere hthere]; rfl⟩

theorem get?_readNamed {named : Option String} {settings : OrderedMap Value}
    (h : readNamed w named = .ok settings) :
    settings.keys.Nodup ∧
      ∀ name, settings.get? name = named.bind fun path => fileGives w path name := by
  cases named with
  | none =>
    cases h
    exact ⟨List.nodup_nil, fun _ => rfl⟩
  | some path =>
    obtain ⟨there, -, h⟩ := bind_eq_ok.mp h
    cases there with
    | true =>
      rw [if_pos rfl] at h
      simp only [Option.bind_some]
      exact get?_readFile h
    | false => cases h

/-- A path that leads to a file is read. -/
theorem readIfThere_of_file {place : Location} {content : ByteArray}
    (hfind : w.find true path = .ok place) (hget : w.tree.get? place = some (.file content)) :
    readIfThere w path = parseFile path content.data.toList := by
  have hentry := Workspace.entry_of_find hfind
  rw [hget, Option.elim_some] at hentry
  have hbytes : w.readBytes path = .ok content.data.toList := by
    rw [Workspace.readBytes, Workspace.read, hentry]
    rfl
  have hread : readFile w path = parseFile path content.data.toList := by
    unfold readFile
    split
    · rename_i h
      cases hbytes.symm.trans h
    · rename_i h
      cases hbytes.symm.trans h
    · rename_i bytes h
      rw [Except.ok.inj (hbytes.symm.trans h)]
  have hthere : w.isThere path = .ok true := by
    unfold Workspace.isThere Workspace.look
    rw [hentry]
    rfl
  rw [readIfThere, hthere, ok_bind, if_pos rfl, hread]

/-- Nothing is read from a path that leads nowhere. -/
theorem readIfThere_of_missing {place : Location} (hfind : w.find true path = .ok place)
    (hget : w.tree.get? place = none) : readIfThere w path = .ok [] := by
  have hentry := Workspace.entry_of_find hfind
  rw [hget, Option.elim_none] at hentry
  have hthere : w.isThere path = .ok false := by
    unfold Workspace.isThere Workspace.look
    rw [hentry]
    rfl
  rw [readIfThere, hthere, ok_bind, if_neg Bool.false_ne_true]
  rfl

/-! ### Loaded settings -/

/-- Every setting but the weights has a default. -/
theorem exists_default {name : String} (hname : name ∈ names) (hweights : name ≠ "weights") :
    ∃ v, ({} : Config).values.get? name = some v := by
  have hkeys : name ∈ ({} : Config).values.keys := by
    have hsplit : names = ({} : Config).values.keys ++ ["weights"] := rfl
    rw [hsplit] at hname
    simpa [hweights] using hname
  exact Option.ne_none_iff_exists'.mp (mt get?_eq_none_iff.mp (not_not_intro hkeys))

/-- The layers of a run hold what the sources give. -/
theorem strongest_of_layers {i : Inputs} {l : Layers}
    (h : layers i.workspace i.named i.overrides i.weights = .ok l) :
    l.overrides = i.overrides ∧ l.weights = i.weights ∧
      l.environment.keys.Nodup ∧ (∀ f ∈ l.files, f.keys.Nodup) ∧
      ∀ name, l.environment.get? name = i.gives name .environment ∧
        l.files.reverse.findSome? (get? name) =
          [Source.namedFile, .projectFile, .homeFile].findSome? (i.gives name) := by
  obtain ⟨fromHome, hhome, h⟩ := bind_eq_ok.mp h
  obtain ⟨fromProject, hproject, h⟩ := bind_eq_ok.mp h
  obtain ⟨fromNamed, hnamed, h⟩ := bind_eq_ok.mp h
  obtain ⟨environment, henvironment, h⟩ := bind_eq_ok.mp h
  cases h
  obtain ⟨hhomeKeys, hhomeGives⟩ := get?_readIfThere hhome
  obtain ⟨hprojectKeys, hprojectGives⟩ := get?_readIfThere hproject
  obtain ⟨henvKeys, henvGives⟩ := Environment.get?_settings henvironment
  obtain ⟨hnamedKeys, hnamedGives⟩ := get?_readNamed hnamed
  refine ⟨rfl, rfl, henvKeys, ?_, fun name => ⟨henvGives name, ?_⟩⟩
  · simp only [List.mem_cons, List.not_mem_nil, or_false]
    rintro f (rfl | rfl | rfl)
    exacts [hhomeKeys, hprojectKeys, hnamedKeys]
  · simp only [List.reverse_cons, List.reverse_nil, List.nil_append, List.cons_append,
      List.findSome?_cons, List.findSome?_nil, hnamedGives, hprojectGives, hhomeGives,
      Inputs.gives]

theorem ofSettings_of_ofLayers {l : Layers} {c : Config} (h : ofLayers l = .ok c) :
    ∃ settings, Layers.readWeights l.merge = .ok settings ∧ ofSettings settings = .ok c := by
  obtain ⟨settings, hsettings, h⟩ := bind_eq_ok.mp h
  refine ⟨settings, hsettings, ?_⟩
  split at h
  · rename_i hc
    cases h
    exact hc
  all_goals cases h

/-- The first answer of a list: that of its first item, or else the first one of the others. -/
theorem findSome?_cons_eq_or {α β : Type} (f : α → Option β) (a : α) (as : List α) :
    (a :: as).findSome? f = (f a).or (as.findSome? f) := by
  rw [List.findSome?_cons]
  cases f a <;> rfl

/-- A loaded setting is the default unless a source gives it. -/
theorem get?_values_of_load {i : Inputs} (hkeys : i.overrides.keys.Nodup) {c : Config}
    (h : i.load = .ok c) {name : String} (hname : name ∈ names) (hweights : name ≠ "weights") :
    c.values.get? name =
      (Source.ranked.findSome? (i.gives name)).or (({} : Config).values.get? name) := by
  obtain ⟨l, hl, h⟩ := bind_eq_ok.mp h
  obtain ⟨settings, hread, hc⟩ := ofSettings_of_ofLayers h
  obtain ⟨hoverrides, -, henvironment, hfiles, hgives⟩ := strongest_of_layers hl
  obtain ⟨d, hd⟩ := exists_default hname hweights
  have hverbose : name ≠ "verbose" := by rintro rfl; exact absurd hname (by decide)
  have hquiet : name ≠ "quiet" := by rintro rfl; exact absurd hname (by decide)
  have hsetting : settings.get? name =
      (Source.ranked.findSome? (i.gives name)).map Setting.value := by
    rw [Layers.get?_readWeights hread hweights,
      Layers.get?_merge (hoverrides ▸ hkeys) henvironment hfiles hweights hverbose hquiet,
      (hgives name).1, (hgives name).2, hoverrides]
    simp only [Source.ranked, findSome?_cons_eq_or, Option.or_assoc, Inputs.gives]
  rw [values_of_ofSettings hc, get?_map (given settings), hd, Option.map_some, given, hsetting]
  cases Source.ranked.findSome? (i.gives name) <;> rfl

/-- Two rankings have the same first answer if they agree on every item that no earlier answer
overrules. -/
theorem findSome?_congr_of_first {α β : Type} {f g : α → Option β} {l : List α}
    (h : ∀ before a after, l = before ++ a :: after → (∀ b ∈ before, f b = none) → g a = f a) :
    l.findSome? g = l.findSome? f := by
  induction l with
  | nil => rfl
  | cons a as ih =>
    have ha : g a = f a := h [] a as rfl (fun _ hb => absurd hb List.not_mem_nil)
    rw [List.findSome?_cons, List.findSome?_cons, ha]
    cases hfa : f a with
    | some b => rfl
    | none =>
      apply ih
      intro before x after hsplit hbefore
      apply h (a :: before) x after (by rw [hsplit, List.cons_append])
      intro b hb
      rcases List.mem_cons.mp hb with rfl | hmem
      · exact hfa
      · exact hbefore b hmem

/-- The strongest source that gives a setting decides it, and the default stands if none does. A
source that a stronger one overrules has no influence, and neither has what the sources give for
other settings: a second run agrees on the setting as soon as its sources agree on it, down to the
first that gives it. -/
theorem load_takes_strongest_source {i : Inputs} (hkeys : i.overrides.keys.Nodup) {c : Config}
    (h : i.load = .ok c) {name : String} (hname : name ∈ names) (hweights : name ≠ "weights") :
    c.values.get? name =
        (Source.ranked.findSome? (i.gives name)).or (({} : Config).values.get? name) ∧
      ∀ (j : Inputs) (d : Config), j.overrides.keys.Nodup → j.load = .ok d →
        (∀ before source after, Source.ranked = before ++ source :: after →
          (∀ s ∈ before, i.gives name s = none) → j.gives name source = i.gives name source) →
        d.values.get? name = c.values.get? name := by
  have hfirst := get?_values_of_load hkeys h hname hweights
  refine ⟨hfirst, fun j d hjkeys hj hagree => ?_⟩
  rw [hfirst, get?_values_of_load hjkeys hj hname hweights, findSome?_congr_of_first hagree]

/-! ### A project file alone -/

/-- A file in the current folder, variables and settings of the caller, and no other file. -/
def withProjectFile (content : ByteArray) (environment : OrderedMap String)
    (overrides : OrderedMap Value) : Inputs where
  workspace := { tree := .folder [(projectFileName, .file content)], environment }
  overrides

theorem find_withProjectFile (content : ByteArray) (environment : OrderedMap String)
    (overrides : OrderedMap Value) {name : String}
    (hname : name ∈ [homeFileName, projectFileName]) :
    (withProjectFile content environment overrides).workspace.find true
      (Workspace.under "/" name) = .ok [name] := by
  have htree : (withProjectFile content environment overrides).workspace.tree.IsPlain := by
    refine Entry.isPlain_folder ?_ ?_ fun d hd => ?_
    · exact List.nodup_singleton projectFileName
    · have hname : Location.IsName projectFileName := by decide
      exact List.forall_mem_singleton.mpr hname
    · obtain rfl := List.mem_singleton.mp hd
      exact Entry.isPlain_file content
  have hpath : ∀ name ∈ [homeFileName, projectFileName],
      Workspace.wayOf (Workspace.under "/" (Workspace.under "/" name)) = [name] ∧
      (Location.IsName name ∧ name.utf8ByteSize ≤ Workspace.nameLimit) ∧
      '\x00' ∉ (Workspace.under "/" (Workspace.under "/" name)).toList ∧
      Workspace.under "/" name ≠ "" ∧
      (Workspace.under "/" name).utf8ByteSize ≤ Workspace.pathLimit := by
    decide +kernel
  obtain ⟨hway, hnames, hnul, hempty, hsize⟩ := hpath name hname
  have hway : (withProjectFile content environment overrides).workspace.way
      (Workspace.under "/" name) = [name] := hway
  rw [← hway]
  refine Workspace.find_of_folder htree.noLink ?_ hnul hempty hsize ?_
  · rw [hway]
    exact List.forall_mem_singleton.mpr hnames
  · rw [hway]
    exact ⟨_, rfl⟩

/-- The layers of such inputs come from the file, the variables and the caller. -/
theorem layers_withProjectFile (content : ByteArray) (environment : OrderedMap String)
    (overrides : OrderedMap Value) :
    layers (withProjectFile content environment overrides).workspace none overrides none = (do
      let settings ← parseFile (Workspace.under "/" projectFileName) content.data.toList
      let found ← Environment.settings environment.get?
      return { files := [[], settings, []], environment := found, overrides }) := by
  let w := (withProjectFile content environment overrides).workspace
  have hhome : readIfThere w (Workspace.under w.home homeFileName) = .ok [] :=
    readIfThere_of_missing
      (find_withProjectFile content environment overrides List.mem_cons_self) rfl
  have hproject : readIfThere w (Workspace.under w.current projectFileName) =
      parseFile (Workspace.under "/" projectFileName) content.data.toList :=
    readIfThere_of_file (find_withProjectFile content environment overrides
      (List.mem_cons_of_mem _ List.mem_cons_self)) rfl
  rw [layers, hhome, ok_bind, hproject]
  rfl

/-- Only the bytes of the file, the variables and the caller matter. -/
theorem load_withProjectFile (content : ByteArray) (environment : OrderedMap String)
    (overrides : OrderedMap Value) :
    (withProjectFile content environment overrides).load = (do
      let settings ← parseFile (Workspace.under "/" projectFileName) content.data.toList
      let found ← Environment.settings environment.get?
      ofLayers { files := [[], settings, []], environment := found, overrides }) := by
  have hlayers := layers_withProjectFile content environment overrides
  change (layers (withProjectFile content environment overrides).workspace none overrides none >>=
    ofLayers) = _
  rw [hlayers]
  cases parseFile (Workspace.under "/" projectFileName) content.data.toList with
  | error f => rfl
  | ok settings => cases Environment.settings environment.get? <;> rfl

/-- A file, the environment and the caller that do not agree. -/
def layered : Inputs :=
  withProjectFile "max_nodes = 5\nverbosity = \"quiet\"\n".toUTF8 [("MODULY_MAX_NODES", "7")]
    [("verbose", .bool true), ("max_nodes", .null)]

theorem exists_load_layered : ∃ c, layered.load = .ok c := by
  have hok : layered.load.isOk = true := by
    rw [layered, load_withProjectFile]
    decide +kernel
  cases hload : layered.load with
  | ok c => exact ⟨c, rfl⟩
  | error f =>
    rw [hload] at hok
    cases hok

/-- The environment is stronger than the file, and the switch is stronger than both. -/
theorem load_takes_strongest_source_layered :
    ∃ c, layered.load = .ok c ∧ c.values.get? "max_nodes" = some (.int 7) ∧
      c.values.get? "verbosity" = some (.str "verbose") := by
  obtain ⟨c, hc⟩ := exists_load_layered
  have hkeys : layered.overrides.keys.Nodup := by decide
  have hsetting (name : String) (hname : name ∈ names) (hweights : name ≠ "weights") :=
    (load_takes_strongest_source hkeys hc hname hweights).1
  refine ⟨c, hc, ?_, ?_⟩
  · rw [hsetting "max_nodes" (by decide) (by decide)]
    rfl
  · rw [hsetting "verbosity" (by decide) (by decide)]
    rfl

end Config

end ScriptHealth
