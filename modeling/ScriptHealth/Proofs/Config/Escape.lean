import ScriptHealth.Proofs.Config.Precedence
import ScriptHealth.Proofs.Score.Weights

/-!
# How loading fails

Loading reports what is wrong with a configuration as an issue. It turns the complaints of its steps
into issues where it expects them: a file that cannot be parsed, a variable of the wrong kind, a
setting that is not allowed. Some faults arise elsewhere and leave the run as they are. The theory
here says which ones, and what in the inputs they come from.

## Main definitions

* `Fault.IsComplaint` — a fault that says what is wrong with a value
* `Fault.IsConfigurationIssue` — an issue about the configuration
* `Config.Inputs.Escape` — the faults that leave the run, and where each of them comes from

## Main results

* `Config.failsWith_ofSettings` — reading settings fails with complaints, or at an extension that is
  no text
* `Config.load_fails_with_issue_or_escape` — loading fails with an issue about the configuration, or
  with one of the escapes
-/

namespace ScriptHealth

open Outcome OrderedMap

namespace Fault

/-- A fault that says what is wrong with a value. -/
inductive IsComplaint : Fault → Prop
  | badValue (reason : String) : IsComplaint (.badValue reason)
  | wrongKind (reason : String) : IsComplaint (.wrongKind reason)

/-- An issue about the configuration, or of a narrower kind. -/
def IsConfigurationIssue (f : Fault) : Prop :=
  ∃ i : Issue, f = .issue i ∧ IssueKind.configuration ∈ i.kind.lineage

theorem isComplaint_unexpectedField (record field : String) :
    (unexpectedField record field).IsComplaint := by
  unfold unexpectedField
  split
  · exact .wrongKind _
  · exact .wrongKind _

theorem isConfigurationIssue_configuration (message : String) :
    IsConfigurationIssue (.issue (.configuration message)) := by
  refine ⟨_, rfl, ?_⟩
  change IssueKind.configuration ∈ IssueKind.configuration.lineage
  decide

theorem isConfigurationIssue_invalidConfig (key : Value) (shown : String) (reason : Value) :
    IsConfigurationIssue (.issue (.invalidConfig key shown reason)) := by
  refine ⟨_, rfl, ?_⟩
  change IssueKind.configuration ∈ IssueKind.invalidConfig.lineage
  decide

end Fault

open Fault

/-- The values of a map that can be written out can be written out. -/
theorem Value.isWritable_of_mem {entries : List (String × Value)} {e : String × Value}
    (h : (Value.map entries).isWritable = true) (he : e ∈ entries) : e.2.isWritable = true := by
  rw [isWritable] at h
  induction entries with
  | nil => exact absurd he List.not_mem_nil
  | cons d ds ih =>
    rw [entriesWritable, Bool.and_eq_true] at h
    rcases List.mem_cons.mp he with rfl | he
    · exact h.1
    · exact ih h.2 he

/-! ### Weights -/

namespace Weights

theorem failsWith_pick (given : OrderedMap Value) (name : String) (default : Quantity) :
    FailsWith IsComplaint (pick given name default) := by
  unfold pick
  split
  · exact .ok _
  · split
    · exact .error (.wrongKind _)
    · split
      · exact .error (.badValue _)
      · exact .ok _

theorem failsWith_ofEntries (given : OrderedMap Value) :
    FailsWith IsComplaint (ofEntries given) := by
  unfold ofEntries
  split
  · exact .error (isComplaint_unexpectedField _ _)
  · iterate 17 refine (failsWith_pick _ _ _).bind fun _ _ => ?_
    dsimp only
    split
    · exact .error (.badValue _)
    · exact .ok _

/-- Weights that are read from values that can be written out can be written out themselves. -/
theorem isWritable_of_ofEntries {given : OrderedMap Value} {w : Weights}
    (h : ofEntries given = .ok w) (hgiven : (Value.map given).isWritable = true) :
    (Setting.weights w).isWritable = true := by
  have hdefaults : ∀ d ∈ ({} : Weights).entries, d.2.toValue.isWritable = true := by decide
  have hvalues {name : String} {v : Value} (hv : given.get? name = some v) :
      v.isWritable = true :=
    Value.isWritable_of_mem hgiven (mem_of_get?_eq_some hv)
  unfold Setting.isWritable
  rw [List.all_eq_true]
  intro e he
  obtain ⟨d, hd, hpick⟩ := picked_of_ofEntries h e he
  unfold pick at hpick
  split at hpick
  · rw [← Except.ok.inj hpick]
    exact hdefaults d hd
  · rename_i v hv
    split at hpick
    · cases hpick
    · rename_i q hq
      split at hpick
      · cases hpick
      · rw [← Except.ok.inj hpick, Quantity.toValue_of_ofValue? hq]
        exact hvalues hv

end Weights

namespace Config

/-! ### Settings -/

theorem failsWith_atLeast (least : Int) (complaint : String) (v : Value) :
    FailsWith IsComplaint (atLeast least complaint v) := by
  unfold atLeast
  split
  · exact .error (.wrongKind _)
  · split
    · exact .error (.badValue _)
    · exact .ok _

/-- A value with an item that is no text. -/
def HasOtherItem (v : Value) : Prop := ∃ vs, items? v = some vs ∧ ∃ x ∈ vs, ∀ s, x ≠ .str s

/-- The extensions are refused with a complaint, or there is one that is no text. -/
theorem failsWith_checkExtensions (v : Value) :
    FailsWith (fun f => f.IsComplaint ∨ f = .noOperation ∧ HasOtherItem v) (checkExtensions v) := by
  unfold checkExtensions
  split
  · exact .error (Or.inl (.badValue _))
  · split
    · exact .error (Or.inl (.wrongKind _))
    · rename_i vs hvs
      refine FailsWith.forM fun x hx => ?_
      unfold checkExtension
      split
      · split
        · exact .ok ()
        · exact .error (Or.inl (.badValue _))
      · rename_i hne
        exact .error (Or.inr ⟨rfl, vs, hvs, x, hx, fun s hs => hne s hs⟩)

theorem failsWith_ofSettings (settings : OrderedMap Setting) :
    FailsWith (fun f => f.IsComplaint ∨
      f = .noOperation ∧ HasOtherItem (given settings "extensions" ({} : Config).extensions))
      (ofSettings settings) := by
  have complaint {α : Type} {x : Except Fault α} (h : FailsWith IsComplaint x) :
      FailsWith (fun f => f.IsComplaint ∨
        f = .noOperation ∧ HasOtherItem (given settings "extensions" ({} : Config).extensions)) x :=
    h.mono fun _ => Or.inl
  have hnames : FailsWith IsComplaint (checkNames settings) := by
    unfold checkNames
    split
    · exact .error (isComplaint_unexpectedField _ _)
    · exact .ok ()
  have hworkers (v : Value) : FailsWith IsComplaint (checkWorkers v) := by
    unfold checkWorkers
    split
    · exact .ok ()
    · exact (failsWith_atLeast _ _ _).map
  have hverbosity (v : Value) : FailsWith IsComplaint (readVerbosity v) := by
    unfold readVerbosity
    dsimp only
    split
    · split
      · exact .ok _
      · exact .error (.badValue _)
    · exact .error (.badValue _)
  unfold ofSettings
  refine (complaint hnames).bind fun _ _ => ?_
  refine (complaint (hworkers _)).bind fun _ _ => ?_
  iterate 4 refine (complaint (failsWith_atLeast _ _ _)).bind fun _ _ => ?_
  refine (failsWith_checkExtensions _).bind fun _ _ => ?_
  refine (complaint (hverbosity _)).bind fun _ _ => ?_
  exact .ok _

/-! ### Where faults come from -/

namespace Inputs

variable (i : Inputs)

/-- The paths of the files that are read. -/
def paths : List String :=
  [Workspace.under i.workspace.home homeFileName,
   Workspace.under i.workspace.current projectFileName] ++ i.named.toList

/-- The layers that are merged. -/
def layers : Except Fault Layers := Config.layers i.workspace i.named i.overrides i.weights

/-- The faults that leave the run although they are no issues, each with what it comes from: the
path of a file, the bytes of a file, or the merged settings. The list is complete for the reader of
`Toml.parse`, which nests without a limit: a file that is nested too deeply for the stack of a reader
is no case of its own. -/
inductive Escape : Fault → Prop
  | unanswered {path : String} {f : Fault} (hpath : path ∈ i.paths)
      (hlook : i.workspace.Unanswered path f) : Escape f
  | undecodable {path : String} {bytes : List UInt8} (hpath : path ∈ i.paths)
      (hread : i.workspace.readBytes path = .ok bytes) (hdecode : Utf8.decode? bytes = none) :
      Escape .undecodable
  | longNumeral {path : String} {bytes : List UInt8} {text : List Char} {digits : Nat}
      (hpath : path ∈ i.paths) (hread : i.workspace.readBytes path = .ok bytes)
      (hdecode : Utf8.decode? bytes = some text)
      (hparse : Toml.parse text = .error (.tooManyDigits digits)) :
      Escape (.tooManyDigits digits)
  | extension {l : Layers} {v : Value} (hlayers : i.layers = .ok l)
      (hv : l.merge.get? "extensions" = some (.value v)) (hitem : HasOtherItem v) :
      Escape .noOperation
  | longInteger {l : Layers} {e : String × Setting} (hlayers : i.layers = .ok l)
      (he : e ∈ l.merge) (hwritable : e.2.isWritable = false) : Escape .unwritableInteger

/-- An issue about the configuration, or one of the escapes. -/
def IssueOrEscape (f : Fault) : Prop := f.IsConfigurationIssue ∨ i.Escape f

end Inputs

variable {i : Inputs}

/-! ### Files -/

theorem failsWith_isThere {path : String} (hpath : path ∈ i.paths) :
    FailsWith i.IssueOrEscape (i.workspace.isThere path) := by
  intro f hf
  exact .inr (.unanswered hpath (Workspace.look_eq_error_iff.mp (map_eq_error.mp hf)))

/-- What is there is read, or it is a folder. -/
theorem readBytes_ne_nul {w : Workspace} {path : String} (h : w.isThere path = .ok true) :
    w.readBytes path ≠ .error .nul := by
  unfold Workspace.readBytes Workspace.read
  unfold Workspace.isThere Workspace.look at h
  cases hentry : w.entry path with
  | error f =>
    rw [hentry] at h
    cases f <;> cases h
  | ok e =>
    rw [ok_bind]
    cases e <;> exact nofun

theorem failsWith_readFile {path : String} (hpath : path ∈ i.paths)
    (hthere : i.workspace.isThere path = .ok true) :
    FailsWith i.IssueOrEscape (readFile i.workspace path) := by
  unfold readFile
  split
  · rename_i hnul
    exact absurd hnul (readBytes_ne_nul hthere)
  · exact .error (Or.inl (isConfigurationIssue_configuration _))
  · rename_i bytes hread
    unfold parseFile
    split
    · rename_i hdecode
      exact .error (Or.inr (.undecodable hpath hread hdecode))
    · rename_i text hdecode
      split
      · exact .ok _
      · exact .error (Or.inl (isConfigurationIssue_configuration _))
      · rename_i digits hparse
        exact .error (Or.inr (.longNumeral hpath hread hdecode hparse))

theorem failsWith_readIfThere {path : String} (hpath : path ∈ i.paths) :
    FailsWith i.IssueOrEscape (readIfThere i.workspace path) := by
  refine (failsWith_isThere hpath).bind fun there hthere => ?_
  cases there with
  | true =>
    rw [if_pos rfl]
    exact failsWith_readFile hpath hthere
  | false => exact .ok _

theorem failsWith_readNamed : FailsWith i.IssueOrEscape (readNamed i.workspace i.named) := by
  cases hnamed : i.named with
  | none => exact .ok _
  | some path =>
    have hpath : path ∈ i.paths := by simp [Inputs.paths, hnamed]
    refine (failsWith_isThere hpath).bind fun there hthere => ?_
    cases there with
    | true =>
      rw [if_pos rfl]
      exact failsWith_readFile hpath hthere
    | false => exact .error (Or.inl (isConfigurationIssue_configuration _))

/-! ### The environment -/

/-- A variable that cannot be read is an issue. -/
theorem failsWith_settingOf (lookup : String → Option String) (name : String)
    (kind : SettingKind) :
    FailsWith IsConfigurationIssue (Environment.settingOf lookup name kind) := by
  unfold Environment.settingOf
  split
  · exact .ok _
  · split
    · exact .error (isConfigurationIssue_invalidConfig _ _ _)
    · -- every kind is refused with a bad value only, and that is an issue already
      rename_i s _ _ hother
      intro f hf
      exfalso
      have hread : FailsWith (fun f => ∃ reason, f = .badValue reason)
          (Environment.read kind s) := by
        cases kind with
        | switch =>
          refine FailsWith.map ?_
          unfold Environment.readSwitch
          dsimp only
          split
          · exact .ok _
          · split
            · exact .ok _
            · exact .error ⟨_, rfl⟩
        | integer =>
          refine FailsWith.map ?_
          unfold Environment.readInteger
          split
          · exact .ok _
          · exact .error ⟨_, rfl⟩
          · exact .error ⟨_, rfl⟩
        | fraction =>
          refine FailsWith.map ?_
          unfold Environment.readFraction
          split
          · exact .ok _
          · exact .error ⟨_, rfl⟩
        | text => exact .ok _
        | structured => exact .ok _
      obtain ⟨reason, rfl⟩ := hread f hf
      exact hother reason hf

theorem failsWith_environment (lookup : String → Option String) :
    FailsWith IsConfigurationIssue (Environment.settings lookup) := by
  refine (FailsWith.mapM fun e _ => ?_).bind fun _ _ => .ok _
  exact (failsWith_settingOf lookup e.1 e.2).map

theorem failsWith_layers : FailsWith i.IssueOrEscape i.layers := by
  refine (failsWith_readIfThere (by simp [Inputs.paths])).bind fun _ _ => ?_
  refine (failsWith_readIfThere (by simp [Inputs.paths])).bind fun _ _ => ?_
  refine failsWith_readNamed.bind fun _ _ => ?_
  refine ((failsWith_environment _).mono fun _ => Or.inl).bind fun _ _ => ?_
  exact .ok _

/-! ### Merged settings -/

/-- A refusal is an issue, unless what is refused cannot be written out. -/
theorem failsWith_refusal {α : Type} {l : Layers} (hlayers : i.layers = .ok l) {writable : Bool}
    (h : writable = false → ∃ e ∈ l.merge, e.2.isWritable = false) (key shown reason : String) :
    FailsWith i.IssueOrEscape
      (.error (Layers.refusal key writable shown reason) : Except Fault α) := by
  unfold Layers.refusal
  split
  · exact .error (Or.inl (isConfigurationIssue_invalidConfig _ _ _))
  · rename_i hwritable
    obtain ⟨e, he, hlong⟩ := h (Bool.eq_false_iff.mpr hwritable)
    exact .error (Or.inr (.longInteger hlayers he hlong))

theorem failsWith_readWeights {l : Layers} (hlayers : i.layers = .ok l) :
    FailsWith i.IssueOrEscape (Layers.readWeights l.merge) := by
  unfold Layers.readWeights
  dsimp only
  split
  · rename_i entries hentries
    have hgiven := mem_of_get?_eq_some hentries
    have hcomplaint := Weights.failsWith_ofEntries entries
    split
    · exact .ok _
    · exact .error (Or.inl (isConfigurationIssue_configuration _))
    · exact failsWith_refusal hlayers (fun h => ⟨_, hgiven, h⟩) _ _ _
    · rename_i f hkind hvalue hf
      cases hcomplaint f hf with
      | badValue reason => exact (hvalue reason rfl).elim
      | wrongKind reason => exact (hkind reason rfl).elim
  · exact .ok _
  · exact .ok _

/-- If settings cannot be written out with the weights that were read, they could not before. -/
theorem exists_unwritable_of_readWeights {settings read : OrderedMap Setting}
    (h : Layers.readWeights settings = .ok read) {e : String × Setting} (he : e ∈ read)
    (hwritable : e.2.isWritable = false) : ∃ d ∈ settings, d.2.isWritable = false := by
  have hrest {d : String × Setting} (hd : d ∈ settings.erase "weights") : d ∈ settings :=
    List.mem_of_mem_filter hd
  unfold Layers.readWeights at h
  dsimp only at h
  split at h
  · rename_i entries hentries
    split at h
    · rename_i w hw
      cases h
      rcases mem_insert he with rfl | hmem
      · refine ⟨_, mem_of_get?_eq_some hentries, Bool.eq_false_iff.mpr fun hgiven => ?_⟩
        exact Bool.false_ne_true
          (hwritable.symm.trans (Weights.isWritable_of_ofEntries hw hgiven))
      · exact ⟨e, hrest hmem, hwritable⟩
    all_goals cases h
  · rename_i w hw
    cases h
    rcases mem_insert he with rfl | hmem
    · exact ⟨_, mem_of_get?_eq_some hw, hwritable⟩
    · exact ⟨e, hrest hmem, hwritable⟩
  · cases h
    exact ⟨e, hrest he, hwritable⟩

/-- The default extensions are texts. -/
theorem not_hasOtherItem_default : ¬HasOtherItem ({} : Config).extensions := by
  rintro ⟨vs, hvs, x, hx, hne⟩
  cases hvs
  obtain ⟨s, -, rfl⟩ := List.mem_map.mp hx
  exact hne s rfl

/-- Reading merged layers fails with an issue, or with an escape that the settings bring. -/
theorem failsWith_ofLayers {l : Layers} (hlayers : i.layers = .ok l) :
    FailsWith i.IssueOrEscape (ofLayers l) := by
  refine (failsWith_readWeights hlayers).bind fun settings hsettings => ?_
  have hsettingsFail := failsWith_ofSettings settings
  split
  · exact .ok _
  · exact .error (Or.inl (isConfigurationIssue_configuration _))
  · refine failsWith_refusal hlayers (fun h => ?_) _ _ _
    obtain ⟨e, he, hlong⟩ := List.all_eq_false.mp h
    exact exists_unwritable_of_readWeights hsettings he (Bool.eq_false_iff.mpr hlong)
  · rename_i f hkind hvalue hf
    refine .error ?_
    rcases hsettingsFail f hf with hcomplaint | ⟨rfl, hitem⟩
    · cases hcomplaint with
      | badValue reason => exact (hvalue reason rfl).elim
      | wrongKind reason => exact (hkind reason rfl).elim
    · refine Or.inr ?_
      rw [given, Layers.get?_readWeights hsettings (by decide)] at hitem
      split at hitem
      · rename_i v hv
        exact .extension hlayers hv hitem
      · exact absurd hitem not_hasOtherItem_default

/-- **How loading fails.** A configuration that is not loaded is refused with an issue about the
configuration, or the run is left by one of the escapes: a path that cannot be looked at, since a name
is too long or a folder on the way is closed, a file that is not UTF-8, a numeral with too many digits
in a file, an extension that is no text, or settings that are refused and hold an integer with too
many digits to be written out. -/
theorem load_fails_with_issue_or_escape {f : Fault} (h : i.load = .error f) :
    f.IsConfigurationIssue ∨ i.Escape f := by
  have hload : FailsWith i.IssueOrEscape i.load :=
    failsWith_layers.bind fun _ hl => failsWith_ofLayers hl
  exact hload f h

/-- A file with a byte that is not UTF-8. -/
def notUtf8 : Inputs := withProjectFile ⟨#[0xff]⟩ [] []

/-- A file with a number among the extensions. -/
def numberedExtensions : Inputs := withProjectFile "extensions = [1]\n".toUTF8 [] []

theorem load_notUtf8 : notUtf8.load = .error .undecodable := by
  have hdecode : Utf8.decode? [0xff] = none := by decide +kernel
  have hparse : parseFile (Workspace.under "/" projectFileName) [0xff] = .error .undecodable := by
    unfold parseFile
    rw [hdecode]
  rw [notUtf8, load_withProjectFile, hparse]
  rfl

theorem not_isConfigurationIssue_undecodable : ¬IsConfigurationIssue .undecodable := by
  rintro ⟨_, h, -⟩
  cases h

/-- The fault of the file that is not UTF-8 is an escape. -/
theorem load_fails_with_issue_or_escape_notUtf8 :
    notUtf8.load = .error .undecodable ∧ notUtf8.Escape .undecodable :=
  ⟨load_notUtf8, (load_fails_with_issue_or_escape load_notUtf8).resolve_left
    not_isConfigurationIssue_undecodable⟩

/-- Loading is left by faults that are no issues about the configuration. -/
theorem load_escapes :
    ∃ f g, notUtf8.load = .error f ∧ ¬f.IsConfigurationIssue ∧
      numberedExtensions.load = .error g ∧ ¬g.IsConfigurationIssue := by
  have hextensions : numberedExtensions.load = .error .noOperation := by
    rw [numberedExtensions, load_withProjectFile]
    rfl
  refine ⟨_, _, load_notUtf8, not_isConfigurationIssue_undecodable, hextensions, ?_⟩
  rintro ⟨_, h, -⟩
  cases h

end Config

end ScriptHealth
