import ScriptHealth.Proofs.Command.Switch
import ScriptHealth.Proofs.Workspace.Parent

/-!
# Settings that cannot be understood

The file of the settings may hold anything. What is no JSON text, no map, or a map whose switch is
no truth value means the defaults, and turning the switch writes the file anew. Two kinds of content
are not passed over: bytes that are no text at all, and a text with an integer that has too many
digits. They end every command that reads the settings, so the switch cannot be turned either, and
the file stays as it is.

## Main definitions

* `UserSettings.Stores` — a content that stores a flag
* `UserSettings.Escapes` — a content that ends a run, and with which fault

## Main results

* `UserSettings.exists_ofContent` — what every content is read as
* `UserSettings.ready_of_look` — settings that can be read can be written
* `Command.settings_loaded_unless_escaping` — reading and repairing the settings
* `Command.settings_beyond_repair` — a single byte that cannot be repaired
-/

namespace ScriptHealth

namespace UserSettings

variable {w : Workspace} {content : ByteArray}

/-- A content stores a flag: it is the text of a map whose switch is that truth value. -/
def Stores (content : ByteArray) (flag : Bool) : Prop :=
  ∃ text entries, Project.strictText? content.data.toList = some text ∧
    Json.parse text = .ok (.map entries) ∧ OrderedMap.get? aiField entries = some (.bool flag)

/-- A content that ends a run, with its fault: bytes that are no text, or a text with an integer that
has too many digits. The list is complete for `Json.parse`, which nests without a limit: a text that is
nested too deeply for the stack of a reader is not on it. -/
inductive Escapes (content : ByteArray) : Fault → Prop
  | undecodable (hbytes : Utf8.decode? content.data.toList = none) : Escapes content .undecodable
  | tooManyDigits {text : List Char} {count : Nat}
      (htext : Project.strictText? content.data.toList = some text)
      (hparse : Json.parse text = .error (.tooManyDigits count)) :
      Escapes content (.tooManyDigits count)

/-! ### Reading -/

/-- The settings that a value stands for. -/
def ofStored : Value → UserSettings
  | .map entries =>
    match OrderedMap.get? aiField entries with
    | some (.bool flag) => { aiEnabled := flag }
    | _ => {}
  | _ => {}

theorem result_ofValue (path : String) (v : Value) :
    ∃ logs, (ofValue path v).result = .ok (ofStored v, logs) := by
  cases v with
  | map entries =>
    unfold ofValue ofStored
    dsimp only
    cases OrderedMap.get? aiField entries with
    | none => exact ⟨_, rfl⟩
    | some flag => cases flag <;> exact ⟨_, rfl⟩
  | _ => exact ⟨_, rfl⟩

/-- The settings that a content gives. -/
def ofContent (path : String) (content : ByteArray) : Logged UserSettings :=
  match Project.strictText? content.data.toList with
  | none => throw .undecodable
  | some text =>
    match Json.parse text with
    | .ok v => ofValue path v
    | .error .malformed => do
      Logged.note .warning logger "Ignoring unreadable settings file %s: %s" [.text path, .text ""]
      return {}
    | .error (.tooManyDigits count) => throw (.tooManyDigits count)

theorem load_of_look (hfile : w.look (path w) = .ok (some (.file content))) :
    (load w).result = (ofContent (path w) content).result := by
  unfold load Logged.result
  dsimp only
  rw [hfile]
  rfl

theorem result_ofContent_of_escapes (path : String) {f : Fault} (h : Escapes content f) :
    (ofContent path content).result = .error f := by
  unfold ofContent
  cases h with
  | undecodable hbytes =>
    rw [Project.strictText?, hbytes]
    rfl
  | tooManyDigits htext hparse =>
    rw [htext]
    dsimp only
    rw [hparse]
    rfl

/-- What settings are read from a content: the flag that it stores, and otherwise the defaults. -/
structure ReadFrom (content : ByteArray) (s : UserSettings) : Prop where
  stored : ∀ flag, Stores content flag → s.aiEnabled = flag
  default : (∀ flag, ¬Stores content flag) → s = {}

/-- A value stands for the flag that its text stores. -/
theorem readFrom_ofStored {text : List Char} {v : Value}
    (htext : Project.strictText? content.data.toList = some text)
    (hparse : Json.parse text = .ok v) : ReadFrom content (ofStored v) := by
  have hstores (flag : Bool) : Stores content flag ↔
      ∃ entries, v = .map entries ∧ OrderedMap.get? aiField entries = some (.bool flag) := by
    constructor
    · rintro ⟨_, entries, htext', hparse', hflag⟩
      obtain rfl := Option.some.inj (htext.symm.trans htext')
      exact ⟨entries, Except.ok.inj (hparse.symm.trans hparse'), hflag⟩
    · rintro ⟨entries, rfl, hflag⟩
      exact ⟨text, entries, htext, hparse, hflag⟩
  constructor
  · intro flag hflag
    obtain ⟨entries, rfl, hget⟩ := (hstores flag).mp hflag
    rw [ofStored, hget]
  · intro hnone
    unfold ofStored
    split
    · split
      · rename_i entries _ flag hget
        exact absurd ((hstores flag).mpr ⟨entries, rfl, hget⟩) (hnone flag)
      · rfl
    · rfl

/-- A text that cannot be parsed stores no flag. -/
theorem not_stores_of_error {text : List Char} {fault : Json.Fault}
    (htext : Project.strictText? content.data.toList = some text)
    (hparse : Json.parse text = .error fault) (flag : Bool) : ¬Stores content flag := by
  rintro ⟨_, _, htext', hparse', -⟩
  obtain rfl := Option.some.inj (htext.symm.trans htext')
  rw [hparse] at hparse'
  cases hparse'

/-- Every content that does not escape is read. -/
theorem exists_ofContent (path : String) (h : ∀ f, ¬Escapes content f) :
    ∃ s logs, (ofContent path content).result = .ok (s, logs) ∧ ReadFrom content s := by
  unfold ofContent
  cases htext : Project.strictText? content.data.toList with
  | none => exact absurd (.undecodable (Option.map_eq_none_iff.mp htext)) (h _)
  | some text =>
    dsimp only
    cases hparse : Json.parse text with
    | ok v =>
      obtain ⟨logs, hresult⟩ := result_ofValue path v
      exact ⟨_, logs, hresult, readFrom_ofStored htext hparse⟩
    | error fault =>
      cases fault with
      | tooManyDigits count => exact absurd (.tooManyDigits htext hparse) (h _)
      | malformed =>
        exact ⟨{}, _, rfl, fun flag hflag => absurd hflag (not_stores_of_error htext hparse flag),
          fun _ => rfl⟩

/-! ### Repairing -/

/-- Settings that are read from a file can be written to it. -/
theorem ready_of_look (hfile : w.look (path w) = .ok (some (.file content))) {s : UserSettings}
    {logs : List Log.Record} (hload : (load w).result = .ok (s, logs)) : Ready w s := by
  have hopen : w.IsOpen (Workspace.parentOf (path w)) :=
    Workspace.isOpen_parentOf (by decide) (by decide) hfile
  obtain ⟨place, hfind, hget⟩ := Workspace.look_eq_some_iff.mp hfile
  refine ⟨?_, writable_of_isFolder hopen.isFolder hfind (Entry.isWritable_of_file hget), logs,
    hload⟩
  -- the folder of the file is below the top, or it is the top
  obtain ⟨q, es, -, hes⟩ := Workspace.isOpen_iff.mp hopen
  exact Entry.exists_folder_of_isPrefix List.nil_prefix ⟨es, hes⟩

end UserSettings

namespace Command

open UserSettings

variable {w : Workspace} (render : Markup.Renderer)

/-- A command that cannot read the settings ends, and it changes nothing. -/
theorem runAi_of_escapes {content : ByteArray} {word : String} (hstate : IsAiState word)
    (hfile : w.look (path w) = .ok (some (.file content))) {f : Fault} (h : Escapes content f) :
    runAi render w word = (w, { exitCode := 1, escaped := some f }) := by
  unfold runAi
  dsimp only
  rw [← stateOf, if_neg (by simpa [IsAiState] using hstate), load_of_look hfile,
    result_ofContent_of_escapes _ h]
  cases h <;> rfl

/-- **Settings that cannot be understood.** Whatever bytes the file of the settings holds, either
they escape, and then reading them ends with the fault and `ai on` ends with it too and leaves
everything as it is; or they are read as the flag that they store or as the defaults, and after
`ai on` the settings are on. It does not matter how the command shows its lines. -/
theorem settings_loaded_unless_escaping (w : Workspace) {content : ByteArray}
    (hfile : w.look (path w) = .ok (some (.file content))) :
    (∀ f, Escapes content f → (load w).result = .error f ∧
      runAi render w "on" = (w, { exitCode := 1, escaped := some f })) ∧
    ((∀ f, ¬Escapes content f) →
      (∃ s logs, (load w).result = .ok (s, logs) ∧
        (∀ flag, Stores content flag → s.aiEnabled = flag) ∧
        ((∀ flag, ¬Stores content flag) → s = {})) ∧
      ∃ logs, (load (runAi render w "on").1).result = .ok ({ aiEnabled := true }, logs)) := by
  have hon : asked? "on" = some true := by decide +kernel
  have hstate : IsAiState "on" := by
    unfold IsAiState
    decide +kernel
  rw [load_of_look hfile]
  constructor
  · intro f hf
    exact ⟨result_ofContent_of_escapes _ hf, runAi_of_escapes render hstate hfile hf⟩
  · intro hnone
    obtain ⟨s, logs, hresult, hread⟩ := exists_ofContent (path w) hnone
    have hready := ready_of_look hfile ((load_of_look hfile).trans hresult)
    obtain ⟨-, tree', hready', hrun⟩ := runAi_of_asked render hready hon
    refine ⟨⟨s, logs, hresult, hread.stored, hread.default⟩, ?_⟩
    rw [hrun]
    exact hready'.loaded

/-! ### Two files -/

/-- A workspace whose settings are given by the bytes of their file. -/
def homeWith (content : ByteArray) : Workspace where
  tree := .folder [(".moduly", .folder [(fileName, .file content)])]

theorem look_homeWith (content : ByteArray) :
    (homeWith content).look (path (homeWith content)) = .ok (some (.file content)) := by
  -- neither the path nor its way depends on what the file holds
  have hpath : path (homeWith .empty) = "/.moduly/settings.json" := by decide +kernel
  have husable : (homeWith .empty).IsUsable "/.moduly/settings.json" := by decide +kernel
  have hway : (homeWith .empty).way "/.moduly/settings.json" = [".moduly", fileName] := by
    decide +kernel
  change (homeWith content).look (path (homeWith .empty)) = _
  rw [hpath]
  have hleads : Workspace.Leads (homeWith content).tree true Workspace.linkLimit []
      [".moduly", fileName] [".moduly", fileName] :=
    .enter (by decide) rfl (.stop_of_file (by decide) rfl)
  exact Workspace.look_eq_some_iff.mpr ⟨_, Workspace.find_of_way_eq husable hway hleads, rfl⟩

/-- A content with nothing but the beginning of a map. -/
def openMap : ByteArray := "\x7b".toUTF8

/-- A content with one byte that is no text. -/
def strayByte : ByteArray := ⟨#[0xff]⟩

/-- A file with the beginning of a map is read as the defaults, and `ai on` repairs it. -/
theorem settings_loaded_unless_escaping_openMap :
    (homeWith openMap).look (path (homeWith openMap)) = .ok (some (.file openMap)) ∧
      (∃ logs, (load (homeWith openMap)).result = .ok ({}, logs)) ∧
      ∃ logs, (load (runAi Markup.plain (homeWith openMap) "on").1).result =
        .ok ({ aiEnabled := true }, logs) := by
  have htext : Project.strictText? openMap.data.toList = some ['\x7b'] := by decide +kernel
  have hparse : Json.parse ['\x7b'] = .error .malformed := rfl
  have hnone : ∀ f, ¬Escapes openMap f := by
    intro f hf
    cases hf with
    | undecodable hbytes =>
      rw [Project.strictText?, hbytes] at htext
      cases htext
    | tooManyDigits htext' hparse' =>
      obtain rfl := Option.some.inj (htext.symm.trans htext')
      rw [hparse] at hparse'
      cases hparse'
  obtain ⟨-, hread⟩ := settings_loaded_unless_escaping Markup.plain (homeWith openMap)
    (look_homeWith _)
  obtain ⟨⟨s, logs, hload, -, hdefault⟩, hrepaired⟩ := hread hnone
  refine ⟨look_homeWith _, ⟨logs, ?_⟩, hrepaired⟩
  rw [hload, hdefault (not_stores_of_error htext hparse)]

/-- A file with one byte that is no text ends the reading of the settings, and `ai on` cannot repair
it, with whatever renderer. -/
theorem settings_beyond_repair :
    (homeWith strayByte).look (path (homeWith strayByte)) = .ok (some (.file strayByte)) ∧
      (load (homeWith strayByte)).result = .error .undecodable ∧
      ∀ render : Markup.Renderer, runAi render (homeWith strayByte) "on" =
        (homeWith strayByte, { exitCode := 1, escaped := some .undecodable }) := by
  have hescapes : Escapes strayByte .undecodable := .undecodable (by decide)
  have hfile := look_homeWith strayByte
  refine ⟨hfile, ?_, fun render => ?_⟩
  · rw [load_of_look hfile, result_ofContent_of_escapes _ hescapes]
  · exact runAi_of_escapes render (by unfold IsAiState; decide +kernel) hfile hescapes

end Command

end ScriptHealth
