import ScriptHealth.Project.Analysis
import ScriptHealth.Proofs.Data.Logged
import ScriptHealth.Proofs.Json.Refusal
import ScriptHealth.Proofs.Workspace.RealPath

/-!
# What manifest, audit and history give

The manifest, the audit, the history and the installed packages of a project are asked one after the
other, and each of them may have nothing to give. The theory here says what each of them gives, and
with which faults asking it ends all the same: paths with a name that is too long or with a closed
folder on the way, and integers with too many digits. Each step is described in one go: it fails
with one of its faults exactly if there is one, and otherwise it hands on what is given.

## Main definitions

* `Project.manifest?`, `Project.auditAnswer?`, `Project.commits?` — what the manifest, the audit and
  the history give, if anything
* `Project.ManifestEscape`, `Project.AuditEscape`, `Project.PackageEscape` — the faults of the
  steps, and where each of them comes from

## Main results

* `Project.yields_loadManifest`, `Project.yields_auditIfAsked`, `Project.yields_historyIfAsked`,
  `Project.installedSize_cases` — the steps
-/

namespace ScriptHealth

open Outcome

namespace Project

open Workspace

/-! ### What is given -/

section Given

variable (w : Workspace) (root : String) (tools : Tools)

/-- The manifest of a project, if its file is there and holds a JSON text. -/
def manifest? : Option Manifest :=
  match w.look (under root Manifest.fileName) with
  | .ok (some (.file content)) =>
    ((strictText? content.data.toList).bind fun text => (Json.parse text).toOption).map
      Manifest.ofValue
  | _ => none

/-- The answer of a program, if it finished with a JSON text. -/
def answer? : RunResult → Option Value
  | .finished _ output _ => (Json.parse output.toList).toOption
  | .stopped _ => none

/-- The answer of the audit, if there is something to audit. -/
def auditAnswer? : Option Value :=
  match isAuditable w root with
  | .ok true => answer? tools.audit
  | _ => none

/-- The files of all commits, if there is a repository and its log was written without a fault. -/
def commits? : Option String :=
  if isRepository tools.repositoryCheck then
    match tools.log with
    | .finished exitCode log _ => if exitCode = 0 then some log else none
    | .stopped _ => none
  else none

/-- The faults of loading the manifest, each with what it comes from. -/
inductive ManifestEscape : Fault → Prop
  | unanswered {f : Fault} (h : w.Unanswered (under root Manifest.fileName) f) : ManifestEscape f
  | numeral {content : ByteArray} {text : List Char} {digits : Nat}
      (hfile : w.look (under root Manifest.fileName) = .ok (some (.file content)))
      (htext : strictText? content.data.toList = some text)
      (hparse : Json.parse text = .error (.tooManyDigits digits)) :
      ManifestEscape (.tooManyDigits digits)

/-- The fault of reading the answer of a program. -/
inductive AnswerEscape : RunResult → Fault → Prop
  | numeral {exitCode : Int} {output errors : String} {digits : Nat}
      (hparse : Json.parse output.toList = .error (.tooManyDigits digits)) :
      AnswerEscape (.finished exitCode output errors) (.tooManyDigits digits)

/-- The faults of the audit. The lock file is looked for only where there is a manifest. -/
inductive AuditEscape : Fault → Prop
  | manifest {f : Fault} (h : w.Unanswered (under root Manifest.fileName) f) : AuditEscape f
  | lock {f : Fault} (hfile : w.isFile (under root Manifest.fileName) = .ok true)
      (h : w.Unanswered (under root Manifest.lockFileName) f) : AuditEscape f
  | answer {f : Fault} (hlock : isAuditable w root = .ok true) (h : AnswerEscape tools.audit f) :
      AuditEscape f

/-- The faults of measuring the installed packages. -/
inductive PackageEscape : Fault → Prop
  | folder {m : Manifest} {f : Fault} (hmanifest : manifest? w root = some m)
      (h : w.Unanswered (under root packageFolder) f) : PackageEscape f
  | package {m : Manifest} {name : String} {f : Fault} (hmanifest : manifest? w root = some m)
      (hfolder : w.isFolder (under root packageFolder) = .ok true)
      (hname : name ∈ m.dependencies.keys)
      (h : w.Unanswered (under (under root packageFolder) name) f) : PackageEscape f

end Given

variable {w : Workspace} {root : String} {tools : Tools}

/-! ### The manifest -/

theorem yields_loadManifest (w : Workspace) (root : String) :
    Logged.Yields (ManifestEscape w root) (manifest? w root) (loadManifest w root) := by
  intro logs
  unfold loadManifest manifest?
  cases hlook : w.look (under root Manifest.fileName) with
  | error f => exact .inl ⟨_, rfl, .unanswered (look_eq_error_iff.mp hlook)⟩
  | ok o =>
    have hanswered {f : Fault} (h : w.Unanswered (under root Manifest.fileName) f) : False := by
      cases hlook.symm.trans (look_eq_error_iff.mpr h)
    -- the manifest counts as nothing unless it is a file
    have hother (ho : ∀ content, o ≠ some (.file content)) (f : Fault) :
        ¬ManifestEscape w root f := by
      rintro (h | ⟨hfile, -, -⟩)
      · exact hanswered h
      · exact ho _ (Except.ok.inj (hlook.symm.trans hfile))
    rw [Logged.ok_bind (Logged.lift_ok o logs)]
    cases o with
    | none => exact .inr ⟨hother nofun, _, rfl⟩
    | some e =>
      cases e with
      | link target => exact .inr ⟨hother nofun, _, rfl⟩
      | closed => exact .inr ⟨hother nofun, _, rfl⟩
      | folder es => exact .inr ⟨hother nofun, _, rfl⟩
      | file content =>
        -- a file is decoded and parsed, and only one fault of these is not caught
        have hfile (hparse : ∀ text ∈ strictText? content.data.toList, ∀ digits,
            Json.parse text ≠ .error (.tooManyDigits digits)) (f : Fault) :
            ¬ManifestEscape w root f := by
          rintro (h | ⟨hfile, htext, hdigits⟩)
          · exact hanswered h
          · cases hlook.symm.trans hfile
            exact hparse _ htext _ hdigits
        dsimp only
        cases htext : strictText? content.data.toList with
        | none => exact .inr ⟨hfile (by simp [htext]), _, rfl⟩
        | some text =>
          dsimp only [Option.bind_some]
          cases hparse : Json.parse text with
          | ok v => exact .inr ⟨hfile (by simp [htext, hparse]), _, rfl⟩
          | error refused =>
            cases refused with
            | malformed => exact .inr ⟨hfile (by simp [htext, hparse]), _, rfl⟩
            | tooManyDigits digits => exact .inl ⟨_, rfl, .numeral hlook htext hparse⟩

/-! ### The audit -/

theorem isAuditable_eq_error_iff {f : Fault} : isAuditable w root = .error f ↔
    w.isFile (under root Manifest.fileName) = .error f ∨
      w.isFile (under root Manifest.fileName) = .ok true ∧
        w.isFile (under root Manifest.lockFileName) = .error f := by
  unfold isAuditable
  generalize w.isFile (under root Manifest.lockFileName) = lock
  cases w.isFile (under root Manifest.fileName) with
  | error g => exact ⟨.inl, fun h => h.resolve_right nofun⟩
  | ok there =>
    cases there with
    | false => exact ⟨nofun, fun h => nomatch (h.resolve_left nofun).1⟩
    | true => exact ⟨fun h => .inr ⟨rfl, h⟩, fun h => (h.resolve_left nofun).2⟩

theorem auditEscape_of_isAuditable {f : Fault} (h : isAuditable w root = .error f) :
    AuditEscape w root tools f := by
  rcases isAuditable_eq_error_iff.mp h with hmanifest | ⟨hfile, hlock⟩
  · exact .manifest (isFile_eq_error_iff.mp hmanifest)
  · exact .lock hfile (isFile_eq_error_iff.mp hlock)

/-- Where the two files could be looked for, only the answer of the audit is left to fail. -/
theorem not_auditEscape {auditable : Bool} (h : isAuditable w root = .ok auditable)
    (hanswer : auditable = true → ∀ f, ¬AnswerEscape tools.audit f) (f : Fault) :
    ¬AuditEscape w root tools f := by
  rintro (hmanifest | ⟨hfile, hlock⟩ | ⟨hlock, hescape⟩)
  · cases h.symm.trans (isAuditable_eq_error_iff.mpr (.inl (isFile_eq_error_iff.mpr hmanifest)))
  · cases h.symm.trans
      (isAuditable_eq_error_iff.mpr (.inr ⟨hfile, isFile_eq_error_iff.mpr hlock⟩))
  · cases h.symm.trans hlock
    exact hanswer rfl f hescape

theorem yields_auditFindings (command : String) (timeout : Value) (r : RunResult) :
    Logged.Yields (AnswerEscape r) (((answer? r).map Audit.findings).getD [])
      (auditFindings command timeout r) := by
  intro logs
  cases r with
  | stopped cause => cases cause <;> exact .inr ⟨nofun, _, rfl⟩
  | finished exitCode output errors =>
    have hescape (h : ∀ digits, Json.parse output.toList ≠ .error (.tooManyDigits digits))
        (f : Fault) : ¬AnswerEscape (.finished exitCode output errors) f := by
      rintro ⟨hparse⟩
      exact h _ hparse
    unfold auditFindings answer?
    dsimp only
    by_cases hblank : Text.trim output.toList = []
    · have hparse := Json.parse_blank hblank
      rw [if_pos hblank, hparse]
      exact .inr ⟨hescape (by simp [hparse]), _, rfl⟩
    · rw [if_neg hblank]
      cases hparse : Json.parse output.toList with
      | ok v => exact .inr ⟨hescape (by simp [hparse]), _, rfl⟩
      | error refused =>
        cases refused with
        | malformed => exact .inr ⟨hescape (by simp [hparse]), _, rfl⟩
        | tooManyDigits digits => exact .inl ⟨_, rfl, .numeral hparse⟩

theorem yields_auditIfAsked (w : Workspace) (root : String) (tools : Tools) :
    Logged.Yields (AuditEscape w root tools)
      (((auditAnswer? w root tools).map Audit.findings).getD [])
      (auditIfAsked w root {} tools) := by
  intro logs
  have hasked : ({} : Config).enableAudit.isTruthy = true := rfl
  unfold auditIfAsked audit auditAnswer?
  rw [if_pos hasked]
  cases hlock : isAuditable w root with
  | error f => exact .inl ⟨f, rfl, auditEscape_of_isAuditable hlock⟩
  | ok auditable =>
    cases auditable with
    | false => exact .inr ⟨not_auditEscape hlock nofun, _, rfl⟩
    | true =>
      have hanswer := ((yields_auditFindings auditProgram ({} : Config).auditTimeout.toValue
        tools.audit).map (·, [auditCall auditProgram ({} : Config).auditTimeout.toValue])).map
          Prod.fst
      rcases hanswer logs with ⟨f, hf, hescape⟩ | ⟨hnone, ht⟩
      · exact .inl ⟨f, hf, .answer hlock hescape⟩
      · exact .inr ⟨not_auditEscape hlock fun _ => hnone, ht⟩

/-! ### The history -/

theorem yields_historyIfAsked (root : String) (tools : Tools) :
    Logged.Yields (fun _ => False) (((commits? tools).map (Hotspot.rank 10)).getD [])
      (historyIfAsked root {} tools) := by
  intro logs
  have hasked : ({} : Config).enableGit.isTruthy = true := rfl
  refine .inr ⟨fun _ => id, ?_⟩
  unfold historyIfAsked history commits?
  rw [if_pos hasked]
  cases isRepository tools.repositoryCheck with
  | false => exact ⟨_, rfl⟩
  | true =>
    cases tools.log with
    | stopped cause => exact ⟨_, rfl⟩
    | finished exitCode log errors =>
      by_cases hexit : exitCode = 0
      · subst hexit
        exact ⟨_, rfl⟩
      · have hlog : commitLog (.finished exitCode log errors) = (do
            Logged.note .info historyLogger "git log failed: %s" [.text errors]
            return none) := if_pos hexit
        dsimp only
        rw [hlog, if_neg hexit]
        exact ⟨_, rfl⟩

/-! ### Installed packages -/

theorem folderSize_eq_error_iff {path : String} {f : Fault} :
    folderSize w path = .error f ↔ w.Unanswered path f := by
  rw [← look_eq_error_iff]
  unfold folderSize
  cases w.look path with
  | error g => exact ⟨by rintro ⟨⟩; rfl, by rintro ⟨⟩; rfl⟩
  | ok o =>
    rw [ok_bind]
    refine ⟨fun h => ?_, nofun⟩
    split at h <;> cases h

/-- The installed packages can be measured exactly if the paths of all of them are answered. -/
theorem installedSize_cases (w : Workspace) (root : String) :
    (∃ f, installedSize w root (manifest? w root) = .error f ∧ PackageEscape w root f) ∨
      (∀ f, ¬PackageEscape w root f) ∧ ∃ n, installedSize w root (manifest? w root) = .ok n := by
  cases hmanifest : manifest? w root with
  | none =>
    refine .inr ⟨?_, 0, rfl⟩
    rintro f (⟨h, -⟩ | ⟨h, -, -, -⟩)
    · cases hmanifest.symm.trans h
    · cases hmanifest.symm.trans h
  | some m =>
    unfold installedSize
    dsimp only
    cases hfolder : w.isFolder (under root packageFolder) with
    | error f => exact .inl ⟨_, rfl, .folder hmanifest (isFolder_eq_error_iff.mp hfolder)⟩
    | ok there =>
      -- what is left to fail is the way to one of the packages
      have hescape (h : there = true → ∀ name ∈ m.dependencies.keys, ∀ f,
          ¬w.Unanswered (under (under root packageFolder) name) f) (f : Fault) :
          ¬PackageEscape w root f := by
        rintro (⟨-, hunanswered⟩ | ⟨hm, htrue, hname, hunanswered⟩)
        · cases hfolder.symm.trans (isFolder_eq_error_iff.mpr hunanswered)
        · cases hmanifest.symm.trans hm
          cases hfolder.symm.trans htrue
          exact h rfl _ hname f hunanswered
      cases there with
      | false => exact .inr ⟨hescape nofun, 0, rfl⟩
      | true =>
        rw [ok_bind]
        cases hsizes : m.dependencies.keys.mapM fun name =>
            folderSize w (under (under root packageFolder) name) with
        | error f =>
          have hfails : FailsWith (PackageEscape w root) (m.dependencies.keys.mapM fun name =>
              folderSize w (under (under root packageFolder) name)) :=
            FailsWith.mapM fun name hname f hf =>
              .package hmanifest hfolder hname (folderSize_eq_error_iff.mp hf)
          exact .inl ⟨f, rfl, hfails f hsizes⟩
        | ok sizes =>
          refine .inr ⟨hescape fun _ name hname f hunanswered => ?_, _, rfl⟩
          have herror := folderSize_eq_error_iff.mpr hunanswered
          obtain ⟨size, -, hsize⟩ := exists_of_mem_right (mapM_eq_ok_iff.mp hsizes).flip hname
          cases hsize.symm.trans herror

end Project

end ScriptHealth
