import ScriptHealth.Proofs.Workspace.Growth

/-!
# Where paths lead, with links

Following names through a tree is a walk: blank names stay, two dots go up, a folder is entered, a
link is replaced by its target, and the last name may lead to something else or to nothing. The
walk is given as a relation with one rule for each kind of step, so that what holds of all walks is
proved rule by rule.

Walks that come to an end stay the same while files and folders are added and files are overwritten.
So a file that was written through a path is found by that path, and it can be written again.

## Main definitions

* `Workspace.Leads` — names lead from one location to another
* `Entry.Kept` — an entry before and after something was written

## Main results

* `Workspace.followNames_eq_ok_iff` — the walks are those that `followNames` finds
* `Workspace.Leads.of_kept` — writing keeps walks
* `Workspace.Leads.exists_folder` — a walk ends in a folder, or right below one
* `Workspace.exists_makeFolders` — a folder that was made is there
* `Workspace.exists_write` — a file that was written is there, and it could be written again
-/

namespace ScriptHealth

namespace Workspace

variable {tree tree' : Entry} {follow : Bool} {links : Nat} {here p : Location}
  {names : List String}

/-- A name that is looked up in a folder. -/
def IsLookedUp (name : String) : Prop :=
  ¬(name = "" ∨ name = ".") ∧ name ≠ ".." ∧ ¬nameLimit < name.utf8ByteSize

instance (name : String) : Decidable (IsLookedUp name) := inferInstanceAs (Decidable (_ ∧ _ ∧ _))

/-- Where the walk goes on behind a link. -/
def linkStart (target : String) (here : Location) : Location :=
  if target.toList.head? = some '/' then [] else here

/-- Names lead from a location to another one, over at most the given number of links. -/
inductive Leads (tree : Entry) (follow : Bool) :
    Nat → Location → List String → Location → Prop
  | stay (links : Nat) (here : Location) : Leads tree follow links here [] here
  | blank {links : Nat} {here p : Location} {name : String} {rest : List String}
      (hname : name = "" ∨ name = ".") (next : Leads tree follow links here rest p) :
      Leads tree follow links here (name :: rest) p
  | up {links : Nat} {here p : Location} {rest : List String}
      (next : Leads tree follow links here.dropLast rest p) :
      Leads tree follow links here (".." :: rest) p
  | stop {links : Nat} {here : Location} {name : String} (hname : IsLookedUp name)
      (hfolder : ∀ es, tree.get? (here ++ [name]) ≠ some (.folder es))
      (hlink : follow = true → ∀ target, tree.get? (here ++ [name]) ≠ some (.link target)) :
      Leads tree follow links here [name] (here ++ [name])
  | enter {links : Nat} {here p : Location} {name : String} {rest : List String}
      {es : List (String × Entry)} (hname : IsLookedUp name)
      (hget : tree.get? (here ++ [name]) = some (.folder es))
      (next : Leads tree follow links (here ++ [name]) rest p) :
      Leads tree follow links here (name :: rest) p
  | link {links : Nat} {here p : Location} {name : String} {rest : List String} {target : String}
      (hname : IsLookedUp name) (hget : tree.get? (here ++ [name]) = some (.link target))
      (hfollow : rest ≠ [] ∨ follow = true)
      (next : Leads tree follow links (linkStart target here) (namesOf target ++ rest) p) :
      Leads tree follow (links + 1) here (name :: rest) p

/-- A walk stops at a name that stands for nothing. -/
theorem Leads.stop_of_none {name : String} (hname : IsLookedUp name)
    (hnone : tree.get? (here ++ [name]) = none) :
    Leads tree follow links here [name] (here ++ [name]) :=
  .stop hname (by simp [hnone]) (by simp [hnone])

/-- A walk stops at a file. -/
theorem Leads.stop_of_file {name : String} {content : ByteArray} (hname : IsLookedUp name)
    (hfile : tree.get? (here ++ [name]) = some (.file content)) :
    Leads tree follow links here [name] (here ++ [name]) :=
  .stop hname (by simp [hfile]) (by simp [hfile])

theorem leads_of_followNames (h : followNames tree follow links here names = .ok p) :
    Leads tree follow links here names p := by
  -- a link uses up one of the links, every other step one of the names
  induction links using Nat.strongRecOn generalizing here names with
  | ind links ihLinks =>
    induction names generalizing here with
    | nil =>
      rw [followNames] at h
      cases h
      exact .stay links _
    | cons name rest ihNames =>
      rw [followNames] at h
      split at h
      · rename_i hblank
        exact .blank hblank (ihNames h)
      · rename_i hblank
        split at h
        · rename_i hup
          subst hup
          exact .up (ihNames h)
        · rename_i hup
          split at h
          · cases h
          · rename_i hlimit
            have hname : IsLookedUp name := ⟨hblank, hup, hlimit⟩
            cases hget : tree.get? (here ++ [name]) with
            | none =>
              rw [hget] at h
              dsimp only at h
              split at h
              · rename_i hrest
                subst hrest
                cases h
                exact .stop hname (by simp [hget]) (by simp [hget])
              · cases h
            | some e =>
              rw [hget] at h
              cases e with
              | file content =>
                dsimp only at h
                split at h
                · rename_i hrest
                  subst hrest
                  cases h
                  exact .stop hname (by simp [hget]) (by simp [hget])
                · cases h
              | closed =>
                dsimp only at h
                split at h
                · rename_i hrest
                  subst hrest
                  cases h
                  exact .stop hname (by simp [hget]) (by simp [hget])
                · cases h
              | folder es => exact .enter hname hget (ihNames h)
              | link target =>
                dsimp only at h
                split at h
                · rename_i hstop
                  simp only [Bool.and_eq_true, decide_eq_true_eq, Bool.not_eq_true'] at hstop
                  obtain ⟨rfl, rfl⟩ := hstop
                  cases h
                  exact .stop hname (by simp [hget]) (by simp)
                · rename_i hgo
                  cases links with
                  | zero => cases h
                  | succ n =>
                    refine .link hname hget ?_ (ihLinks n (Nat.lt_succ_self n) h)
                    by_cases hrest : rest = []
                    · exact .inr (by simpa [hrest] using hgo)
                    · exact .inl hrest

theorem followNames_of_leads (h : Leads tree follow links here names p) :
    followNames tree follow links here names = .ok p := by
  induction h with
  | stay links here => rw [followNames]
  | blank hname next ih => rw [followNames, if_pos hname, ih]
  | up next ih => rw [followNames, if_neg (by decide), if_pos rfl, ih]
  | @stop links here name hname hfolder hlink =>
    rw [followNames, if_neg hname.1, if_neg hname.2.1, if_neg hname.2.2]
    cases hget : tree.get? (here ++ [name]) with
    | none => rfl
    | some e =>
      cases e with
      | file content => rfl
      | closed => rfl
      | folder es => exact absurd hget (hfolder es)
      | link target =>
        cases follow with
        | true => exact absurd hget (hlink rfl target)
        | false => rfl
  | enter hname hget next ih =>
    rw [followNames, if_neg hname.1, if_neg hname.2.1, if_neg hname.2.2, hget]
    exact ih
  | @link links here p name rest target hname hget hfollow next ih =>
    have hgo : ¬(decide (rest = []) && !follow) = true := by
      rcases hfollow with hrest | rfl <;> simp [*]
    rw [followNames, if_neg hname.1, if_neg hname.2.1, if_neg hname.2.2, hget]
    dsimp only
    rw [if_neg hgo]
    exact ih

/-- The walks are those that `followNames` finds. -/
theorem followNames_eq_ok_iff :
    followNames tree follow links here names = .ok p ↔ Leads tree follow links here names p :=
  ⟨leads_of_followNames, followNames_of_leads⟩

/-! ### Where walks end -/

/-- Above a folder there are folders. -/
theorem exists_folder_dropLast (h : ∃ es, tree.get? here = some (.folder es)) :
    ∃ es, tree.get? here.dropLast = some (.folder es) := by
  obtain ⟨es, hes⟩ := h
  rcases List.eq_nil_or_concat' here with rfl | ⟨before, name, rfl⟩
  · exact ⟨es, hes⟩
  · obtain ⟨ds, -, hds, -⟩ := Entry.exists_folder_of_get? hes
    exact ⟨ds, by simpa using hds⟩

/-- A walk from the top leads to a folder or right below one. -/
theorem Leads.exists_folder (h : Leads tree follow links here names p)
    (hhere : ∃ es, tree.get? here = some (.folder es))
    (htop : ∃ es, tree.get? [] = some (.folder es)) :
    (∃ es, tree.get? p = some (.folder es)) ∨
      ∃ q name es, p = q ++ [name] ∧ tree.get? q = some (.folder es) ∧
        (follow = true → ∀ target, tree.get? p ≠ some (.link target)) := by
  induction h with
  | stay links here => exact .inl hhere
  | blank hname next ih => exact ih hhere
  | up next ih => exact ih (exists_folder_dropLast hhere)
  | stop hname hfolder hlink =>
    obtain ⟨es, hes⟩ := hhere
    exact .inr ⟨_, _, es, rfl, hes, hlink⟩
  | enter hname hget next ih => exact ih ⟨_, hget⟩
  | link hname hget hfollow next ih =>
    refine ih ?_
    unfold linkStart
    split
    · exact htop
    · exact hhere

/-- The folders on the way to a folder are entered one after the other. -/
theorem Leads.through {before rest : List String}
    (h : Leads tree follow links (here ++ before) rest p)
    (hfolder : ∃ es, tree.get? (here ++ before) = some (.folder es))
    (hnames : ∀ name ∈ before, IsLookedUp name) :
    Leads tree follow links here (before ++ rest) p := by
  induction before generalizing here with
  | nil => simpa using h
  | cons name before ih =>
    obtain ⟨hname, hnames⟩ := List.forall_mem_cons.mp hnames
    have hhere : ∃ es, tree.get? (here ++ [name]) = some (.folder es) := by
      obtain ⟨es, hes⟩ := hfolder
      cases before with
      | nil => exact ⟨es, hes⟩
      | cons next more =>
        rw [List.append_cons] at hes
        obtain ⟨ds, -, hds, -⟩ := Entry.exists_folder_of_get? hes
        exact ⟨ds, hds⟩
    obtain ⟨es, hes⟩ := hhere
    rw [List.append_cons] at h hfolder
    exact .enter hname hes (ih h hfolder hnames)

/-- Where something is found behind all links, something is found without following the last one. -/
theorem Leads.exists_unfollowed (h : Leads tree true links here names p) {e : Entry}
    (he : tree.get? p = some e) :
    ∃ q d, Leads tree false links here names q ∧ tree.get? q = some d := by
  induction h with
  | stay links here => exact ⟨here, e, .stay links here, he⟩
  | blank hname next ih =>
    obtain ⟨q, d, hq, hd⟩ := ih he
    exact ⟨q, d, .blank hname hq, hd⟩
  | up next ih =>
    obtain ⟨q, d, hq, hd⟩ := ih he
    exact ⟨q, d, .up hq, hd⟩
  | stop hname hfolder hlink => exact ⟨_, e, .stop hname hfolder (fun h => nomatch h), he⟩
  | enter hname hget next ih =>
    obtain ⟨q, d, hq, hd⟩ := ih he
    exact ⟨q, d, .enter hname hget hq, hd⟩
  | @link links here p name rest target hname hget hfollow next ih =>
    by_cases hrest : rest = []
    · -- the walk stops at the link itself
      subst hrest
      exact ⟨_, _, .stop hname (by simp [hget]) (fun h => nomatch h), hget⟩
    · obtain ⟨q, d, hq, hd⟩ := ih he
      exact ⟨q, d, .link hname hget (.inl hrest) hq, hd⟩

/-- Where nothing is found there is no link to follow. -/
theorem Leads.followed_of_none (h : Leads tree false links here names p) (hp : tree.get? p = none) :
    Leads tree true links here names p := by
  induction h with
  | stay links here => exact .stay links here
  | blank hname next ih => exact .blank hname (ih hp)
  | up next ih => exact .up (ih hp)
  | stop hname hfolder hlink => exact .stop hname hfolder (by simp [hp])
  | enter hname hget next ih => exact .enter hname hget (ih hp)
  | link hname hget hfollow next ih => exact .link hname hget (.inr rfl) (ih hp)

end Workspace

/-! ### Writing -/

namespace Entry

/-- An entry before and after something was written: it is the same, a folder or a file both times,
or a folder or a file that is new. -/
inductive Kept : Option Entry → Option Entry → Prop
  | same (o : Option Entry) : Kept o o
  | folder (es es' : List (String × Entry)) : Kept (some (.folder es)) (some (.folder es'))
  | file (content content' : ByteArray) : Kept (some (.file content)) (some (.file content'))
  | newFolder (es : List (String × Entry)) : Kept none (some (.folder es))
  | newFile (content : ByteArray) : Kept none (some (.file content))

variable {tree : Entry} {place : Location}

theorem Kept.of_grown {a b : Option Entry} (h : Grown a b) : Kept a b := by
  cases h with
  | same => exact .same _
  | folder es es' => exact .folder es es'
  | made es => exact .newFolder es

theorem Kept.exists_folder {es : List (String × Entry)} {b : Option Entry}
    (h : Kept (some (.folder es)) b) : ∃ es', b = some (.folder es') := by
  cases h with
  | same => exact ⟨es, rfl⟩
  | folder _ es' => exact ⟨es', rfl⟩

/-- Making a folder where there is nothing keeps all entries. -/
theorem kept_put_folder (h : tree.get? place = none) (q : Location) :
    Kept (tree.get? q) ((tree.put place (.folder [])).get? q) := by
  have hstep : Step (fun _ => True) (fun _ => False) tree (tree.put place (.folder [])) :=
    .folder trivial h
  exact .of_grown (hstep.grown id)

/-- So does writing a file where there is neither a folder nor a link. -/
theorem kept_put_file (hfile : tree.IsWritable place)
    (hlink : ∀ target, tree.get? place ≠ some (.link target)) (content : ByteArray) (q : Location) :
    Kept (tree.get? q) ((tree.put place (.file content)).get? q) := by
  by_cases hq : q = place
  · subst hq
    rcases get?_put_append tree (.file content) q [] with hput | hput
    · rw [List.append_nil] at hput
      rw [hput]
      cases hget : tree.get? q with
      | none => exact .newFile content
      | some e =>
        cases e with
        | file before => exact .file before content
        | folder es => exact absurd hget (hfile.ne_folder es)
        | closed => exact Bool.noConfusion (hfile _ hget)
        | link target => exact absurd hget (hlink target)
    · rw [List.append_nil] at hput
      rw [hput]
      exact .same _
  · have hstep : Step (fun _ => False) (· = place) tree (tree.put place (.file content)) :=
      .file content rfl hfile
    exact .of_grown (hstep.grown hq)

end Entry

namespace Workspace

variable {tree tree' : Entry} {follow : Bool} {links : Nat} {here p : Location}
  {names : List String}

/-- Writing keeps walks. -/
theorem Leads.of_kept (h : Leads tree follow links here names p)
    (hkept : ∀ q, Entry.Kept (tree.get? q) (tree'.get? q)) :
    Leads tree' follow links here names p := by
  induction h with
  | stay links here => exact .stay links here
  | blank hname next ih => exact .blank hname ih
  | up next ih => exact .up ih
  | @stop links here name hname hfolder hlink =>
    -- the walk stops there again, or it enters the folder that was made there
    have hentry := hkept (here ++ [name])
    cases hget : tree.get? (here ++ [name]) with
    | none =>
      rw [hget] at hentry
      generalize hget' : tree'.get? (here ++ [name]) = after at hentry
      cases hentry with
      | same => exact .stop hname (by simp [hget']) (by simp [hget'])
      | newFolder es => exact .enter hname hget' (.stay links _)
      | newFile content => exact .stop hname (by simp [hget']) (by simp [hget'])
    | some e =>
      rw [hget] at hentry hfolder hlink
      generalize hget' : tree'.get? (here ++ [name]) = after at hentry
      cases hentry with
      | same => exact .stop hname (hget' ▸ hfolder) (hget' ▸ hlink)
      | folder es es' => exact absurd rfl (hfolder es)
      | file content content' => exact .stop hname (by simp [hget']) (by simp [hget'])
  | @enter links here p name rest es hname hget next ih =>
    have hentry := hkept (here ++ [name])
    rw [hget] at hentry
    obtain ⟨es', hes'⟩ := hentry.exists_folder
    exact .enter hname hes' ih
  | @link links here p name rest target hname hget hfollow next ih =>
    have hentry := hkept (here ++ [name])
    rw [hget] at hentry
    generalize hget' : tree'.get? (here ++ [name]) = after at hentry
    cases hentry with
    | same => exact .link hname hget' hfollow ih

/-! ### Paths -/

variable {w v : Workspace} {path : String}

/-- What a path has to be like, whatever the tree holds. -/
def IsUsable (w : Workspace) (path : String) : Prop :=
  '\x00' ∉ (w.absolute path).toList ∧ path ≠ "" ∧ ¬pathLimit < path.utf8ByteSize

instance (w : Workspace) (path : String) : Decidable (w.IsUsable path) :=
  inferInstanceAs (Decidable (_ ∧ _ ∧ _))

theorem find_eq_ok_iff : w.find follow path = .ok p ↔
    w.IsUsable path ∧ Leads w.tree follow linkLimit [] (namesOf (w.absolute path)) p := by
  unfold find IsUsable
  dsimp only
  rw [← followNames_eq_ok_iff]
  split
  · rename_i hnul
    constructor
    · rintro ⟨⟩
    · rintro ⟨⟨hnot, -⟩, -⟩
      exact absurd (by simpa using hnul) hnot
  · rename_i hnul
    split
    · rename_i hempty
      simp [hempty]
    · rename_i hempty
      split
      · rename_i hsize
        simp [hsize]
      · rename_i hsize
        simp only [List.contains_eq_mem, decide_eq_true_eq] at hnul
        simp [hnul, hempty, hsize]

theorem find_of_way (husable : w.IsUsable path)
    (h : Leads w.tree follow linkLimit [] (w.way path) p) : w.find follow path = .ok p := by
  rw [find_eq, if_neg (by simpa using husable.1), if_neg husable.2.1, if_neg husable.2.2]
  exact followNames_of_leads h

theorem find_of_way_eq (husable : w.IsUsable path) (hway : w.way path = names)
    (h : Leads w.tree follow linkLimit [] names p) : w.find follow path = .ok p :=
  find_of_way husable (hway ▸ h)

/-- The top of a tree is found in it. -/
theorem find_top (tree : Entry) : find { tree } true "/" = .ok [] := by
  have husable : IsUsable { tree } "/" := by
    change IsUsable {} "/"
    decide +kernel
  have hway : way { tree } "/" = [] := by
    change way {} "/" = []
    decide +kernel
  exact find_of_way_eq husable hway (.stay _ _)

theorem look_top (tree : Entry) : look { tree } "/" = .ok (some tree) :=
  look_of_find (find_top tree)

/-- Writing keeps where paths lead to. -/
theorem find_of_kept (h : w.find follow path = .ok p)
    (hkept : ∀ q, Entry.Kept (w.tree.get? q) (tree'.get? q)) :
    find { w with tree := tree' } follow path = .ok p := by
  rw [find_eq_ok_iff] at h ⊢
  exact ⟨h.1, h.2.of_kept hkept⟩

/-- A folder that is open stays open. -/
theorem IsOpen.of_kept (h : w.IsOpen path)
    (hkept : ∀ q, Entry.Kept (w.tree.get? q) (tree'.get? q)) :
    IsOpen { w with tree := tree' } path := by
  obtain ⟨p, es, hfind, hget⟩ := isOpen_iff.mp h
  obtain ⟨es', hes'⟩ := (hget ▸ hkept p).exists_folder
  exact isOpen_iff.mpr ⟨p, es', find_of_kept hfind hkept, hes'⟩

/-- A folder stays a folder. -/
theorem isFolder_of_kept (h : w.isFolder path = .ok true)
    (hkept : ∀ q, Entry.Kept (w.tree.get? q) (tree'.get? q)) :
    isFolder { w with tree := tree' } path = .ok true := by
  rcases isFolder_eq_ok_true_iff.mp h with hclosed | hopen
  · obtain ⟨p, hfind, hget⟩ := look_eq_some_iff.mp hclosed
    have hsame := hkept p
    rw [hget] at hsame
    generalize hget' : tree'.get? p = after at hsame
    cases hsame with
    | same =>
      exact isFolder_eq_ok_true_iff.mpr
        (.inl (look_eq_some_iff.mpr ⟨p, find_of_kept hfind hkept, hget'⟩))
  · exact (hopen.of_kept hkept).isFolder

theorem isFolder_of_keepUnlessFolder {f : FileFault}
    (h : makeFolders.keepUnlessFolder w path f = none) : w.isFolder path = .ok true := by
  unfold makeFolders.keepUnlessFolder at h
  split at h
  · cases h
  · rename_i hfolder
    exact hfolder
  · cases h
  · cases h

/-- A folder that was made is there. -/
theorem exists_makeFolder (h : w.makeFolder path = .ok v)
    (htop : ∃ es, w.tree.get? [] = some (.folder es)) :
    ∃ tree', v = { w with tree := tree' } ∧ (∃ es, tree'.get? [] = some (.folder es)) ∧
      v.isFolder path = .ok true := by
  obtain ⟨place, hfind, h⟩ := Outcome.bind_eq_ok.mp h
  split at h
  · cases h
  · rename_i hnone
    obtain rfl := Except.ok.inj h
    obtain ⟨top, htop'⟩ := htop
    refine ⟨_, rfl, (htop' ▸ Entry.kept_put_folder hnone []).exists_folder, ?_⟩
    obtain ⟨husable, hleads⟩ := find_eq_ok_iff.mp hfind
    have hfollowed : w.find true path = .ok place :=
      find_eq_ok_iff.mpr ⟨husable, hleads.followed_of_none hnone⟩
    refine IsOpen.isFolder (isOpen_iff.mpr
      ⟨place, [], find_of_kept hfollowed (Entry.kept_put_folder hnone), ?_⟩)
    obtain ⟨es, hes⟩ | ⟨q, name, es, rfl, hes, -⟩ := hleads.exists_folder ⟨top, htop'⟩ ⟨top, htop'⟩
    · rw [hnone] at hes
      cases hes
    · exact Entry.get?_put_self hes name _

/-- Making folders changes the tree only, and a folder that was made without a fault is there. -/
theorem exists_makeFolders {n : Nat} {f : Option Fault} (h : w.makeFolders path n = (v, f))
    (htop : ∃ es, w.tree.get? [] = some (.folder es)) :
    ∃ tree', v = { w with tree := tree' } ∧ (∃ es, tree'.get? [] = some (.folder es)) ∧
      (f = none → 0 < n → v.isFolder path = .ok true) := by
  induction n generalizing w v f path with
  | zero =>
    cases h
    exact ⟨w.tree, rfl, htop, fun _ hn => absurd hn (Nat.lt_irrefl 0)⟩
  | succ n ih =>
    unfold makeFolders at h
    split at h
    · rename_i made hmade
      cases h
      obtain ⟨tree', hv, htop', hfolder⟩ := exists_makeFolder hmade htop
      exact ⟨tree', hv, htop', fun _ _ => hfolder⟩
    · split at h
      · cases h
        exact ⟨w.tree, rfl, htop, fun hnone => absurd hnone (Option.some_ne_none _)⟩
      · split at h
        · rename_i u g hparent
          cases h
          obtain ⟨tree', hv, htop', -⟩ := ih hparent htop
          exact ⟨tree', hv, htop', fun hnone => absurd hnone (Option.some_ne_none _)⟩
        · rename_i u hparent
          obtain ⟨tree', rfl, htop', -⟩ := ih hparent htop
          split at h
          · rename_i made hmade
            cases h
            obtain ⟨tree'', hv, htop'', hfolder⟩ := exists_makeFolder hmade htop'
            exact ⟨tree'', hv, htop'', fun _ _ => hfolder⟩
          · cases h
            exact ⟨tree', rfl, htop', fun hnone _ => isFolder_of_keepUnlessFolder hnone⟩
    · cases h
      exact ⟨w.tree, rfl, htop, fun hnone _ => isFolder_of_keepUnlessFolder hnone⟩

/-- A folder that is there need not be made. -/
theorem makeFolders_of_isFolder (h : w.isFolder path = .ok true) (n : Nat) :
    w.makeFolders path n = (w, none) := by
  cases n with
  | zero => rfl
  | succ n =>
    obtain ⟨p, e, hfind, hget, -⟩ := exists_of_isFolder h
    obtain ⟨husable, hleads⟩ := find_eq_ok_iff.mp hfind
    -- making it fails, as something is there, and that is forgiven for a folder
    obtain ⟨q, d, hq, hd⟩ := hleads.exists_unfollowed hget
    have hmade : w.makeFolder path = .error .taken := by
      rw [makeFolder, find_eq_ok_iff.mpr ⟨husable, hq⟩, Outcome.ok_bind, hd]
      rfl
    have hkeep : makeFolders.keepUnlessFolder w path .taken = none := by
      unfold makeFolders.keepUnlessFolder
      rw [h]
    unfold makeFolders
    rw [hmade]
    dsimp only
    rw [hkeep]

/-- A file can be written where there is no folder. -/
theorem write_of_find (hfind : w.find true path = .ok p) (hfile : w.tree.IsWritable p)
    (content : ByteArray) :
    w.write path content = .ok { w with tree := w.tree.put p (.file content) } :=
  write_eq_ok_iff.mpr ⟨p, hfind, hfile, rfl⟩

/-- Writing a file works out the same way for every content; the file that was written is there. -/
theorem exists_write {content : ByteArray} (h : w.write path content = .ok v)
    (htop : ∃ es, w.tree.get? [] = some (.folder es)) :
    ∃ place, w.find true path = .ok place ∧ ∀ content' : ByteArray, ∃ tree',
      w.write path content' = .ok { w with tree := tree' } ∧
      find { w with tree := tree' } true path = .ok place ∧
      tree'.get? place = some (.file content') ∧
      ∀ q, Entry.Kept (w.tree.get? q) (tree'.get? q) := by
  obtain ⟨place, hfind, hfile, -⟩ := write_eq_ok_iff.mp h
  have hleads := (find_eq_ok_iff.mp hfind).2
  obtain ⟨es, hes⟩ | ⟨q, name, es, rfl, hes, hlink⟩ := hleads.exists_folder htop htop
  · exact absurd hes (hfile.ne_folder es)
  · refine ⟨_, hfind, fun content' => ?_⟩
    have hkept := Entry.kept_put_file hfile (hlink rfl) content'
    exact ⟨_, write_of_find hfind hfile content', find_of_kept hfind hkept,
      Entry.get?_put_self hes name _, hkept⟩

end Workspace

end ScriptHealth
