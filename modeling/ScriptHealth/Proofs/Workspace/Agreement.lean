import ScriptHealth.Number.Plain
import ScriptHealth.Proofs.Workspace.Destination
import ScriptHealth.Proofs.Workspace.Parent

/-!
# Trees that agree below a folder

Two trees that hold the same files and the same folders at and below a location may differ
everywhere else. Without links, a path that is given in that folder leads to the same location in
both of them, if all locations on its way are above the folder or below it: above it there are
folders in both trees, and below it they agree. What is found below the folder has the same size in
both trees, in whatever order its folders are listed.

## Main definitions

* `Entry.AgreeAt` — two trees hold the same at and below a location
* `Workspace.StaysIn` — a path that does not leave the folder in which it is given

## Main results

* `Workspace.sizeBelow_eq_of_agreeAt` — what agrees has the same size
* `Workspace.followNames_congr_kinds` — names lead to the same location if the same locations on
  the way let pass
* `Workspace.find_under_of_staysIn` — a path that stays leads to the same location
-/

namespace ScriptHealth

namespace Entry

variable {tree tree' e e' : Entry} {place q : Location}

theorem get?_folder_singleton (es : List (String × Entry)) (name : String) :
    (folder es).get? [name] = OrderedMap.get? name es := by
  rw [get?_cons, child?_folder]
  cases OrderedMap.get? name es <;> rfl

/-- An entry without what is in it: an open folder is taken to be empty. -/
def surface : Entry → Entry
  | .folder _ => .folder []
  | e => e

theorem isFolder_surface (e : Entry) : e.surface.isFolder = e.isFolder := by
  cases e <;> rfl

theorem isDirectory_surface (e : Entry) : e.surface.isDirectory = e.isDirectory := by
  cases e <;> rfl

theorem barrier?_surface (e : Entry) : e.surface.barrier? = e.barrier? := by
  cases e <;> rfl

/-- Two trees hold the same at and below a location: files with the same bytes, links with the same
targets, and folders, which are open in both trees or closed in both. -/
def AgreeAt (tree tree' : Entry) (place : Location) : Prop :=
  ∀ below, (tree.get? (place ++ below)).map surface = (tree'.get? (place ++ below)).map surface

namespace AgreeAt

theorem refl (tree : Entry) (place : Location) : AgreeAt tree tree place := fun _ => rfl

theorem append (h : AgreeAt tree tree' place) (more : Location) :
    AgreeAt tree tree' (place ++ more) := by
  intro below
  rw [List.append_assoc]
  exact h (more ++ below)

theorem of_prefix (h : AgreeAt tree tree' place) (hq : place <+: q) : AgreeAt tree tree' q := by
  obtain ⟨more, rfl⟩ := hq
  exact h.append more

/-- What is seen of entries without looking into folders is the same at the location. -/
theorem map_eq {α : Type} (h : AgreeAt tree tree' place) {f : Entry → α}
    (hf : ∀ e, f e.surface = f e) : (tree.get? place).map f = (tree'.get? place).map f := by
  have hplace := congrArg (Option.map f) (h [])
  simpa [Option.map_map, Function.comp_def, hf] using hplace

/-- The entries at the location agree as a whole. -/
theorem entries (h : AgreeAt tree tree' place) (he : tree.get? place = some e)
    (he' : tree'.get? place = some e') : AgreeAt e e' [] := by
  intro below
  have hbelow := h below
  rwa [get?_append, get?_append, he, he', Option.bind_some, Option.bind_some] at hbelow

/-- What is no open folder agrees with itself only. -/
theorem eq_of_not_isFolder (h : AgreeAt e e' []) (he : e.isFolder = false) : e' = e := by
  have hsurface : some e.surface = some e'.surface := h []
  have hsame : e.surface = e := by
    cases e with
    | folder es => cases he
    | _ => rfl
  have hsame' : e'.surface = e' := by
    cases e' with
    | folder es' =>
      have hfolder := (isFolder_surface e).symm.trans (congrArg isFolder (Option.some.inj hsurface))
      cases he.symm.trans hfolder
    | _ => rfl
  rw [hsame, hsame'] at hsurface
  exact (Option.some.inj hsurface).symm

/-- An open folder agrees with open folders only. -/
theorem exists_folder {es : List (String × Entry)} (h : AgreeAt (.folder es) e []) :
    ∃ es', e = .folder es' := by
  have hfolder : some true = some e.isFolder := h.map_eq isFolder_surface
  exact isFolder_iff.mp (Option.some.inj hfolder).symm

section Folder

variable {es es' : List (String × Entry)} {name : String}

/-- Folders that agree have the same names in them. -/
theorem mem_keys_iff (h : AgreeAt (.folder es) (.folder es') []) :
    name ∈ OrderedMap.keys es ↔ name ∈ OrderedMap.keys es' := by
  have hname := h [name]
  rw [List.nil_append, get?_folder_singleton, get?_folder_singleton] at hname
  rw [← not_iff_not, ← OrderedMap.get?_eq_none_iff, ← OrderedMap.get?_eq_none_iff,
    ← Option.map_eq_none_iff, hname, Option.map_eq_none_iff]

/-- What stands under the same name agrees. -/
theorem child (h : AgreeAt (.folder es) (.folder es') [])
    (he : OrderedMap.get? name es = some e) (he' : OrderedMap.get? name es' = some e') :
    AgreeAt e e' [] := by
  rw [← get?_folder_singleton] at he he'
  exact (h.append [name]).entries he he'

end Folder

end AgreeAt

/-- Putting something elsewhere changes nothing at and below a location. -/
theorem agreeAt_put (tree new : Entry) (habove : ¬q <+: place) (hbelow : ¬place <+: q) :
    AgreeAt tree (tree.put q new) place := by
  intro below
  have hnot : ¬q <+: place ++ below := by
    intro hq
    rcases List.prefix_or_prefix_of_prefix hq (List.prefix_append place below) with h | h
    · exact habove h
    · exact hbelow h
  rw [get?_put_of_incomparable hnot fun h => hbelow ((List.prefix_append place below).trans h)]

/-- Putting something below an entry is putting it into the entry. -/
theorem get?_put_append_of_some (h : tree.get? place = some e) (rest : Location) (new : Entry) :
    (tree.put (place ++ rest) new).get? place = some (e.put rest new) := by
  induction place generalizing tree with
  | nil =>
    obtain rfl := Option.some.inj h
    rfl
  | cons name more ih =>
    cases tree with
    | file _ => cases h
    | link _ => cases h
    | closed => cases h
    | folder es =>
      rw [get?_cons, child?_folder] at h
      obtain ⟨d, hd, hmore⟩ := Option.bind_eq_some_iff.mp h
      rw [List.cons_append, put, get?_cons, child?_folder, OrderedMap.get?_insert, if_pos rfl,
        Option.bind_some, hd]
      exact ih hmore

/-- Above and below a location at which two trees agree, the same locations let pass, if the location is
in a folder in both of them. -/
theorem map_barrier?_eq_of_comparable {name : String} (h : AgreeAt tree tree' (place ++ [name]))
    (hfolder : ∃ es, tree.get? place = some (.folder es))
    (hfolder' : ∃ es, tree'.get? place = some (.folder es))
    (hq : q <+: place ++ [name] ∨ place ++ [name] <+: q) :
    (tree'.get? q).map barrier? = (tree.get? q).map barrier? := by
  have hbelow (hq : place ++ [name] <+: q) :
      (tree'.get? q).map barrier? = (tree.get? q).map barrier? :=
    ((h.of_prefix hq).map_eq barrier?_surface).symm
  rcases hq with hq | hq
  · rcases List.prefix_concat_iff.mp hq with rfl | hq
    · exact hbelow (List.prefix_refl _)
    · -- what is above a folder is a folder
      rw [map_barrier?_eq_some_none_iff.mpr (exists_folder_of_isPrefix hq hfolder),
        map_barrier?_eq_some_none_iff.mpr (exists_folder_of_isPrefix hq hfolder')]
  · exact hbelow hq

end Entry

namespace Workspace

open Entry

variable {w : Workspace} {tree tree' : Entry} {follow : Bool} {links : Nat} {here p : Location}
  {names : List String} {dir path : String}

/-! ### Sizes -/

/-- What an entry of a folder adds to the size of the folder. -/
def shareOf (w : Workspace) (path name : String) (e : Entry) : Nat :=
  if e.isFolder && name == packageFolder then 0 else sizeBelow w (join path name) e

open scoped Number.Plain in
theorem sizeOfAll_eq_sum (w : Workspace) (path : String) (es : List (String × Entry)) :
    sizeOfAll w path es = (es.map fun d => shareOf w path d.1 d.2).sum := by
  induction es with
  | nil => rw [sizeOfAll]; rfl
  | cons d es ih =>
    obtain ⟨name, e⟩ := d
    rw [sizeOfAll, ih, List.map_cons, List.sum_cons]
    rfl

open scoped Number.Plain in
/-- The size of a folder, name by name. -/
theorem sizeOfAll_eq_sum_keys (w : Workspace) (path : String) {es : List (String × Entry)}
    (hnodup : (OrderedMap.keys es).Nodup) :
    sizeOfAll w path es = ((OrderedMap.keys es).map fun name =>
      (OrderedMap.get? name es).elim 0 (shareOf w path name)).sum := by
  rw [sizeOfAll_eq_sum, OrderedMap.keys, List.map_map]
  congr 1
  refine List.map_congr_left fun d hd => ?_
  rw [Function.comp_apply, (OrderedMap.get?_eq_some_iff hnodup).mpr hd]
  rfl

/-- Without links, what agrees has the same size, in whatever order it is listed. -/
theorem sizeBelow_eq_of_agreeAt {e e' : Entry} (he : e.IsPlain) (he' : e'.IsPlain)
    (h : AgreeAt e e' []) (w w' : Workspace) (path : String) :
    sizeBelow w path e = sizeBelow w' path e' := by
  induction e using Entry.treeInduction generalizing e' path with
  | file content =>
    obtain rfl := h.eq_of_not_isFolder rfl
    rw [sizeBelow, sizeBelow]
  | link target => exact absurd rfl (he.noLink [] target)
  | closed =>
    obtain rfl := h.eq_of_not_isFolder rfl
    rw [sizeBelow, sizeBelow]
  | folder es ih =>
    obtain ⟨es', rfl⟩ := h.exists_folder
    have hnodup := (he.names [] es rfl).1
    have hnodup' := (he'.names [] es' rfl).1
    have hkeys : (OrderedMap.keys es).Perm (OrderedMap.keys es') :=
      (List.perm_ext_iff_of_nodup hnodup hnodup').mpr fun name => h.mem_keys_iff
    rw [sizeBelow, sizeBelow, sizeOfAll_eq_sum_keys _ _ hnodup, sizeOfAll_eq_sum_keys _ _ hnodup',
      ← (hkeys.map _).sum_nat]
    congr 2
    refine List.map_congr_left fun name hname => ?_
    -- the name stands for something in both folders
    obtain ⟨d, hd⟩ := Option.ne_none_iff_exists'.mp
      fun hnone => OrderedMap.get?_eq_none_iff.mp hnone hname
    obtain ⟨d', hd'⟩ := Option.ne_none_iff_exists'.mp
      fun hnone => OrderedMap.get?_eq_none_iff.mp hnone (h.mem_keys_iff.mp hname)
    have hmem := OrderedMap.mem_of_get?_eq_some hd
    have hplain : d.IsPlain := he.of_mem hmem
    have hplain' : d'.IsPlain := he'.of_mem (OrderedMap.mem_of_get?_eq_some hd')
    have hchild := h.child hd hd'
    have hfolder : d.isFolder = d'.isFolder := Option.some.inj (hchild.map_eq isFolder_surface)
    rw [hd, hd', Option.elim_some, Option.elim_some, shareOf, shareOf, hfolder,
      ih (name, d) hmem hplain hplain' hchild]

/-! ### Ways -/

/-- Without links, the names behind a folder are followed from that folder. -/
theorem Leads.followNames_append (h : Leads tree follow links here names p) (htree : tree.LinkFree)
    (hp : ∃ es, tree.get? p = some (.folder es)) (rest : List String) :
    followNames tree follow links here (names ++ rest) = followNames tree follow links p rest := by
  induction h with
  | stay links here => rfl
  | blank hname next ih => rw [List.cons_append, followNames, if_pos hname, ih hp]
  | up next ih => rw [List.cons_append, followNames, if_neg (by decide), if_pos rfl, ih hp]
  | stop hname hfolder hlink =>
    obtain ⟨es, hes⟩ := hp
    exact absurd hes (hfolder es)
  | enter hname hget next ih =>
    rw [List.cons_append, followNames, if_neg hname.1, if_neg hname.2.1, if_neg hname.2.2, hget]
    exact ih hp
  | link hname hget hfollow next ih => exact absurd hget (htree _ _)

/-- Names lead to the same location if the same locations on the way let pass. -/
theorem followNames_congr_kinds (htree : tree.LinkFree) (htree' : tree'.LinkFree)
    (hnames : ∀ name ∈ names, Path.IsNamed name.toList)
    (h : ∀ before, before <+: names →
      (tree'.get? (before.foldl Location.next here)).map Entry.barrier? =
        (tree.get? (before.foldl Location.next here)).map Entry.barrier?) :
    followNames tree' follow links here names = followNames tree follow links here names := by
  induction names generalizing here with
  | nil => rw [followNames, followNames]
  | cons name rest ih =>
    obtain ⟨hname, hrest⟩ := List.forall_mem_cons.mp hnames
    have hnext : followNames tree' follow links (here.next name) rest =
        followNames tree follow links (here.next name) rest :=
      ih hrest fun before hbefore => h (name :: before) (List.cons_prefix_cons.mpr ⟨rfl, hbefore⟩)
    by_cases hup : name = ".."
    · subst hup
      rw [followNames, followNames, if_neg (by decide), if_pos rfl, if_neg (by decide), if_pos rfl]
      exact hnext
    · have hplace : here.next name = here ++ [name] := if_neg hup
      have hkind := h [name] (List.cons_prefix_cons.mpr ⟨rfl, List.nil_prefix⟩)
      rw [List.foldl_cons, List.foldl_nil, hplace] at hkind
      rw [hplace] at hnext
      rw [followNames_cons htree' ⟨hname, hup⟩, followNames_cons htree ⟨hname, hup⟩, hkind, hnext]

/-- Where the way of a path begins that is given in a folder. -/
def wayStart (place : Location) (path : String) : Location := if IsAbsolute path then [] else place

/-- A path that is given in a folder does not leave it: it leads to somewhere at or below the
folder, and all locations on its way are above the folder, or at or below it. -/
structure StaysIn (place : Location) (path : String) : Prop where
  comparable : ∀ before, before <+: wayOf path →
    before.foldl Location.next (wayStart place path) <+: place ∨
      place <+: before.foldl Location.next (wayStart place path)
  inside : place <+: (wayOf path).foldl Location.next (wayStart place path)

theorem foldl_next_of_isName (here : Location) (h : ∀ name ∈ names, Location.IsName name) :
    names.foldl Location.next here = here ++ names := by
  induction names generalizing here with
  | nil => exact (List.append_nil here).symm
  | cons name rest ih =>
    obtain ⟨hname, hrest⟩ := List.forall_mem_cons.mp h
    rw [List.foldl_cons, ih _ hrest, Location.next, if_neg hname.2, List.append_assoc,
      List.singleton_append]

/-- A path that never goes up stays. -/
theorem staysIn_of_isName (place : Location) (hrelative : ¬IsAbsolute path)
    (h : ∀ name ∈ wayOf path, Location.IsName name) : StaysIn place path := by
  have hstart : wayStart place path = place := if_neg hrelative
  have hbelow (before : List String) (hbefore : before <+: wayOf path) :
      place <+: before.foldl Location.next (wayStart place path) := by
    rw [hstart, foldl_next_of_isName place fun name hname => h name (hbefore.subset hname)]
    exact List.prefix_append place before
  exact ⟨fun before hbefore => Or.inr (hbelow before hbefore), hbelow _ (List.prefix_refl _)⟩

theorem way_under_of_isAbsolute (w : Workspace) (dir : String) (h : IsAbsolute path) :
    w.way (under dir path) = wayOf path := by
  have habsolute : IsAbsolute (under dir path) := by
    unfold IsAbsolute under Path.under at *
    rw [String.toList_ofList, Path.head?_plain, Path.join, if_pos h, h]
  rw [way, absolute, wayOf_under_of_isAbsolute _ habsolute, wayOf_under_of_isAbsolute _ h]

theorem destination_under (w : Workspace) (dir path : String) :
    w.destination (under dir path) =
      (wayOf path).foldl Location.next (wayStart (w.destination dir) path) := by
  unfold destination wayStart
  by_cases h : IsAbsolute path
  · rw [if_pos h, way_under_of_isAbsolute w dir h]
  · rw [if_neg h, way_under w dir h, List.foldl_append]

/-- An open folder stands at its destination, and its way leads there. -/
theorem leads_destination (htree : w.tree.LinkFree) (h : w.IsOpen dir) :
    Leads w.tree true linkLimit [] (w.way dir) (w.destination dir) ∧
      ∃ es, w.tree.get? (w.destination dir) = some (.folder es) := by
  obtain ⟨p, es, hfind, hes⟩ := isOpen_iff.mp h
  rw [← eq_destination_of_find htree hfind]
  exact ⟨leads_way_of_find hfind, es, hes⟩

/-- A path that goes on behind a folder leads to the same location if the same locations behind the
folder let pass. -/
theorem find_congr_behind (htree : w.tree.LinkFree) (htree' : tree'.LinkFree) (hdir : w.IsOpen dir)
    (hdir' : IsOpen { w with tree := tree' } dir) (hway : w.way path = w.way dir ++ names)
    (hnames : ∀ name ∈ names, Path.IsNamed name.toList)
    (h : ∀ before, before <+: names →
      (tree'.get? (before.foldl Location.next (w.destination dir))).map Entry.barrier? =
        (w.tree.get? (before.foldl Location.next (w.destination dir))).map Entry.barrier?) :
    find { w with tree := tree' } true path = w.find true path := by
  obtain ⟨hleads, hfolder⟩ := leads_destination htree hdir
  obtain ⟨hleads', hfolder'⟩ := leads_destination (w := { w with tree := tree' }) htree' hdir'
  have hfollow : followNames tree' true linkLimit [] (w.way path) =
      followNames w.tree true linkLimit [] (w.way path) := by
    rw [hway, hleads.followNames_append htree hfolder]
    exact (hleads'.followNames_append htree' hfolder' _).trans
      (followNames_congr_kinds htree htree' hnames h)
  rw [find_eq, find_eq, ← hfollow]
  rfl

/-- **A path that stays in a folder leads to the same location** in all trees that agree there and
have the folder in the same place. -/
theorem find_under_of_staysIn {root folder : String} (hfolder : Location.IsName folder)
    (htree : w.tree.LinkFree) (htree' : tree'.LinkFree) (hroot : w.IsOpen root)
    (hroot' : IsOpen { w with tree := tree' } root)
    (hagree : AgreeAt w.tree tree' (w.destination root ++ [folder]))
    (h : StaysIn (w.destination root ++ [folder]) path) :
    find { w with tree := tree' } true (under (under root folder) path) =
      w.find true (under (under root folder) path) := by
  have htop := (leads_destination htree hroot).2
  have htop' : ∃ es, tree'.get? (w.destination root) = some (.folder es) :=
    (leads_destination (w := { w with tree := tree' }) htree' hroot').2
  have hstays (before : List String) (hbefore : before <+: wayOf path) :=
    map_barrier?_eq_of_comparable hagree htop htop' (h.comparable before hbefore)
  have hnamed : ∀ name ∈ wayOf path, Path.IsNamed name.toList := fun _ => isNamed_of_mem_wayOf
  unfold wayStart at hstays
  by_cases habsolute : IsAbsolute path
  · -- the path does not care where it is given
    rw [if_pos habsolute] at hstays
    have hfollow : followNames tree' true linkLimit [] (w.way (under (under root folder) path)) =
        followNames w.tree true linkLimit [] (w.way (under (under root folder) path)) := by
      rw [way_under_of_isAbsolute w _ habsolute]
      exact followNames_congr_kinds htree htree' hnamed hstays
    rw [find_eq, find_eq, ← hfollow]
    rfl
  · rw [if_neg habsolute] at hstays
    have hway : w.way (under (under root folder) path) = w.way root ++ folder :: wayOf path := by
      rw [way_under w _ habsolute, way_under_name w root hfolder, List.append_assoc,
        List.singleton_append]
    refine find_congr_behind htree htree' hroot hroot' hway
      (List.forall_mem_cons.mpr ⟨hfolder.1, hnamed⟩) fun before hbefore => ?_
    cases before with
    | nil =>
      rw [List.foldl_nil, map_barrier?_eq_some_none_iff.mpr htop,
        map_barrier?_eq_some_none_iff.mpr htop']
    | cons first rest =>
      obtain ⟨rfl, hrest⟩ := List.cons_prefix_cons.mp hbefore
      rw [List.foldl_cons, Location.next, if_neg hfolder.2]
      exact hstays rest hrest

/-- So does the path of that folder. -/
theorem find_under_name_of_agreeAt {root folder : String} (hfolder : Location.IsName folder)
    (htree : w.tree.LinkFree) (htree' : tree'.LinkFree) (hroot : w.IsOpen root)
    (hroot' : IsOpen { w with tree := tree' } root)
    (hagree : AgreeAt w.tree tree' (w.destination root ++ [folder])) :
    find { w with tree := tree' } true (under root folder) = w.find true (under root folder) := by
  have htop := (leads_destination htree hroot).2
  have htop' : ∃ es, tree'.get? (w.destination root) = some (.folder es) :=
    (leads_destination (w := { w with tree := tree' }) htree' hroot').2
  have hcomparable (q : Location) (hq : q <+: w.destination root ++ [folder]) :=
    map_barrier?_eq_of_comparable hagree htop htop' (.inl hq)
  refine find_congr_behind htree htree' hroot hroot' (way_under_name w root hfolder)
    (List.forall_mem_singleton.mpr hfolder.1) fun before hbefore => ?_
  -- on the way there are only the root and the folder itself
  cases before with
  | nil =>
    rw [List.foldl_nil]
    exact hcomparable _ (List.prefix_append _ _)
  | cons first rest =>
    obtain ⟨rfl, hrest⟩ := List.cons_prefix_cons.mp hbefore
    obtain rfl := List.prefix_nil.mp hrest
    rw [List.foldl_cons, List.foldl_nil, Location.next, if_neg hfolder.2]
    exact hcomparable _ (List.prefix_refl _)

end Workspace

end ScriptHealth
