import ScriptHealth.Project.Manifest
import ScriptHealth.Proofs.Workspace.Agreement

/-!
# What the size of the installed packages depends on

The packages of a manifest are measured by paths: the name of each package is taken as a path in the
folder of installed packages. No name is refused, so a name may be any path, also one that goes up or
starts at the top. As long as no name leaves the folder, the size is a function of what is in the
folder, and nothing else in the tree matters. A name that does leave it and leads to a folder
elsewhere gives the size of that folder away: it grows with every file that is put there, although
nothing in the folder of installed packages has changed.

## Main definitions

* `Project.packagesAt` — the location of the folder of installed packages
* `Project.SamePackages` — another tree with the same installed packages

## Main results

* `Project.SamePackages.installedSize_eq` — the size depends on the installed packages only
* `Project.installedSize_withFile` — a name that leaves their folder measures what is elsewhere
* `Project.installedSize_confined_unless_leaving` — both
-/

namespace ScriptHealth

namespace Project

open Workspace Entry

variable {w : Workspace} {tree' : Entry} {root path name : String} {p : Location}

/-- The location of the folder of installed packages. -/
def packagesAt (w : Workspace) (root : String) : Location := w.destination root ++ [packageFolder]

/-- Another tree for a project, plain and with an open folder at the root as well, that holds the same
installed packages. -/
structure SamePackages (w : Workspace) (root : String) (tree' : Entry) : Prop where
  plain : tree'.IsPlain
  isOpen : IsOpen { w with tree := tree' } root
  agree : AgreeAt w.tree tree' (packagesAt w root)

theorem destination_packages (w : Workspace) (root : String) :
    w.destination (under root packageFolder) = packagesAt w root :=
  destination_under_name w root (by decide)

/-! ### Trees that agree -/

theorem folderSize_of_find (h : w.find true path = .ok p) :
    folderSize w path =
      .ok ((w.tree.get? p).elim 0 fun e => if e.isFolder then sizeBelow w path e else 0) := by
  unfold folderSize
  rw [look_of_find h, Outcome.ok_bind]
  cases w.tree.get? p with
  | none => rfl
  | some e =>
    cases e with
    | file content => rfl
    | link target => rfl
    | closed => rfl
    | folder es =>
      rw [Option.elim_some, sizeBelow, if_neg (find_eq_ok_iff.mp h).1.2.2]
      rfl

/-- The size of a folder is the same in two trees that agree there. -/
theorem folderSize_congr (htree : w.tree.IsPlain) (htree' : tree'.IsPlain)
    (hfind : find { w with tree := tree' } true path = w.find true path)
    (hagree : ∀ p, w.find true path = .ok p → AgreeAt w.tree tree' p) :
    folderSize { w with tree := tree' } path = folderSize w path := by
  cases hplace : w.find true path with
  | error f =>
    unfold folderSize look
    rw [entry_of_find_error hplace, entry_of_find_error (hfind.trans hplace)]
    cases f <;> rfl
  | ok p =>
    have hp := hagree p hplace
    have hkind := hp.map_eq isFolder_surface
    rw [folderSize_of_find (hfind.trans hplace), folderSize_of_find hplace]
    cases hget : w.tree.get? p with
    | none =>
      rw [hget, Option.map_none] at hkind
      rw [Option.map_eq_none_iff.mp hkind.symm]
      rfl
    | some e =>
      rw [hget, Option.map_some] at hkind
      obtain ⟨e', hget', hfolder⟩ := Option.map_eq_some_iff.mp hkind.symm
      have hsize := sizeBelow_eq_of_agreeAt (htree.of_get? hget) (htree'.of_get? hget')
        (hp.entries hget hget') w { w with tree := tree' } path
      rw [hget', Option.elim_some, Option.elim_some, hfolder, hsize]

theorem isFolder_congr (hfind : find { w with tree := tree' } true path = w.find true path)
    (hkind : ∀ p, w.find true path = .ok p →
      (tree'.get? p).map Entry.isDirectory = (w.tree.get? p).map Entry.isDirectory) :
    Workspace.isFolder { w with tree := tree' } path = w.isFolder path := by
  unfold Workspace.isFolder
  cases hplace : w.find true path with
  | error f =>
    unfold look
    rw [entry_of_find_error hplace, entry_of_find_error (hfind.trans hplace)]
  | ok p =>
    rw [look_of_find (hfind.trans hplace), look_of_find hplace]
    exact congrArg (fun o => Except.ok (o.getD false)) (hkind p hplace)

/-- A path in the folder of installed packages leads to the same location in two trees that agree on
them, as long as it stays there. -/
theorem SamePackages.find_eq (h : SamePackages w root tree') (htree : w.tree.IsPlain)
    (hroot : w.IsOpen root) (hname : StaysIn (packagesAt w root) name) :
    find { w with tree := tree' } true (under (under root packageFolder) name) =
      w.find true (under (under root packageFolder) name) :=
  find_under_of_staysIn (by decide) htree.noLink h.plain.noLink hroot h.isOpen h.agree hname

/-- The folder of installed packages is a folder in both of two trees that agree there, or in
none. -/
theorem SamePackages.isFolder_eq (h : SamePackages w root tree') (htree : w.tree.IsPlain)
    (hroot : w.IsOpen root) :
    Workspace.isFolder { w with tree := tree' } (under root packageFolder) =
      w.isFolder (under root packageFolder) := by
  have hfind := find_under_name_of_agreeAt (by decide) htree.noLink h.plain.noLink hroot h.isOpen
    h.agree
  refine isFolder_congr hfind fun p hp => ?_
  rw [eq_destination_of_find htree.noLink hp, destination_packages]
  exact (h.agree.map_eq isDirectory_surface).symm

/-- The size of the installed packages is the same in two trees that agree on them, if no name
leaves their folder. -/
theorem SamePackages.installedSize_eq (h : SamePackages w root tree') (htree : w.tree.IsPlain)
    (hroot : w.IsOpen root) (manifest : Option Manifest)
    (hstays : ∀ m, manifest = some m →
      ∀ name ∈ m.dependencies.keys, StaysIn (packagesAt w root) name) :
    installedSize { w with tree := tree' } root manifest = installedSize w root manifest := by
  cases manifest with
  | none => rfl
  | some m =>
    have hsizes : m.dependencies.keys.mapM (fun name =>
          folderSize { w with tree := tree' } (under (under root packageFolder) name)) =
        m.dependencies.keys.mapM fun name =>
          folderSize w (under (under root packageFolder) name) := by
      apply Outcome.mapM_congr
      intro name hname
      have hname := hstays m rfl name hname
      refine folderSize_congr htree h.plain (h.find_eq htree hroot hname) fun p hp => ?_
      rw [eq_destination_of_find htree.noLink hp, destination_under, destination_packages]
      exact h.agree.of_prefix hname.inside
    unfold installedSize
    dsimp only
    rw [h.isFolder_eq htree hroot, hsizes]

/-! ### Names that leave the folder -/

/-- A manifest with one package. -/
theorem installedSize_of_singleton {m : Manifest} {n : Nat} (hkeys : m.dependencies.keys = [name])
    (hpackages : w.isFolder (under root packageFolder) = .ok true)
    (hsize : folderSize w (under (under root packageFolder) name) = .ok n) :
    installedSize w root (some m) = .ok n := by
  simp only [installedSize, hpackages, hkeys, List.mapM_cons, List.mapM_nil, hsize, Outcome.ok_bind]
  exact congrArg Except.ok (Nat.add_zero n)

/-- A new file whose path is not too long adds its size to that of the folder. -/
theorem sizeOfAll_concat_file {es : List (String × Entry)} (hes : (folder es).IsPlain)
    (hlimit : path.utf8ByteSize ≤ pathLimit) {new : String}
    (hnew : (join path new).utf8ByteSize ≤ pathLimit) (w w' : Workspace) (content : ByteArray) :
    sizeOfAll w' path (es ++ [(new, .file content)]) = sizeOfAll w path es + content.size := by
  have hold := sizeBelow_eq_of_agreeAt hes hes (.refl _ _) w' w path
  rw [sizeBelow, sizeBelow, if_neg (Nat.not_lt.mpr hlimit), if_neg (Nat.not_lt.mpr hlimit),
    sizeOfAll_eq_sum] at hold
  rw [sizeOfAll_eq_sum, List.map_append, List.sum_append, hold, List.map_singleton,
    List.sum_singleton, shareOf, sizeBelow, if_neg (Nat.not_lt.mpr hnew)]
  rfl

/-- A tree with one more file in the folder that a path leads to. -/
def withFile (w : Workspace) (path new : String) (content : ByteArray) : Entry :=
  w.tree.put (w.destination path ++ [new]) (.file content)

/-- A name that leads to a folder elsewhere measures that folder: the trees with and without a new
file in it agree on the installed packages, and the size grows with the file unless the path of the
file is too long. -/
theorem installedSize_withFile (htree : w.tree.IsPlain) (hroot : w.IsOpen root)
    (hpackages : w.isFolder (under root packageFolder) = .ok true) {es : List (String × Entry)}
    (hlook : w.look (under (under root packageFolder) name) = .ok (some (.folder es)))
    (hleaves : ¬packagesAt w root <+: w.destination (under (under root packageFolder) name))
    {new : String} (hname : Location.IsName new) (hnew : new ∉ OrderedMap.keys es)
    (content : ByteArray) :
    SamePackages w root (withFile w (under (under root packageFolder) name) new content) ∧
      ((join (under (under root packageFolder) name) new).utf8ByteSize ≤ pathLimit →
        ∀ m : Manifest, m.dependencies.keys = [name] →
          ∃ n, installedSize w root (some m) = .ok n ∧
            installedSize { w with
              tree := withFile w (under (under root packageFolder) name) new content } root
              (some m) = .ok (n + content.size)) := by
  obtain ⟨p, hfind, hes⟩ := look_eq_some_iff.mp hlook
  unfold withFile
  rw [← eq_destination_of_find htree.noLink hfind] at hleaves ⊢
  have hnone : w.tree.get? (p ++ [new]) = none := by
    rw [get?_append, hes, Option.bind_some, get?_folder_singleton,
      OrderedMap.get?_eq_none_iff.mpr hnew]
  have hkept : ∀ q, Kept (w.tree.get? q) ((w.tree.put (p ++ [new]) (.file content)).get? q) :=
    kept_put_file (isWritable_of_none hnone) (by simp [hnone]) content
  refine ⟨⟨?_, hroot.of_kept hkept, ?_⟩,
    fun hsize m hkeys => ⟨sizeOfAll w (under (under root packageFolder) name) es, ?_, ?_⟩⟩
  · refine htree.put (fun n hn => ?_) (isPlain_file content)
    rcases List.mem_append.mp hn with hn | hn
    · exact htree.isName_of_get? hes n hn
    · rwa [List.mem_singleton.mp hn]
  · -- the new file is not below the packages, and no folder above them is new
    obtain ⟨q, e, hq, he, -⟩ := exists_of_isFolder hpackages
    rw [eq_destination_of_find htree.noLink hq, destination_packages] at he
    refine agreeAt_put _ _ ?_ ?_
    · rintro ⟨below, hbelow⟩
      rw [← hbelow, get?_append, hnone] at he
      cases he
    · intro hprefix
      rcases List.prefix_concat_iff.mp hprefix with heq | hprefix
      · rw [heq, hnone] at he
        cases he
      · exact hleaves hprefix
  · refine installedSize_of_singleton hkeys hpackages ?_
    unfold folderSize
    rw [hlook]
    rfl
  · have hes' : (w.tree.put (p ++ [new]) (.file content)).get? p =
        some (.folder (es ++ [(new, .file content)])) := by
      rw [get?_put_append_of_some hes, put, put, OrderedMap.insert_eq_append hnew]
    refine installedSize_of_singleton hkeys (isFolder_of_kept hpackages hkept) ?_
    unfold folderSize
    rw [look_of_find (find_of_kept hfind hkept), hes', Outcome.ok_bind]
    exact congrArg Except.ok (sizeOfAll_concat_file (htree.of_get? hes)
      (Nat.not_lt.mp (find_eq_ok_iff.mp hfind).1.2.2) hsize w _ content)

/-- **The size of the installed packages depends on them alone, unless a name leaves their folder.**
If no name of a manifest leaves it, the size is the same in all trees that hold the same packages. But
the size of a package whose name leads to a folder elsewhere grows with every new file in that
folder whose path is not too long, while the trees with and without the file hold the same
packages. -/
theorem installedSize_confined_unless_leaving (w : Workspace) (root : String)
    (htree : w.tree.IsPlain) (hroot : w.IsOpen root) :
    (∀ tree', SamePackages w root tree' → ∀ manifest : Option Manifest,
      (∀ m, manifest = some m →
        ∀ name ∈ m.dependencies.keys, StaysIn (packagesAt w root) name) →
      installedSize { w with tree := tree' } root manifest = installedSize w root manifest) ∧
    ∀ name es, w.isFolder (under root packageFolder) = .ok true →
      w.look (under (under root packageFolder) name) = .ok (some (.folder es)) →
      ¬packagesAt w root <+: w.destination (under (under root packageFolder) name) →
      ∀ new content, Location.IsName new → new ∉ OrderedMap.keys es →
        SamePackages w root (withFile w (under (under root packageFolder) name) new content) ∧
          ((join (under (under root packageFolder) name) new).utf8ByteSize ≤ pathLimit →
            ∀ m : Manifest, m.dependencies.keys = [name] →
              ∃ n, installedSize w root (some m) = .ok n ∧
                installedSize { w with
                  tree := withFile w (under (under root packageFolder) name) new content } root
                  (some m) = .ok (n + content.size)) :=
  ⟨fun _ hsame manifest hstays => hsame.installedSize_eq htree hroot manifest hstays,
    fun _ _ hpackages hlook hleaves _ content hname hnew =>
      installedSize_withFile htree hroot hpackages hlook hleaves hname hnew content⟩

/-! ### A project whose packages have a name for its root -/

/-- A project with one installed package. -/
def onePackage : Workspace where
  tree := .folder [(packageFolder, .folder [("a", .folder [("index.js", .file "x".toUTF8)])])]

/-- The manifest with one package of the given name. -/
def manifestOf (name : String) : Manifest where
  dependencies := [(name, "1")]

theorem isPlain_onePackage : onePackage.tree.IsPlain := by
  have hpackage : (Entry.folder [("index.js", .file "x".toUTF8)]).IsPlain :=
    isPlain_folder (by decide) (by decide) (List.forall_mem_singleton.mpr (isPlain_file _))
  have hpackages : (Entry.folder [("a", .folder [("index.js", .file "x".toUTF8)])]).IsPlain :=
    isPlain_folder (by decide) (by decide) (List.forall_mem_singleton.mpr hpackage)
  exact isPlain_folder (by decide) (by decide) (List.forall_mem_singleton.mpr hpackages)

theorem isOpen_onePackage : onePackage.IsOpen "/" := ⟨_, look_top onePackage.tree⟩

theorem isFolder_packages_onePackage :
    onePackage.isFolder (under "/" packageFolder) = .ok true := by
  have husable : onePackage.IsUsable (under "/" packageFolder) := by decide +kernel
  have hway : onePackage.way (under "/" packageFolder) = [packageFolder] := by decide +kernel
  have hfind : onePackage.find true (under "/" packageFolder) = .ok [packageFolder] :=
    find_of_way_eq husable hway (.enter (by decide) rfl (.stay _ _))
  exact IsOpen.isFolder (isOpen_iff.mpr ⟨_, _, hfind, rfl⟩)

theorem look_up_onePackage : onePackage.look (under (under "/" packageFolder) "..") =
    .ok (some onePackage.tree) := by
  have husable : onePackage.IsUsable (under (under "/" packageFolder) "..") := by decide +kernel
  have hway : onePackage.way (under (under "/" packageFolder) "..") = [packageFolder, ".."] := by
    decide +kernel
  have hfind : onePackage.find true (under (under "/" packageFolder) "..") = .ok [] :=
    find_of_way_eq husable hway (.enter (by decide) rfl (.up (.stay _ _)))
  exact look_eq_some_iff.mpr ⟨_, hfind, rfl⟩

theorem leaves_onePackage : ¬packagesAt onePackage "/" <+:
    onePackage.destination (under (under "/" packageFolder) "..") := by
  decide +kernel

theorem fits_onePackage :
    (join (under (under "/" packageFolder) "..") "secret").utf8ByteSize ≤ pathLimit := by
  decide +kernel

/-- The size of the package is the same whatever else is in the project; two dots in place of its name
measure a file next to the folder of installed packages. -/
theorem installedSize_confined_unless_leaving_onePackage :
    onePackage.tree.IsPlain ∧ onePackage.IsOpen "/" ∧
      (∀ tree', SamePackages onePackage "/" tree' →
        installedSize { onePackage with tree := tree' } "/" (some (manifestOf "a")) =
          installedSize onePackage "/" (some (manifestOf "a"))) ∧
      ∃ tree' n, SamePackages onePackage "/" tree' ∧
        installedSize onePackage "/" (some (manifestOf "..")) = .ok n ∧
        installedSize { onePackage with tree := tree' } "/" (some (manifestOf "..")) =
          .ok (n + 6) := by
  obtain ⟨hstay, hleave⟩ := installedSize_confined_unless_leaving onePackage "/"
    isPlain_onePackage isOpen_onePackage
  refine ⟨isPlain_onePackage, isOpen_onePackage, fun tree' hsame => ?_, ?_⟩
  · refine hstay tree' hsame _ fun m hm name hname => ?_
    obtain rfl := Option.some.inj hm
    obtain rfl := List.mem_singleton.mp hname
    exact staysIn_of_isName _ (by decide +kernel) (by decide +kernel)
  · obtain ⟨hsame, hsizes⟩ := hleave ".." _ isFolder_packages_onePackage look_up_onePackage
      leaves_onePackage "secret" "secret".toUTF8 (by decide) (by decide)
    obtain ⟨n, hn, hn'⟩ := hsizes fits_onePackage (manifestOf "..") rfl
    have hsize : "secret".toUTF8.size = 6 := by decide
    rw [hsize] at hn'
    exact ⟨_, n, hsame, hn, hn'⟩

/-- The size is not the same in all trees that hold the same packages. -/
theorem installedSize_not_confined :
    ¬∀ (w : Workspace) (root : String) (tree' : Entry) (manifest : Option Manifest),
      w.tree.IsPlain → w.IsOpen root → SamePackages w root tree' →
        installedSize { w with tree := tree' } root manifest = installedSize w root manifest := by
  intro h
  have hname : Location.IsName "secret" := by decide
  obtain ⟨hsame, hsizes⟩ := installedSize_withFile isPlain_onePackage isOpen_onePackage
    isFolder_packages_onePackage look_up_onePackage leaves_onePackage hname (by decide)
    "secret".toUTF8
  obtain ⟨n, hn, hn'⟩ := hsizes fits_onePackage (manifestOf "..") rfl
  rw [h onePackage "/" _ _ isPlain_onePackage isOpen_onePackage hsame, hn] at hn'
  exact absurd (Except.ok.inj hn') (by simp)

end Project

end ScriptHealth
