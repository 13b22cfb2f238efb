import ScriptHealth.Proofs.Source.NormalForm
import ScriptHealth.Proofs.Workspace.Leading

/-!
# The folder that a file is in

A walk that ends at an entry comes through the folder in which the last name is looked up. So if a
path leads to something, then the path without its last name leads to a folder, whatever links are on
the way. The shorter path is not refused for another reason either: it has no characters that the
longer one does not have, and it is not longer.

## Main results

* `Workspace.Leads.exists_parent` — the walk to the folder of an entry
* `Workspace.isUsable_parentOf` — the path of the folder can be used if that of the entry can
* `Workspace.isOpen_parentOf` — the path of the folder leads to a folder that is open
-/

namespace ScriptHealth

namespace Path

open Text

theorem IsNamed.namedSegments_eq {s : List Char} (h : IsNamed s) : namedSegments s = [s] := by
  have hassemble : assemble 0 [s] = s := if_neg h.1
  have hnames := namedSegments_assemble 0 (List.forall_mem_singleton.mpr h)
  rwa [hassemble] at hnames

theorem IsNamed.head?_ne_slash {s : List Char} (h : IsNamed s) : s.head? ≠ some '/' := fun hhead =>
  h.2.2 (List.mem_of_mem_head? hhead)

theorem plainParent_ne_nil (p : List Char) : plainParent p ≠ [] := by
  rw [plainParent_eq_assemble, assemble]
  split
  · exact List.cons_ne_nil _ _
  · assumption

/-- A path without its last name is a beginning of the path, or nothing but a dot. -/
theorem plainParent_plain_append {p dir : List Char} {names : List (List Char)} {name : List Char}
    (hp : p = plain dir) (hnames : namedSegments dir = names ++ [name]) :
    plainParent p <+: p ∨ plainParent p = here := by
  have hnamed : ∀ s ∈ names ++ [name], IsNamed s := fun s hs =>
    isNamed_of_mem_namedSegments (hnames ▸ hs)
  have hinner : ∀ s ∈ names, IsNamed s := fun s hs => hnamed s (List.mem_append_left _ hs)
  have hk := leadingSlashes_le_two dir
  rw [plain_eq_assemble, hnames] at hp
  generalize leadingSlashes dir = k at hp hk
  subst hp
  have hparent : plainParent (assemble k (names ++ [name])) = assemble k names := by
    rw [plainParent_eq_assemble, leadingSlashes_assemble hk hnamed, namedSegments_assemble k hnamed,
      List.dropLast_concat]
  have hwhole : assemble k (names ++ [name]) =
      List.replicate k '/' ++ joinWith ['/'] (names ++ [name]) := by
    have hjoin := joinWith_ne_nil (by simp) hnamed
    exact if_neg (by simp [hjoin])
  rw [hparent, hwhole]
  unfold assemble
  dsimp only
  split
  · exact .inr rfl
  · refine .inl ((List.prefix_append_right_inj _).mpr ?_)
    by_cases hempty : names = []
    · rw [hempty]
      exact List.nil_prefix
    · rw [joinWith_append hempty (List.cons_ne_nil name []), List.append_assoc]
      exact List.prefix_append _ _

end Path

namespace Workspace

open Entry

variable {w : Workspace} {tree : Entry} {links : Nat} {here p : Location} {names : List String}
  {dir path name : String}

/-! ### Walks -/

/-- A walk to an entry comes through the folder in which its last name is looked up. -/
theorem Leads.exists_parent (h : Leads tree true links here names p) {e : Entry}
    (he : tree.get? p = some e) {before : List String} (hnames : names = before ++ [name])
    (hname : IsLookedUp name) :
    ∃ q es, Leads tree true links here before q ∧ tree.get? q = some (.folder es) := by
  -- where the last name is looked up, something stands under it
  have hhere {links : Nat} {here : Location} {d : Entry}
      (hd : tree.get? (here ++ [name]) = some d) :
      ∃ q es, Leads tree true links here [] q ∧ tree.get? q = some (.folder es) := by
    obtain ⟨es, -, hes, -⟩ := exists_folder_of_get? hd
    exact ⟨here, es, .stay links here, hes⟩
  induction h generalizing before with
  | stay links here => simp at hnames
  | blank hblank next ih =>
    cases before with
    | nil =>
      obtain ⟨rfl, -⟩ := List.cons.inj hnames
      exact absurd hblank hname.1
    | cons first before =>
      obtain ⟨rfl, hrest⟩ := List.cons.inj hnames
      obtain ⟨q, es, hq, hes⟩ := ih he hrest
      exact ⟨q, es, .blank hblank hq, hes⟩
  | up next ih =>
    cases before with
    | nil =>
      obtain ⟨rfl, -⟩ := List.cons.inj hnames
      exact absurd rfl hname.2.1
    | cons first before =>
      obtain ⟨rfl, hrest⟩ := List.cons.inj hnames
      obtain ⟨q, es, hq, hes⟩ := ih he hrest
      exact ⟨q, es, .up hq, hes⟩
  | stop hlast hfolder hlink =>
    cases before with
    | nil =>
      obtain ⟨rfl, -⟩ := List.cons.inj hnames
      exact hhere he
    | cons first before => simp at hnames
  | enter hfirst hget next ih =>
    cases before with
    | nil =>
      obtain ⟨rfl, -⟩ := List.cons.inj hnames
      exact hhere hget
    | cons first before =>
      obtain ⟨rfl, hrest⟩ := List.cons.inj hnames
      obtain ⟨q, es, hq, hes⟩ := ih he hrest
      exact ⟨q, es, .enter hfirst hget hq, hes⟩
  | @link links here p first rest target hfirst hget hfollow next ih =>
    cases before with
    | nil =>
      obtain ⟨rfl, -⟩ := List.cons.inj hnames
      exact hhere hget
    | cons _ before =>
      obtain ⟨rfl, hrest⟩ := List.cons.inj hnames
      have hsplit : namesOf target ++ rest = namesOf target ++ before ++ [name] := by
        rw [hrest, List.append_assoc]
        rfl
      obtain ⟨q, es, hq, hes⟩ := ih he hsplit
      exact ⟨q, es, .link hfirst hget (.inr rfl) hq, hes⟩

/-! ### Paths -/

/-- The characters of an absolute path, other than the slashes and dots between and in front of its
names, are those of the names on its way. -/
theorem nul_mem_absolute_iff :
    '\x00' ∈ (w.absolute path).toList ↔ ∃ n ∈ w.way path, '\x00' ∈ n.toList := by
  rw [way, wayOf]
  generalize (w.absolute path).toList = s
  constructor
  · intro hs
    rw [← Text.joinWith_splitAt '/' s] at hs
    obtain hsep | ⟨piece, hpiece, hc⟩ := Text.mem_joinWith hs
    · exact absurd hsep (by decide)
    · refine ⟨String.ofList piece, List.mem_map_of_mem (List.mem_filter.mpr ⟨hpiece, ?_⟩), ?_⟩
      · have hne : piece ≠ [] ∧ piece ≠ Path.here := by
          constructor
          · rintro rfl
            exact absurd hc List.not_mem_nil
          · rintro rfl
            exact absurd hc (by decide)
        simp [hne.1, hne.2]
      · rwa [String.toList_ofList]
  · rintro ⟨n, hn, hc⟩
    obtain ⟨piece, hpiece, rfl⟩ := List.mem_map.mp hn
    rw [String.toList_ofList] at hc
    exact Text.mem_of_mem_splitAt (List.mem_of_mem_filter hpiece) hc

theorem utf8ByteSize_le_of_prefix {a b : List Char} (h : a <+: b) :
    (String.ofList a).utf8ByteSize ≤ (String.ofList b).utf8ByteSize := by
  obtain ⟨c, rfl⟩ := h
  rw [String.ofList_append, String.utf8ByteSize_append]
  exact Nat.le_add_right _ _

/-- The path of the folder can be used if that of the entry can. -/
theorem isUsable_parentOf (hname : Location.IsName name) (h : w.IsUsable (under dir name)) :
    w.IsUsable (parentOf (under dir name)) := by
  obtain ⟨hnul, -, hsize⟩ := h
  have hsegments : Path.namedSegments (Path.join dir.toList name.toList) =
      Path.namedSegments dir.toList ++ [name.toList] := by
    rw [Path.namedSegments_join, if_neg hname.1.head?_ne_slash, hname.1.namedSegments_eq]
  have hparent := Path.plainParent_plain_append (p := (under dir name).toList)
    String.toList_ofList hsegments
  refine ⟨?_, ?_, ?_⟩
  · rw [nul_mem_absolute_iff] at hnul ⊢
    rintro ⟨n, hn, hc⟩
    exact hnul ⟨n, (way_parentOf_isPrefix w _).subset hn, hc⟩
  · intro hempty
    refine Path.plainParent_ne_nil (under dir name).toList ?_
    rw [← String.toList_ofList (l := Path.plainParent _)]
    exact congrArg String.toList hempty
  · rw [Nat.not_lt] at hsize ⊢
    rcases hparent with hprefix | hhere
    · have hle := utf8ByteSize_le_of_prefix hprefix
      rw [String.ofList_toList] at hle
      exact Nat.le_trans hle hsize
    · rw [parentOf, hhere]
      decide

theorem way_parentOf_under (w : Workspace) (dir : String) (hname : Location.IsName name) :
    w.way (parentOf (under dir name)) = w.way dir := by
  have hrelative := (wayOf_of_isName hname).2
  have hparent : wayOf (parentOf (under dir name)) = wayOf dir := by
    rw [wayOf_parentOf, wayOf_under dir hrelative, (wayOf_of_isName hname).1, List.dropLast_concat]
  have habsolute : IsAbsolute (parentOf (under dir name)) ↔ IsAbsolute dir :=
    isAbsolute_parentOf.trans (isAbsolute_under hrelative)
  unfold way absolute
  by_cases h : IsAbsolute dir
  · rw [wayOf_under_of_isAbsolute _ (habsolute.mpr h), wayOf_under_of_isAbsolute _ h, hparent]
  · rw [wayOf_under _ (mt habsolute.mp h), wayOf_under _ h, hparent]

/-- A path is followed along its way. -/
theorem leads_way_of_find {follow : Bool} (h : w.find follow path = .ok p) :
    Leads w.tree follow linkLimit [] (w.way path) p := by
  obtain ⟨hnul, hempty, hsize⟩ := (find_eq_ok_iff.mp h).1
  rw [find_eq, if_neg (by simpa using hnul), if_neg hempty, if_neg hsize] at h
  exact leads_of_followNames h

/-- The folder of an entry is a folder, and it is open. -/
theorem isOpen_parentOf (hname : Location.IsName name) (hsize : ¬nameLimit < name.utf8ByteSize)
    {e : Entry} (h : w.look (under dir name) = .ok (some e)) :
    w.IsOpen (parentOf (under dir name)) := by
  obtain ⟨p, hfind, he⟩ := look_eq_some_iff.mp h
  have hlooked : IsLookedUp name := by
    refine ⟨?_, hname.2, hsize⟩
    rintro (rfl | rfl)
    · exact hname.1.1 rfl
    · exact hname.1.2.1 rfl
  have hleads : Leads w.tree true linkLimit [] (w.way dir ++ [name]) p := by
    rw [← way_under_name w dir hname]
    exact leads_way_of_find hfind
  obtain ⟨q, es, hq, hes⟩ := hleads.exists_parent he rfl hlooked
  rw [isOpen_iff]
  refine ⟨q, es, find_of_way (isUsable_parentOf hname (find_eq_ok_iff.mp hfind).1) ?_, hes⟩
  rwa [way_parentOf_under w dir hname]

end Workspace

end ScriptHealth
