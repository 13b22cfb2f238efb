import ScriptHealth.Proofs.Data.Outcome
import ScriptHealth.Proofs.Text.Segments
import ScriptHealth.Proofs.Workspace.Relisting

/-!
# The way of a path

A path names the folders that lead to an entry. Its way is the list of these names, without the
segments that say nothing. In a tree without links, a path that never goes up leads to its own way
or nowhere, and where it leads depends only on what the names before the last one are: open folders,
closed ones, files or nothing.

## Main definitions

* `Workspace.wayOf`, `Workspace.way` — the way of a path, and of a path seen from the current folder
* `Entry.IsPlain` — a tree without links, whose names can stand in a path
* `Workspace.Unanswered` — the faults of looking
* `Workspace.IsOpen` — a path leads to a folder that is not closed

## Main results

* `Workspace.wayOf_under` — the way of a path seen from a folder
* `Workspace.way_pathOf` — the way of the path of a location is the location
* `Workspace.eq_way_of_find` — a path leads to its way
* `Workspace.find_congr` — two trees in which a path leads to the same
* `Workspace.look_eq_some_iff`, `Workspace.look_eq_error_iff` — what looking finds, and how it fails
-/

namespace ScriptHealth

namespace Path

open Text

/-! ### Segments of plain paths -/

variable {p : List Char}

/-- A segment that names something. -/
def IsNamed (s : List Char) : Prop := s ≠ [] ∧ s ≠ here ∧ '/' ∉ s

instance (s : List Char) : Decidable (IsNamed s) := inferInstanceAs (Decidable (_ ∧ _ ∧ _))

theorem isNamed_of_mem_namedSegments {s : List Char} (hs : s ∈ namedSegments p) : IsNamed s := by
  obtain ⟨hmem, hne⟩ := List.mem_filter.mp hs
  simp only [Bool.and_eq_true, bne_iff_ne] at hne
  exact ⟨hne.1, hne.2, sep_notMem_of_mem_splitAt hmem⟩

/-- Segments between slashes, behind some more slashes; without any of them the path is `.`. -/
def assemble (slashCount : Nat) (names : List (List Char)) : List Char :=
  let path := List.replicate slashCount '/' ++ joinWith ['/'] names
  if path = [] then here else path

theorem plain_eq_assemble (p : List Char) :
    plain p = assemble (leadingSlashes p) (namedSegments p) := rfl

theorem plainParent_eq_assemble (p : List Char) :
    plainParent p = assemble (leadingSlashes p) (namedSegments p).dropLast := rfl

theorem segments_replicate_append (k : Nat) (p : List Char) :
    segments (List.replicate k '/' ++ p) = List.replicate k [] ++ segments p := by
  induction k with
  | zero => rfl
  | succ k ih =>
    have hstep := splitAt_append_cons '/' [] (List.replicate k '/' ++ p)
    rw [List.replicate_succ, List.cons_append]
    exact hstep.trans (congrArg ([] :: ·) ih)

theorem joinWith_ne_nil {names : List (List Char)} (hne : names ≠ [])
    (hnames : ∀ s ∈ names, IsNamed s) : joinWith ['/'] names ≠ [] := by
  intro hnil
  -- the pieces are read back from the empty text, which has only an empty one
  have hread := splitAt_joinWith hne fun s hs => (hnames s hs).2.2
  rw [hnil, splitAt_nil] at hread
  exact (hnames [] (hread ▸ List.mem_singleton_self [])).1 rfl

/-- The names of an assembled path stand behind segments that say nothing. -/
theorem segments_assemble (k : Nat) {names : List (List Char)} (hnames : ∀ s ∈ names, IsNamed s) :
    ∃ blanks, segments (assemble k names) = blanks ++ names ∧ ∀ s ∈ blanks, s = [] ∨ s = here := by
  unfold assemble
  dsimp only
  by_cases hne : names = []
  · subst hne
    cases k with
    | zero => exact ⟨[here], rfl, fun s hs => Or.inr (List.mem_singleton.mp hs)⟩
    | succ k =>
      refine ⟨List.replicate (k + 1) [] ++ [[]], ?_, ?_⟩
      · rw [if_neg (by simp [List.replicate_succ]), segments_replicate_append, List.append_nil]
        rfl
      · intro s hs
        rcases List.mem_append.mp hs with hs | hs
        · exact Or.inl (List.eq_of_mem_replicate hs)
        · exact Or.inl (List.mem_singleton.mp hs)
  · have hjoin := joinWith_ne_nil hne hnames
    refine ⟨List.replicate k [], ?_, fun s hs => Or.inl (List.eq_of_mem_replicate hs)⟩
    rw [if_neg (by simp [hjoin]), segments_replicate_append]
    exact congrArg _ (splitAt_joinWith hne fun s hs => (hnames s hs).2.2)

theorem namedSegments_assemble (k : Nat) {names : List (List Char)}
    (hnames : ∀ s ∈ names, IsNamed s) : namedSegments (assemble k names) = names := by
  obtain ⟨blanks, hsegments, hblanks⟩ := segments_assemble k hnames
  rw [namedSegments, hsegments, List.filter_append]
  have hdropped : blanks.filter (fun s => s != [] && s != here) = [] := by
    rw [List.filter_eq_nil_iff]
    intro s hs
    rcases hblanks s hs with rfl | rfl <;> decide
  have hkept : names.filter (fun s => s != [] && s != here) = names := by
    rw [List.filter_eq_self]
    intro s hs
    simp [(hnames s hs).1, (hnames s hs).2.1]
  rw [hdropped, hkept, List.nil_append]

theorem leadingSlashes_eq_zero_iff : leadingSlashes p = 0 ↔ p.head? ≠ some '/' := by
  unfold leadingSlashes
  split
  · simp
  · simp
  · simp
  · rename_i hslash
    cases p with
    | nil => simp
    | cons c p =>
      have hc : c ≠ '/' := fun hc => hslash p (hc ▸ rfl)
      simp [hc]

/-- An assembled path starts with a slash exactly if it was given one. -/
theorem head?_assemble (k : Nat) {names : List (List Char)} (hnames : ∀ s ∈ names, IsNamed s) :
    (assemble k names).head? = some '/' ↔ k ≠ 0 := by
  unfold assemble
  dsimp only
  cases k with
  | succ k => simp [List.replicate_succ]
  | zero =>
    cases names with
    | nil => simp [joinWith, here]
    | cons s names =>
      have hs := hnames s List.mem_cons_self
      have hjoin := joinWith_ne_nil (List.cons_ne_nil s names) hnames
      obtain ⟨c, rest, rfl⟩ := List.exists_cons_of_ne_nil hs.1
      have hc : c ≠ '/' := fun hc => hs.2.2 (hc ▸ List.mem_cons_self)
      have hhead : (joinWith ['/'] ((c :: rest) :: names)).head? = some c := by
        cases names with
        | nil => rfl
        | cons _ _ => rfl
      simp [hjoin, hhead, hc]

theorem namedSegments_plain (p : List Char) : namedSegments (plain p) = namedSegments p :=
  namedSegments_assemble _ fun _ => isNamed_of_mem_namedSegments

theorem namedSegments_plainParent (p : List Char) :
    namedSegments (plainParent p) = (namedSegments p).dropLast :=
  namedSegments_assemble _ fun _ hs => isNamed_of_mem_namedSegments (List.dropLast_subset _ hs)

theorem head?_plain : (plain p).head? = some '/' ↔ p.head? = some '/' := by
  rw [plain_eq_assemble, head?_assemble _ fun _ => isNamed_of_mem_namedSegments, Ne,
    leadingSlashes_eq_zero_iff, not_not]

theorem head?_plainParent : (plainParent p).head? = some '/' ↔ p.head? = some '/' := by
  rw [plainParent_eq_assemble, head?_assemble _ fun _ hs =>
    isNamed_of_mem_namedSegments (List.dropLast_subset _ hs), Ne, leadingSlashes_eq_zero_iff,
    not_not]

/-- A path seen from a directory has the names of both, unless it starts at the root. -/
theorem namedSegments_join (dir p : List Char) :
    namedSegments (join dir p) =
      if p.head? = some '/' then namedSegments p else namedSegments dir ++ namedSegments p := by
  unfold join
  split
  · rfl
  · split
    · rename_i hdir
      rcases hdir with rfl | hlast
      · rfl
      · -- the slash at the end of the directory only adds an empty segment
        obtain ⟨front, rfl⟩ := List.getLast?_eq_some_iff.mp hlast
        have happend : segments (front ++ ['/'] ++ p) = segments front ++ segments p := by
          rw [List.append_assoc]
          exact splitAt_append_cons '/' front p
        have hfront : segments (front ++ ['/']) = segments front ++ [[]] :=
          splitAt_append_cons '/' front []
        simp only [namedSegments, happend, hfront, List.filter_append]
        simp
    · have happend : segments (dir ++ '/' :: p) = segments dir ++ segments p :=
        splitAt_append_cons '/' dir p
      rw [namedSegments, happend, List.filter_append]
      rfl

theorem head?_join {dir p : List Char} (h : p.head? ≠ some '/') :
    (join dir p).head? = some '/' ↔ dir.head? = some '/' := by
  unfold join
  rw [if_neg h]
  cases dir with
  | nil => simpa using h
  | cons c dir => split <;> simp

end Path

namespace Workspace

/-! ### Ways -/

/-- The names of a path that say something. -/
def wayOf (path : String) : Location := (Path.namedSegments path.toList).map String.ofList

/-- The names that lead from the top to where a path leads. -/
def way (w : Workspace) (path : String) : Location := wayOf (w.absolute path)

/-- Whether a path starts at the top. -/
def IsAbsolute (path : String) : Prop := path.toList.head? = some '/'

instance (path : String) : Decidable (IsAbsolute path) := inferInstanceAs (Decidable (_ = _))

variable {w : Workspace} {path dir : String}

theorem wayOf_under_of_isAbsolute (dir : String) (h : IsAbsolute path) :
    wayOf (under dir path) = wayOf path := by
  unfold IsAbsolute at h
  rw [wayOf, under, Path.under, String.toList_ofList, Path.namedSegments_plain,
    Path.namedSegments_join, if_pos h, wayOf]

/-- A path seen from a folder: the way of the folder and then that of the path. -/
theorem wayOf_under (dir : String) (h : ¬IsAbsolute path) :
    wayOf (under dir path) = wayOf dir ++ wayOf path := by
  unfold IsAbsolute at h
  rw [wayOf, under, Path.under, String.toList_ofList, Path.namedSegments_plain,
    Path.namedSegments_join, if_neg h, List.map_append, wayOf, wayOf]

theorem isAbsolute_under (h : ¬IsAbsolute path) :
    IsAbsolute (under dir path) ↔ IsAbsolute dir := by
  unfold IsAbsolute under Path.under
  rw [String.toList_ofList, Path.head?_plain, Path.head?_join h]

theorem way_under (w : Workspace) (dir : String) (h : ¬IsAbsolute path) :
    w.way (under dir path) = w.way dir ++ wayOf path := by
  unfold way absolute
  by_cases hdir : IsAbsolute dir
  · rw [wayOf_under_of_isAbsolute _ ((isAbsolute_under h).mpr hdir), wayOf_under dir h,
      wayOf_under_of_isAbsolute _ hdir]
  · rw [wayOf_under _ (mt (isAbsolute_under h).mp hdir), wayOf_under dir h, wayOf_under _ hdir,
      List.append_assoc]

theorem wayOf_parentOf (path : String) : wayOf (parentOf path) = (wayOf path).dropLast := by
  rw [wayOf, parentOf, String.toList_ofList, Path.namedSegments_plainParent, List.map_dropLast,
    wayOf]

theorem isAbsolute_parentOf : IsAbsolute (parentOf path) ↔ IsAbsolute path := by
  unfold IsAbsolute parentOf
  rw [String.toList_ofList, Path.head?_plainParent]

/-- The folder that a path is in is on its way. -/
theorem way_parentOf_isPrefix (w : Workspace) (path : String) :
    w.way (parentOf path) <+: w.way path := by
  unfold way absolute
  by_cases h : IsAbsolute path
  · rw [wayOf_under_of_isAbsolute _ (isAbsolute_parentOf.mpr h), wayOf_under_of_isAbsolute _ h,
      wayOf_parentOf]
    exact List.dropLast_prefix _
  · rw [wayOf_under _ (mt isAbsolute_parentOf.mp h), wayOf_under _ h, wayOf_parentOf]
    exact (List.prefix_append_right_inj _).mpr (List.dropLast_prefix _)

theorem map_ofList_toList (place : Location) :
    (place.map String.toList).map String.ofList = place := by
  rw [List.map_map]
  conv_rhs => rw [← List.map_id place]
  exact List.map_congr_left fun name _ => String.ofList_toList

/-- The path of a location leads to the location. -/
theorem way_pathOf (w : Workspace) {place : Location}
    (h : ∀ name ∈ place, Path.IsNamed name.toList) : w.way (pathOf place) = place := by
  have hnames : ∀ s ∈ place.map String.toList, Path.IsNamed s := by simpa using h
  have hpath : (pathOf place).toList = Path.assemble 1 (place.map String.toList) := by
    have hsep : "/".toList = ['/'] := rfl
    rw [pathOf, String.toList_append, String.toList_intercalate, hsep,
      ← Text.joinWith_eq_intercalate]
    rfl
  have habsolute : IsAbsolute (pathOf place) := by
    rw [IsAbsolute, hpath, Path.head?_assemble 1 hnames]
    exact Nat.one_ne_zero
  rw [way, absolute, wayOf_under_of_isAbsolute _ habsolute, wayOf, hpath,
    Path.namedSegments_assemble 1 hnames, map_ofList_toList]

/-- Names between slashes are a path whose way they are. -/
theorem wayOf_intercalate {place : Location} (hne : place ≠ [])
    (h : ∀ name ∈ place, Path.IsNamed name.toList) :
    wayOf ("/".intercalate place) = place ∧ ¬IsAbsolute ("/".intercalate place) := by
  have hnames : ∀ s ∈ place.map String.toList, Path.IsNamed s := by simpa using h
  have hpath : ("/".intercalate place).toList = Path.assemble 0 (place.map String.toList) := by
    have hsep : "/".toList = ['/'] := rfl
    have hjoin := Path.joinWith_ne_nil (by simpa using hne) hnames
    rw [String.toList_intercalate, hsep, ← Text.joinWith_eq_intercalate, Path.assemble]
    simp [hjoin]
  constructor
  · rw [wayOf, hpath, Path.namedSegments_assemble 0 hnames, map_ofList_toList]
  · rw [IsAbsolute, hpath, Path.head?_assemble 0 hnames]
    exact fun h => h rfl

/-- Segments that say nothing are passed over. -/
theorem followNames_blanks {blanks : List String} (h : ∀ name ∈ blanks, name = "" ∨ name = ".")
    (tree : Entry) (follow : Bool) (links : Nat) (here : Location) (names : List String) :
    followNames tree follow links here (blanks ++ names) =
      followNames tree follow links here names := by
  induction blanks with
  | nil => rfl
  | cons name blanks ih =>
    rw [List.cons_append, followNames, if_pos (h name List.mem_cons_self)]
    exact ih fun n hn => h n (List.mem_cons_of_mem name hn)

/-- The names of an absolute path are its way, behind segments that say nothing. -/
theorem exists_namesOf_absolute (w : Workspace) (path : String) :
    ∃ blanks, namesOf (w.absolute path) = blanks ++ w.way path ∧
      ∀ name ∈ blanks, name = "" ∨ name = "." := by
  let joined := Path.join w.current.toList path.toList
  obtain ⟨blanks, hsegments, hblanks⟩ := Path.segments_assemble (Path.leadingSlashes joined)
    (fun s hs => Path.isNamed_of_mem_namedSegments (p := joined) hs)
  refine ⟨blanks.map String.ofList, ?_, ?_⟩
  · have hway : w.way path = (Path.namedSegments joined).map String.ofList := by
      rw [way, wayOf, absolute, under, String.toList_ofList, Path.under, Path.namedSegments_plain]
    rw [hway, ← List.map_append, ← hsegments, namesOf, absolute, under, String.toList_ofList]
    rfl
  · intro name hname
    obtain ⟨s, hs, rfl⟩ := List.mem_map.mp hname
    rcases hblanks s hs with rfl | rfl
    · exact Or.inl rfl
    · exact Or.inr rfl

end Workspace

/-! ### Trees without links -/

/-- A name that stands for itself in a path. -/
def Location.IsName (name : String) : Prop := Path.IsNamed name.toList ∧ name ≠ ".."

instance (name : String) : Decidable (Location.IsName name) := inferInstanceAs (Decidable (_ ∧ _))

namespace Entry

/-- A tree without links, in which a folder has each name once and names stand for themselves. -/
structure IsPlain (tree : Entry) : Prop where
  noLink : ∀ place target, tree.get? place ≠ some (.link target)
  names : ∀ place es, tree.get? place = some (.folder es) →
    (OrderedMap.keys es).Nodup ∧ ∀ name ∈ OrderedMap.keys es, Location.IsName name

variable {tree tree' e : Entry}

/-- Every location on the way to an entry has a folder, and the next name is in it. -/
theorem exists_folder_of_get? {before after : Location} {name : String}
    (h : tree.get? (before ++ name :: after) = some e) :
    ∃ es d, tree.get? before = some (.folder es) ∧ OrderedMap.get? name es = some d := by
  rw [get?_append] at h
  obtain ⟨inner, hinner, hget⟩ := Option.bind_eq_some_iff.mp h
  rw [get?_cons] at hget
  obtain ⟨d, hd, -⟩ := Option.bind_eq_some_iff.mp hget
  cases inner with
  | file _ => cases hd
  | link _ => cases hd
  | closed => cases hd
  | folder es => exact ⟨es, d, hinner, hd⟩

/-- Every location on the way to a folder has a folder. -/
theorem exists_folder_of_isPrefix {place below : Location} (hbelow : place <+: below)
    (h : ∃ es, tree.get? below = some (.folder es)) :
    ∃ es, tree.get? place = some (.folder es) := by
  obtain ⟨rest, rfl⟩ := hbelow
  cases rest with
  | nil => rwa [List.append_nil] at h
  | cons name rest =>
    obtain ⟨es, hes⟩ := h
    obtain ⟨ds, -, hds, -⟩ := exists_folder_of_get? hes
    exact ⟨ds, hds⟩

namespace IsPlain

theorem wellFormed (h : tree.IsPlain) : tree.WellFormed := by
  intro place es hes
  obtain ⟨hnodup, hnames⟩ := h.names place es hes
  exact ⟨hnodup, fun name hname => (hnames name hname).1.2.2⟩

/-- What stands in a plain tree is plain. -/
theorem of_get? (h : tree.IsPlain) {place : Location} (he : tree.get? place = some e) :
    e.IsPlain := by
  have hbelow (below : Location) : tree.get? (place ++ below) = e.get? below := by
    rw [get?_append, he, Option.bind_some]
  constructor
  · intro below target hlink
    exact h.noLink (place ++ below) target ((hbelow below).trans hlink)
  · intro below ds hds
    exact h.names (place ++ below) ds ((hbelow below).trans hds)

theorem of_mem {es : List (String × Entry)} (h : (folder es).IsPlain) {d : String × Entry}
    (hd : d ∈ es) : d.2.IsPlain := by
  have hget : (folder es).get? ([] ++ [d.1]) = some d.2 :=
    (h.wellFormed.get?_append_singleton rfl).mpr hd
  exact h.of_get? hget

theorem isName_of_get? (h : tree.IsPlain) {place : Location} (he : tree.get? place = some e) :
    ∀ name ∈ place, Location.IsName name := by
  intro name hname
  obtain ⟨before, after, rfl⟩ := List.append_of_mem hname
  obtain ⟨es, d, hes, hd⟩ := exists_folder_of_get? he
  have hkey : name ∈ OrderedMap.keys es :=
    List.mem_map.mpr ⟨_, OrderedMap.mem_of_get?_eq_some hd, rfl⟩
  exact (h.names before es hes).2 name hkey

end IsPlain

/-- The fault of passing an entry that is no link; a folder that is not closed lets pass. -/
def barrier? : Entry → Option FileFault
  | .folder _ => none
  | .closed => some .denied
  | _ => some .notFolder

theorem map_barrier?_eq_some_none_iff {o : Option Entry} :
    o.map barrier? = some none ↔ ∃ es, o = some (.folder es) := by
  cases o with
  | none => simp
  | some e => cases e <;> simp [barrier?]

theorem isPlain_file (content : ByteArray) : (Entry.file content).IsPlain := by
  constructor
  · intro place target h
    cases place <;> cases h
  · intro place es h
    cases place <;> cases h

theorem isPlain_folder {es : List (String × Entry)} (hnodup : (OrderedMap.keys es).Nodup)
    (hnames : ∀ name ∈ OrderedMap.keys es, Location.IsName name)
    (hinner : ∀ d ∈ es, d.2.IsPlain) : (Entry.folder es).IsPlain := by
  have hbelow {name : String} {rest : Location} {e : Entry}
      (h : (Entry.folder es).get? (name :: rest) = some e) :
      ∃ d : Entry, d.IsPlain ∧ d.get? rest = some e := by
    rw [get?_cons, child?_folder] at h
    obtain ⟨d, hd, hrest⟩ := Option.bind_eq_some_iff.mp h
    exact ⟨d, hinner (name, d) (OrderedMap.mem_of_get?_eq_some hd), hrest⟩
  constructor
  · intro place target h
    cases place with
    | nil => cases h
    | cons name rest =>
      obtain ⟨d, hd, hrest⟩ := hbelow h
      exact hd.noLink rest target hrest
  · intro place ds h
    cases place with
    | nil =>
      cases h
      exact ⟨hnodup, hnames⟩
    | cons name rest =>
      obtain ⟨d, hd, hrest⟩ := hbelow h
      exact hd.names rest ds hrest

end Entry

namespace Workspace

open Location

variable {tree tree' : Entry} {follow : Bool} {links : Nat} {here p : Location}
  {names : List String}

/-- A name is a path that leads to itself. -/
theorem wayOf_of_isName {name : String} (h : IsName name) :
    wayOf name = [name] ∧ ¬IsAbsolute name := by
  have hname := wayOf_intercalate (List.cons_ne_nil name []) (List.forall_mem_singleton.mpr h.1)
  rwa [show "/".intercalate [name] = name from rfl] at hname

theorem way_under_name (w : Workspace) (dir : String) {name : String} (h : IsName name) :
    w.way (under dir name) = w.way dir ++ [name] := by
  rw [way_under w dir (wayOf_of_isName h).2, (wayOf_of_isName h).1]

/-- One name on a way without links. -/
theorem followNames_cons (htree : ∀ place target, tree.get? place ≠ some (.link target))
    {name : String} (hname : IsName name) (rest : List String) :
    followNames tree follow links here (name :: rest) =
      if nameLimit < name.utf8ByteSize then .error .nameTooLong
      else if rest = [] then .ok (here ++ [name])
      else
        match (tree.get? (here ++ [name])).map Entry.barrier? with
        | none => .error .missing
        | some (some f) => .error f
        | some none => followNames tree follow links (here ++ [name]) rest := by
  have hblank : ¬(name = "" ∨ name = ".") := by
    rintro (rfl | rfl)
    · exact hname.1.1 rfl
    · exact hname.1.2.1 rfl
  rw [followNames, if_neg hblank, if_neg hname.2]
  split
  · rfl
  · cases hget : tree.get? (here ++ [name]) with
    | none => rfl
    | some e =>
      cases e with
      | file _ => rfl
      | link target => exact absurd hget (htree _ target)
      | closed => rfl
      | folder _ =>
        cases rest with
        | nil =>
          change followNames tree follow links (here ++ [name]) [] = _
          rw [followNames, if_pos rfl]
        | cons _ _ => rfl

/-- Names lead to their own location. -/
theorem eq_append_of_followNames (htree : ∀ place target, tree.get? place ≠ some (.link target))
    (hnames : ∀ name ∈ names, IsName name)
    (h : followNames tree follow links here names = .ok p) : p = here ++ names := by
  induction names generalizing here with
  | nil =>
    rw [followNames] at h
    rw [List.append_nil, Except.ok.inj h]
  | cons name rest ih =>
    rw [followNames_cons htree (hnames name List.mem_cons_self)] at h
    split at h
    · cases h
    · split at h
      · rename_i hrest
        rw [hrest, Except.ok.inj h]
      · split at h
        · cases h
        · cases h
        · rw [ih (fun n hn => hnames n (List.mem_cons_of_mem name hn)) h, List.append_assoc,
            List.singleton_append]

/-- Names behind a folder lead to their location, which may be empty. -/
theorem followNames_of_folder (htree : ∀ place target, tree.get? place ≠ some (.link target))
    (hnames : ∀ name ∈ names, IsName name ∧ name.utf8ByteSize ≤ nameLimit)
    (hfolder : ∃ es, tree.get? (here ++ names.dropLast) = some (.folder es)) :
    followNames tree follow links here names = .ok (here ++ names) := by
  induction names generalizing here with
  | nil => rw [followNames, List.append_nil]
  | cons name rest ih =>
    obtain ⟨hname, hsize⟩ := hnames name List.mem_cons_self
    rw [followNames_cons htree hname, if_neg (Nat.not_lt.mpr hsize)]
    cases rest with
    | nil => rw [if_pos rfl]
    | cons next rest =>
      have hbelow : here ++ (name :: next :: rest).dropLast =
          here ++ [name] ++ (next :: rest).dropLast := by
        simp
      rw [hbelow] at hfolder
      -- the next location is on the way to a folder, or it is that folder
      have hhere := Entry.map_barrier?_eq_some_none_iff.mpr
        (Entry.exists_folder_of_isPrefix (List.prefix_append _ _) hfolder)
      rw [if_neg (List.cons_ne_nil _ _), hhere]
      simpa using ih (fun n hn => hnames n (List.mem_cons_of_mem name hn)) hfolder

/-- Names that can be followed from a folder lead into a folder. -/
theorem exists_folder_of_followNames
    (htree : ∀ place target, tree.get? place ≠ some (.link target))
    {before : Location} {name : String} (hnames : ∀ n ∈ before ++ [name], IsName n)
    (hhere : ∃ es, tree.get? here = some (.folder es))
    (h : followNames tree follow links here (before ++ [name]) = .ok p) :
    ∃ es, tree.get? (here ++ before) = some (.folder es) := by
  induction before generalizing here with
  | nil => rwa [List.append_nil]
  | cons first rest ih =>
    rw [List.cons_append] at h hnames
    rw [followNames_cons htree (hnames first List.mem_cons_self)] at h
    split at h
    · cases h
    · rw [if_neg (by simp)] at h
      split at h
      · cases h
      · cases h
      · rename_i hfirst
        have hrest := ih (fun n hn => hnames n (List.mem_cons_of_mem first hn))
          (Entry.map_barrier?_eq_some_none_iff.mp hfirst) h
        rwa [List.append_assoc, List.singleton_append] at hrest

/-- Names lead to the same location if the locations before it let pass in both trees, or in none. -/
theorem followNames_congr (htree : ∀ place target, tree.get? place ≠ some (.link target))
    (htree' : ∀ place target, tree'.get? place ≠ some (.link target))
    (hnames : ∀ name ∈ names, IsName name)
    (h : ∀ before name after, names = before ++ name :: after → before ≠ [] →
      (tree'.get? (here ++ before)).map Entry.barrier? =
        (tree.get? (here ++ before)).map Entry.barrier?) :
    followNames tree' follow links here names = followNames tree follow links here names := by
  induction names generalizing here with
  | nil => rw [followNames, followNames]
  | cons name rest ih =>
    have hname := hnames name List.mem_cons_self
    rw [followNames_cons htree hname, followNames_cons htree' hname]
    cases rest with
    | nil => rfl
    | cons next rest =>
      have hbelow : followNames tree' follow links (here ++ [name]) (next :: rest) =
          followNames tree follow links (here ++ [name]) (next :: rest) := by
        apply ih fun n hn => hnames n (List.mem_cons_of_mem name hn)
        intro before n after hsplit hne
        have hkind := h (name :: before) n after (by rw [hsplit]; rfl) (List.cons_ne_nil _ _)
        rwa [List.append_assoc, List.singleton_append]
      rw [h [name] next rest rfl (List.cons_ne_nil _ _), hbelow]

/-- Where a path leads depends on the names of its way only. -/
theorem find_eq (w : Workspace) (follow : Bool) (path : String) :
    w.find follow path =
      if (w.absolute path).toList.contains '\x00' then .error .nul
      else if path = "" then .error .missing
      else if pathLimit < path.utf8ByteSize then .error .nameTooLong
      else followNames w.tree follow linkLimit [] (w.way path) := by
  obtain ⟨blanks, hnames, hblanks⟩ := exists_namesOf_absolute w path
  unfold find
  dsimp only
  rw [hnames, followNames_blanks hblanks]

/-- A path leads to its way. -/
theorem eq_way_of_find {w : Workspace} {path : String}
    (htree : ∀ place target, w.tree.get? place ≠ some (.link target))
    (hway : ∀ name ∈ w.way path, IsName name) (h : w.find follow path = .ok p) :
    p = w.way path := by
  rw [find_eq] at h
  split at h
  · cases h
  · split at h
    · cases h
    · split at h
      · cases h
      · have hp := eq_append_of_followNames htree hway h
        rwa [List.nil_append] at hp

/-- A path that leads somewhere leads into a folder. -/
theorem exists_folder_of_find {w : Workspace} {path : String}
    (htree : ∀ place target, w.tree.get? place ≠ some (.link target))
    (hway : ∀ name ∈ w.way path, IsName name) (htop : w.tree.isFolder = true)
    {before : Location} {name : String} (hsplit : w.way path = before ++ [name])
    (h : w.find follow path = .ok p) :
    ∃ es, w.tree.get? before = some (.folder es) := by
  have hhere : ∃ es, w.tree.get? [] = some (.folder es) := by
    obtain ⟨es, hes⟩ := Entry.isFolder_iff.mp htop
    exact ⟨es, congrArg some hes⟩
  rw [find_eq] at h
  split at h
  · cases h
  · split at h
    · cases h
    · split at h
      · cases h
      · rw [hsplit] at h hway
        exact exists_folder_of_followNames htree hway hhere h

/-- A path leads to the same location in two trees if the locations before it let pass in both, or in
none. -/
theorem find_congr {w : Workspace} {path : String}
    (htree : ∀ place target, w.tree.get? place ≠ some (.link target))
    (htree' : ∀ place target, tree'.get? place ≠ some (.link target))
    (hway : ∀ name ∈ w.way path, IsName name)
    (h : ∀ before name after, w.way path = before ++ name :: after → before ≠ [] →
      (tree'.get? before).map Entry.barrier? = (w.tree.get? before).map Entry.barrier?) :
    find { w with tree := tree' } follow path = w.find follow path := by
  have hfollow : followNames tree' follow linkLimit [] (w.way path) =
      followNames w.tree follow linkLimit [] (w.way path) :=
    followNames_congr htree htree' hway h
  rw [find_eq, find_eq, ← hfollow]
  rfl

/-- A path to something in a folder leads to its way. -/
theorem find_of_folder {w : Workspace} {path : String}
    (htree : ∀ place target, w.tree.get? place ≠ some (.link target))
    (hway : ∀ name ∈ w.way path, IsName name ∧ name.utf8ByteSize ≤ nameLimit)
    (hnul : '\x00' ∉ (w.absolute path).toList) (hempty : path ≠ "")
    (hsize : path.utf8ByteSize ≤ pathLimit)
    (hfolder : ∃ es, w.tree.get? (w.way path).dropLast = some (.folder es)) :
    w.find follow path = .ok (w.way path) := by
  have hfollow : followNames w.tree follow linkLimit [] (w.way path) = .ok ([] ++ w.way path) :=
    followNames_of_folder htree hway (by rwa [List.nil_append])
  rw [find_eq, if_neg (by simpa using hnul), if_neg hempty, if_neg (Nat.not_lt.mpr hsize), hfollow,
    List.nil_append]

/-! ### What paths lead to -/

section Looking

variable {w : Workspace} {path : String}

theorem entry_of_find (h : w.find true path = .ok p) :
    w.entry path = (w.tree.get? p).elim (.error .missing) .ok := by
  unfold entry
  rw [h, Outcome.ok_bind]
  cases w.tree.get? p <;> rfl

theorem entry_of_find_error {f : FileFault} (h : w.find true path = .error f) :
    w.entry path = .error f := by
  unfold entry
  rw [h]
  rfl

theorem look_of_find (h : w.find true path = .ok p) : w.look path = .ok (w.tree.get? p) := by
  unfold look
  rw [entry_of_find h]
  cases w.tree.get? p <;> rfl

/-- A path leads to the entry at the location that it is followed to. -/
theorem look_eq_some_iff {e : Entry} : w.look path = .ok (some e) ↔
    ∃ place, w.find true path = .ok place ∧ w.tree.get? place = some e := by
  constructor
  · intro h
    cases hfind : w.find true path with
    | ok p => exact ⟨p, rfl, Except.ok.inj ((look_of_find hfind).symm.trans h)⟩
    | error f =>
      unfold look at h
      rw [entry_of_find_error hfind] at h
      cases f <;> cases h
  · rintro ⟨place, hfind, hget⟩
    rw [look_of_find hfind, hget]

theorem entry_eq_ok_iff {e : Entry} : w.entry path = .ok e ↔ w.look path = .ok (some e) := by
  unfold look
  cases w.entry path with
  | ok d => exact ⟨by rintro ⟨⟩; rfl, by rintro ⟨⟩; rfl⟩
  | error f => cases f <;> exact ⟨fun h => (nomatch h), fun h => (nomatch h)⟩

theorem list_of_look_folder {es : List (String × Entry)}
    (h : w.look path = .ok (some (.folder es))) : w.list path = .ok es := by
  unfold list
  rw [entry_eq_ok_iff.mpr h]
  rfl

theorem list_of_look_closed (h : w.look path = .ok (some .closed)) :
    w.list path = .error .denied := by
  unfold list
  rw [entry_eq_ok_iff.mpr h]
  rfl

/-- A path cannot be followed, and looking says so: a name is too long, or a folder on the way is
closed. -/
inductive Unanswered (w : Workspace) (path : String) : Fault → Prop
  | longName (h : w.find true path = .error .nameTooLong) :
      Unanswered w path (FileFault.nameTooLong.toFault path)
  | denied (h : w.find true path = .error .denied) :
      Unanswered w path (FileFault.denied.toFault path)

theorem look_eq_error_iff {f : Fault} : w.look path = .error f ↔ w.Unanswered path f := by
  constructor
  · intro h
    cases hfind : w.find true path with
    | ok p => cases (look_of_find hfind).symm.trans h
    | error g =>
      unfold look at h
      rw [entry_of_find_error hfind] at h
      cases g <;> cases h
      · exact .denied hfind
      · exact .longName hfind
  · rintro (hfind | hfind)
    · unfold look
      rw [entry_of_find_error hfind]
    · unfold look
      rw [entry_of_find_error hfind]

theorem isFile_eq_error_iff {f : Fault} : w.isFile path = .error f ↔ w.Unanswered path f := by
  rw [isFile, Outcome.map_eq_error, look_eq_error_iff]

theorem isFolder_eq_error_iff {f : Fault} : w.isFolder path = .error f ↔ w.Unanswered path f := by
  rw [isFolder, Outcome.map_eq_error, look_eq_error_iff]

/-- A path leads to a folder that is not closed. -/
def IsOpen (w : Workspace) (path : String) : Prop := ∃ es, w.look path = .ok (some (.folder es))

theorem isOpen_iff : w.IsOpen path ↔
    ∃ p es, w.find true path = .ok p ∧ w.tree.get? p = some (.folder es) := by
  unfold IsOpen
  simp only [look_eq_some_iff]
  exact exists_comm

/-- A path that leads to a folder leads to one that is open or to one that is closed. -/
theorem isFolder_eq_ok_true_iff :
    w.isFolder path = .ok true ↔ w.look path = .ok (some .closed) ∨ w.IsOpen path := by
  unfold isFolder IsOpen
  cases w.look path with
  | error f => simp [Except.map]
  | ok o =>
    cases o with
    | none => simp [Except.map]
    | some e => simpa [Except.map] using Entry.isDirectory_iff

theorem exists_of_isFolder (h : w.isFolder path = .ok true) :
    ∃ p e, w.find true path = .ok p ∧ w.tree.get? p = some e ∧ e.isDirectory = true := by
  rcases isFolder_eq_ok_true_iff.mp h with hclosed | ⟨es, hopen⟩
  · obtain ⟨p, hfind, hget⟩ := look_eq_some_iff.mp hclosed
    exact ⟨p, _, hfind, hget, rfl⟩
  · obtain ⟨p, hfind, hget⟩ := look_eq_some_iff.mp hopen
    exact ⟨p, _, hfind, hget, rfl⟩

theorem IsOpen.isFolder (h : w.IsOpen path) : w.isFolder path = .ok true :=
  isFolder_eq_ok_true_iff.mpr (.inr h)

end Looking

/-! ### Real paths -/

theorem replaceLinks_names (htree : ∀ place target, tree.get? place ≠ some (.link target))
    (hnames : ∀ name ∈ names, IsName name) :
    replaceLinks tree links here names = some (here ++ names) := by
  induction names generalizing here with
  | nil => rw [replaceLinks, List.append_nil]
  | cons name rest ih =>
    have hname := hnames name List.mem_cons_self
    have hblank : ¬(name = "" ∨ name = ".") := by
      rintro (rfl | rfl)
      · exact hname.1.1 rfl
      · exact hname.1.2.1 rfl
    have hrest := @ih (here ++ [name]) fun n hn => hnames n (List.mem_cons_of_mem name hn)
    rw [List.append_assoc, List.singleton_append] at hrest
    rw [replaceLinks, if_neg hblank, if_neg hname.2]
    split
    · rename_i target hget
      exact absurd hget (htree _ target)
    · exact hrest

theorem replaceLinks_blanks {blanks : List String} (h : ∀ name ∈ blanks, name = "" ∨ name = ".") :
    replaceLinks tree links here (blanks ++ names) = replaceLinks tree links here names := by
  induction blanks with
  | nil => rfl
  | cons name blanks ih =>
    rw [List.cons_append, replaceLinks, if_pos (h name List.mem_cons_self)]
    exact ih fun n hn => h n (List.mem_cons_of_mem name hn)

/-- The real path of a path is the path of its way. -/
theorem realPath_eq {w : Workspace} {path : String}
    (htree : ∀ place target, w.tree.get? place ≠ some (.link target))
    (hway : ∀ name ∈ w.way path, IsName name) : w.realPath path = .ok (pathOf (w.way path)) := by
  obtain ⟨blanks, hnames, hblanks⟩ := exists_namesOf_absolute w path
  rw [realPath, hnames, replaceLinks_blanks hblanks, replaceLinks_names htree hway,
    List.nil_append]

end Workspace

end ScriptHealth
