import ScriptHealth.Proofs.Analysis.Totals
import ScriptHealth.Proofs.Project.LineEnds
import ScriptHealth.Proofs.Project.Listing
import ScriptHealth.Proofs.Source.Suffix
import ScriptHealth.Proofs.Workspace.RealPath

/-!
# The extensions of listed files

The files of a project are listed by the extensions of their names. When they are loaded, each has an
extension once more, that of its path, and this one decides whether it is parsed and under which
extension it is counted. A listed name is visible and has a wanted extension. If the bare dot is not
wanted, the two extensions are the same, wherever the file is and whatever dots are in its name.

## Main definitions

* `Location.suffix` — the extension by which a file is listed
* `Workspace.FilesNamed` — trees whose files have names without backslashes
* `SourceFile.TreatedAs` — what the extension of a file decides

## Main results

* `Workspace.Listed.extensionOf_eq`, `Workspace.Listed.extension_eq` — the extension of a listed
  path, and of the file that is loaded from it
* `SourceAnalysis.mem_keys_languages` — which extensions are counted
* `listed_files_keep_their_suffix` — the extensions of a project
-/

namespace ScriptHealth

/-- The extension by which a file is listed: that of its last name. -/
def Location.suffix (p : Location) : String :=
  String.ofList (Path.nameSuffix (p.getLast?.getD "").toList)

@[simp] theorem Location.suffix_concat (folders : Location) (name : String) :
    Location.suffix (folders ++ [name]) = String.ofList (Path.nameSuffix name.toList) := by
  simp [Location.suffix]

/-! ### What an extension decides -/

/-- The extensions of scripts. -/
def scriptExtensions : List String := [".js", ".jsx", ".ts", ".tsx"]

theorem Dialect.ofExtension?_eq_none_iff {ext : String} :
    ofExtension? ext = none ↔ ext ∉ scriptExtensions := by
  unfold ofExtension? scriptExtensions
  simp only [List.mem_cons, List.not_mem_nil, or_false]
  split_ifs with hplain hts htsx
  · rcases hplain with rfl | rfl <;> simp
  · simp [hts]
  · simp [htsx]
  · rw [not_or] at hplain
    simp [hplain, hts, htsx]

/-- A file is treated by an extension: it is counted under it, and its text goes to the parser exactly
if it is the extension of a script. -/
structure SourceFile.TreatedAs (ext : String) (s : SourceFile) : Prop where
  extension : s.extension = ext
  script : ext ∈ scriptExtensions → ∃ dialect, ∀ parse isFile text, s.text = some text →
    FileAnalysis.ofSource parse isFile s =
      FileAnalysis.ofTree s.path text (parse dialect text).toOption isFile
  other : ext ∉ scriptExtensions → ∀ parse isFile text, s.text = some text →
    FileAnalysis.ofSource parse isFile s = FileAnalysis.ofTree s.path text none isFile

/-- Every file is treated by the extension of its path. -/
theorem SourceFile.treatedAs_extension (s : SourceFile) : s.TreatedAs s.extension := by
  have hsource (parse : ScriptParser) (isFile : String → Bool) (text : String)
      (htext : s.text = some text) : FileAnalysis.ofSource parse isFile s =
        FileAnalysis.ofTree s.path text
          ((Dialect.ofExtension? s.extension).bind fun d => (parse d text).toOption) isFile := by
    unfold FileAnalysis.ofSource
    rw [htext]
    rfl
  refine ⟨rfl, ?_, ?_⟩
  · intro hscript
    cases hdialect : Dialect.ofExtension? s.extension with
    | none => exact absurd hscript (Dialect.ofExtension?_eq_none_iff.mp hdialect)
    | some dialect =>
      refine ⟨dialect, fun parse isFile text htext => ?_⟩
      rw [hsource parse isFile text htext, hdialect, Option.bind_some]
  · intro hother parse isFile text htext
    rw [hsource parse isFile text htext, Dialect.ofExtension?_eq_none_iff.mpr hother,
      Option.bind_none]

/-- The totals of an analysis. -/
theorem SourceAnalysis.stats_of_ofIn {parse : ScriptParser} {config : Config} {order : List Nat}
    {sources : List SourceFile} {manifest : Option Manifest} {analysis : SourceAnalysis}
    (horder : IsSchedule order sources)
    (h : SourceAnalysis.ofIn order parse config sources manifest = .ok analysis) :
    analysis.stats = ProjectStats.of sources
      (sources.map (FileAnalysis.ofSource parse (isProjectFile sources))) := by
  obtain ⟨maxNodes, -, h⟩ := Outcome.bind_eq_ok.mp h
  obtain ⟨maxEdges, -, h⟩ := Outcome.bind_eq_ok.mp h
  cases h
  rw [SourceAnalysis.merge, analyzeFilesIn_eq_map parse horder]

/-- The extensions that are counted are those of the files. -/
theorem SourceAnalysis.mem_keys_languages {parse : ScriptParser} {config : Config}
    {order : List Nat} {sources : List SourceFile} {manifest : Option Manifest}
    {analysis : SourceAnalysis} (horder : IsSchedule order sources)
    (h : SourceAnalysis.ofIn order parse config sources manifest = .ok analysis) {ext : String} :
    ext ∈ analysis.stats.languages.keys ↔ ∃ s ∈ sources, s.extension = ext := by
  rw [stats_of_ofIn horder h, ProjectStats.of_eq, OrderedMap.mem_keys_tally, List.mem_map]

/-! ### Listed files -/

namespace Workspace

/-- The files at and below a root, given by its path and its location, have names, and none of them
holds a backslash. -/
def FilesNamed (w : Workspace) (root : String) (place : Location) : Prop :=
  ∀ folders name e, w.tree.get? (place ++ (folders ++ [name])) = some e →
    ¬LeadsToFolder w (pathBelow root (folders ++ [name])) e → name ≠ "" ∧ '\\' ∉ name.toList

variable {w : Workspace} {s : Selection} {place folders : Location} {root name : String}

namespace Listed

/-- The name of a listed file is one that a path can end with. -/
theorem isNamed (h : Listed w s root place folders name) (hw : w.tree.WellFormed)
    (hnames : FilesNamed w root place) : Path.IsNamed name.toList := by
  obtain ⟨e, he, hfile⟩ := h.isFile
  refine ⟨?_, ?_, ?_⟩
  · rw [Ne, String.toList_eq_nil_iff]
    exact (hnames folders name e he hfile).1
  · rintro hdot
    exact h.isVisible (by rw [hdot]; rfl)
  · exact hw.slash_notMem he name (by simp)

/-- A path that ends with the name of a listed file has the extension by which it is listed. -/
theorem extensionOf_of_name (h : Listed w s root place folders name)
    (hdot : "." ∉ s.extensions) {path : String} (hname : Path.name path.toList = name.toList) :
    extensionOf path = Location.suffix (folders ++ [name]) := by
  -- a name that ends with a dot would be listed under the bare dot
  have hsuffix : Path.nameSuffix name.toList ≠ Path.here := by
    intro hhere
    have hwanted := h.isWanted
    rw [hhere] at hwanted
    exact hdot hwanted
  rw [extensionOf, (Path.suffix_eq_nameSuffix_iff hname h.isVisible).mpr hsuffix,
    Location.suffix_concat]

/-- The extension of a listed path is the one by which it is listed. -/
theorem extensionOf_eq (h : Listed w s root place folders name) (hw : w.tree.WellFormed)
    (hnames : FilesNamed w root place) (hdot : "." ∉ s.extensions) :
    extensionOf ("/".intercalate (folders ++ [name])) = Location.suffix (folders ++ [name]) := by
  obtain ⟨front, hpath, hfront⟩ := Location.exists_toList_intercalate folders name
  refine h.extensionOf_of_name hdot ?_
  rw [hpath]
  exact Path.name_append hfront (h.isNamed hw hnames)

/-- So is the extension of the file that is loaded from the path. -/
theorem extension_eq (h : Listed w s root place folders name) (hw : w.tree.WellFormed)
    (hnames : FilesNamed w root place) (hdot : "." ∉ s.extensions) {source : SourceFile}
    (hsource : source.path =
      String.ofList (Path.slashes ("/".intercalate (folders ++ [name])).toList)) :
    source.extension = Location.suffix (folders ++ [name]) := by
  obtain ⟨front, hpath, hfront⟩ := Location.exists_toList_intercalate folders name
  obtain ⟨e, he, hfile⟩ := h.isFile
  have hback : '\\' ∉ name.toList := (hnames folders name e he hfile).2
  refine h.extensionOf_of_name hdot ?_
  rw [hsource, String.toList_ofList, hpath]
  exact Path.name_slashes_append hfront (h.isNamed hw hnames) hback

end Listed

end Workspace

/-- A file is loaded with the slashed spelling of its path. -/
theorem Project.path_of_loadSource {w : Workspace} {root path : String} {source : SourceFile}
    (h : loadSource w root path = .ok source) :
    source.path = String.ofList (Path.slashes path.toList) := by
  unfold loadSource at h
  dsimp only at h
  split at h
  · cases h
    rfl
  · cases h
  · cases h
    rfl

/-- The paths of loaded files, one by one. -/
theorem Project.forall₂_loadSources {w : Workspace} {root : String} {paths : List String}
    {workers : Value} {sources : List SourceFile}
    (h : loadSources w root paths workers = .ok sources) :
    List.Forall₂ (fun path source => source.path = String.ofList (Path.slashes path.toList))
      paths sources := by
  obtain ⟨-, -, hload⟩ := Outcome.bind_eq_ok.mp h
  exact (Outcome.mapM_eq_ok_iff.mp hload).imp fun _ _ => path_of_loadSource

/-- **The extensions of a project.** In a tree whose file names hold no backslash, and if the bare
dot is not wanted, every listed path has the extension by which its file was selected, and that is a
wanted one. The loaded files have these extensions too: a file is parsed exactly if it was selected
as a script, and only wanted extensions are counted, in whatever order the workers finish. -/
theorem listed_files_keep_their_suffix (w : Workspace) (hw : w.tree.WellFormed) (root : String)
    (hroot : w.IsOpen root)
    (hnames : ∀ place, w.find true root = .ok place → Workspace.FilesNamed w root place)
    (s : Selection) (hdot : "." ∉ s.extensions) :
    ∃ locations : List Location,
      (Project.listFiles w root (.ok s)).result.map Prod.fst =
        .ok (locations.map "/".intercalate) ∧
      (∀ p ∈ locations, extensionOf ("/".intercalate p) = Location.suffix p ∧
        Location.suffix p ∈ s.extensions) ∧
      ∀ workers sources,
        Project.loadSources w root (locations.map "/".intercalate) workers = .ok sources →
        List.Forall₂ (fun p source => source.TreatedAs (Location.suffix p)) locations sources ∧
        ∀ parse config manifest order analysis, IsSchedule order sources →
          SourceAnalysis.ofIn order parse config sources manifest = .ok analysis →
          ∀ ext ∈ analysis.stats.languages.keys, ext ∈ s.extensions := by
  obtain ⟨place, es, hfind, hget⟩ := Workspace.isOpen_iff.mp hroot
  have hplace := hnames place hfind
  have hlisted (p : Location) (hp : p ∈ Workspace.filesBelow w s root (.folder es)) :=
    (Workspace.mem_filesBelow hw hget rfl).mp hp
  have hsuffix : ∀ p ∈ Workspace.filesBelow w s root (.folder es),
      extensionOf ("/".intercalate p) = Location.suffix p ∧ Location.suffix p ∈ s.extensions := by
    intro p hp
    obtain ⟨folders, name, rfl, hfile⟩ := hlisted p hp
    refine ⟨hfile.extensionOf_eq hw hplace hdot, ?_⟩
    rw [Location.suffix_concat]
    exact hfile.isWanted
  refine ⟨Workspace.filesBelow w s root (.folder es), ?_, hsuffix, ?_⟩
  · obtain ⟨t, ht⟩ := Project.exists_listFiles (s := s)
      (Workspace.look_eq_some_iff.mpr ⟨place, hfind, hget⟩) []
    exact congrArg (Except.map Prod.fst) ht
  · intro workers sources hsources
    have hpaths := List.forall₂_map_left_iff.mp (Project.forall₂_loadSources hsources)
    have htreated : List.Forall₂ (fun p source => source.TreatedAs (Location.suffix p))
        (Workspace.filesBelow w s root (.folder es)) sources := by
      -- files and locations are matched by their places, since a path may be spelled otherwise
      refine List.Forall₂.imp ?_ (List.forall₂_and_left _ _ |>.mpr ⟨hlisted, hpaths⟩)
      rintro _ source ⟨⟨folders, name, rfl, hfile⟩, hpath⟩
      rw [← hfile.extension_eq hw hplace hdot hpath]
      exact source.treatedAs_extension
    refine ⟨htreated, ?_⟩
    intro parse config manifest order analysis horder hanalysis ext hext
    obtain ⟨source, hsource, rfl⟩ :=
      (SourceAnalysis.mem_keys_languages horder hanalysis).mp hext
    obtain ⟨p, hp, htreated⟩ := Outcome.exists_of_mem_right htreated hsource
    rw [htreated.extension]
    exact (hsuffix p hp).2

/-- A project with dots in all of its names, one of them at the end of a name. -/
def dottedTree : Entry :=
  .folder [("v1.0", .folder [("a.min.js", .file ⟨#[0x78]⟩), ("odd.", .file .empty)]),
    ("notes..md", .file .empty)]

theorem isPlain_dottedTree : dottedTree.IsPlain := by
  refine Entry.isPlain_folder (by decide) (by decide) ?_
  simp only [List.forall_mem_cons, List.not_mem_nil, false_imp_iff, implies_true, and_true]
  refine ⟨Entry.isPlain_folder (by decide) (by decide) ?_, Entry.isPlain_file _⟩
  simp [Entry.isPlain_file]

theorem filesNamed_dottedTree : Workspace.FilesNamed { tree := dottedTree } "/" [] := by
  have hnames : dottedTree.EveryName fun name => name ≠ "" ∧ '\\' ∉ name.toList := by
    refine Entry.everyName_folder (by decide) ?_
    simp only [List.forall_mem_cons, List.not_mem_nil, false_imp_iff, implies_true, and_true]
    refine ⟨Entry.everyName_folder (by decide) ?_, Entry.everyName_file _ _⟩
    simp [Entry.everyName_file]
  intro folders name e he _
  exact hnames _ e he name (by simp)

/-- The files of the project with two of the extensions. -/
def dottedSelection : Selection := ⟨[".js", ".md"], [], []⟩

/-- The files of that selection. -/
def dottedPaths : List (String × Location) :=
  [(Workspace.under "/" "notes..md", ["notes..md"]),
    (Workspace.under "/" "v1.0/a.min.js", ["v1.0", "a.min.js"])]

theorem find_dottedTree (path : String) (place : Location) (hpath : (path, place) ∈ dottedPaths) :
    Workspace.find { tree := dottedTree } true path = .ok place := by
  have hpaths : ∀ d ∈ dottedPaths, Workspace.way { tree := dottedTree } d.1 = d.2 ∧
      (∀ name ∈ d.2, Location.IsName name ∧ name.utf8ByteSize ≤ Workspace.nameLimit) ∧
      '\x00' ∉ (Workspace.absolute { tree := dottedTree } d.1).toList ∧
      d.1 ≠ "" ∧ d.1.utf8ByteSize ≤ Workspace.pathLimit ∧
      (dottedTree.get? d.2.dropLast).map Entry.isFolder = some true := by
    decide +kernel
  obtain ⟨hway, hnames, hnul, hempty, hsize, hfolder⟩ := hpaths _ hpath
  dsimp only at hway hnames hfolder
  subst hway
  obtain ⟨e, he, hfolder⟩ := Option.map_eq_some_iff.mp hfolder
  obtain ⟨es, rfl⟩ := Entry.isFolder_iff.mp hfolder
  exact Workspace.find_of_folder isPlain_dottedTree.noLink hnames hnul hempty hsize ⟨es, he⟩

theorem loadSources_dottedTree :
    Project.loadSources { tree := dottedTree } "/" ["notes..md", "v1.0/a.min.js"] .null =
      .ok [⟨"notes..md", 0, some ""⟩, ⟨"v1.0/a.min.js", 1, some "x"⟩] := by
  have hnotes := find_dottedTree (Workspace.under "/" "notes..md") ["notes..md"] (by decide)
  have hscript :=
    find_dottedTree (Workspace.under "/" "v1.0/a.min.js") ["v1.0", "a.min.js"] (by decide)
  -- the way through the tree is not computed here: it is known from the two locations
  rw [Project.loadSources, List.mapM_cons, List.mapM_cons,
    Project.loadSource_of_find _ _ hnotes rfl, Project.loadSource_of_find _ _ hscript rfl]
  exact congrArg Except.ok (by decide +kernel)

/-- The file whose name ends with a dot is not listed; the others keep their extensions, whatever
dots are in their names and in the name of their folder. -/
theorem listed_files_keep_their_suffix_dottedTree :
    (Project.listFiles { tree := dottedTree } "/" (.ok dottedSelection)).result.map Prod.fst =
        .ok ["notes..md", "v1.0/a.min.js"] ∧
      (∀ path ∈ ["notes..md", "v1.0/a.min.js"], extensionOf path ∈ dottedSelection.extensions) ∧
      ∃ sources analysis,
        Project.loadSources { tree := dottedTree } "/" ["notes..md", "v1.0/a.min.js"] .null =
            .ok sources ∧
          SourceAnalysis.of Script.parse {} sources none = .ok analysis ∧
          ∀ ext ∈ analysis.stats.languages.keys, ext ∈ dottedSelection.extensions := by
  have hroot := Workspace.find_top dottedTree
  have hopen : Workspace.IsOpen { tree := dottedTree } "/" := ⟨_, Workspace.look_top dottedTree⟩
  have hnames : ∀ place, Workspace.find { tree := dottedTree } true "/" = .ok place →
      Workspace.FilesNamed { tree := dottedTree } "/" place := by
    intro place hplace
    obtain rfl := Except.ok.inj (hroot.symm.trans hplace)
    exact filesNamed_dottedTree
  have hdot : "." ∉ dottedSelection.extensions := by decide
  have hlisted : Workspace.filesBelow { tree := dottedTree } dottedSelection "/" dottedTree =
      [["notes..md"], ["v1.0", "a.min.js"]] := by
    decide +kernel
  obtain ⟨locations, hresult, hsuffix, hsources⟩ := listed_files_keep_their_suffix
    { tree := dottedTree } isPlain_dottedTree.wellFormed "/" hopen hnames dottedSelection hdot
  have hpaths : locations.map "/".intercalate = ["notes..md", "v1.0/a.min.js"] := by
    obtain ⟨t, ht⟩ := Project.exists_listFiles (s := dottedSelection) (Workspace.look_top dottedTree) []
    have hfiles := (congrArg (Except.map Prod.fst) ht).symm.trans hresult
    rw [← dottedTree, hlisted] at hfiles
    exact (Except.ok.inj hfiles).symm
  rw [hpaths] at hresult hsources
  obtain ⟨sources, hload⟩ : ∃ sources, Project.loadSources { tree := dottedTree } "/"
      ["notes..md", "v1.0/a.min.js"] .null = .ok sources := ⟨_, loadSources_dottedTree⟩
  obtain ⟨analysis, hanalysis⟩ : ∃ analysis,
      SourceAnalysis.of Script.parse {} sources none = .ok analysis :=
    ⟨_, SourceAnalysis.ofIn_eq_merge Script.parse (isSchedule_range sources) rfl rfl none⟩
  refine ⟨hresult, ?_, sources, analysis, hload, hanalysis, ?_⟩
  · intro path hpath
    rw [← hpaths, List.mem_map] at hpath
    obtain ⟨p, hp, rfl⟩ := hpath
    rw [(hsuffix p hp).1]
    exact (hsuffix p hp).2
  · exact (hsources .null sources hload).2 Script.parse {} none _ analysis
      (isSchedule_range sources) hanalysis

end ScriptHealth
