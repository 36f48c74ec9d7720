import NativeLaunch.Proofs.Bundle.Containment

/-!
# What a directory bundle lists

A listing reads the names in the platform directories as texts, with replacements where they are none,
and a resource path is spelled as bytes again when it is opened.  This file defines:

* `Bundle.resourceAt` and `Bundle.shelf` — the resource path of a file in a platform directory, and the
  directory itself;
* `Bundle.Shelved` — a name in a platform directory that leads to a file;
* `Bundle.ListsOpenable` — each file is listed once, and what is listed for it opens it;
* `Bundle.Legible` — the names of files are texts, and the paths to them can be looked up.

The two readings are inverse to each other on texts and on nothing else: under a name that is no text a
file is listed as what is another file's name, or nothing's (`listsOpenable_iff`).
-/

namespace NativeLaunch

/-! ## Names in directories -/

namespace FileTree

variable {files : FileTree} {wd : Location} {place : Path} {name : Bytes}

/-- The names of the files in a directory, links followed. -/
def fileNames (files : FileTree) (wd : Location) (place : Path) : List Bytes :=
  match files.list wd place with
  | .error _ => []
  | .ok entries => (entries.map Prod.fst).filter fun name => files.isFile wd (place.join ⟨name⟩)

theorem isFile_iff {path : Path} :
    files.isFile wd path = true ↔ ∃ place content, files.find wd path = .ok (place, .file content) := by
  unfold isFile
  cases files.find wd path with
  | error kind =>
      simp
  | ok found =>
      obtain ⟨place, node⟩ := found
      cases node <;> simp [FileNode.isFile]

theorem list_eq_ok_iff {entries : List (Bytes × FileNode)} :
    files.list wd place = .ok entries ↔
      ∃ top, files.find wd place = .ok (top, .directory) ∧ entries = files.children top := by
  unfold list
  split
  · rename_i top hfind
    simp [hfind, eq_comm]
  · rename_i top node hdirectory hfind
    simp_all
  · rename_i kind hfind
    simp [hfind]

theorem mem_fileNames_iff :
    name ∈ files.fileNames wd place ↔
      (∃ top node, files.find wd place = .ok (top, .directory) ∧
          files.node? (top ++ [name]) = some node) ∧
        ∃ found content, files.find wd (place.join ⟨name⟩) = .ok (found, .file content) := by
  rw [← isFile_iff]
  unfold fileNames
  cases hlist : files.list wd place with
  | error kind =>
      have hnone : ∀ top, files.find wd place ≠ .ok (top, .directory) := fun top hfind => by
        rw [list_eq_ok_iff.2 ⟨top, hfind, rfl⟩] at hlist
        cases hlist
      simp [hnone]
  | ok entries =>
      rcases list_eq_ok_iff.1 hlist with ⟨top, hfind, rfl⟩
      simp only [List.mem_filter, mem_map_fst_children_iff, hfind, Except.ok.injEq, Prod.mk.injEq,
        and_true, exists_and_left, exists_eq_left']

theorem WellFormed.nodup_fileNames (hfiles : files.WellFormed) (wd : Location) (place : Path) :
    (files.fileNames wd place).Nodup := by
  unfold fileNames
  cases hlist : files.list wd place with
  | error kind =>
      exact List.nodup_nil
  | ok entries =>
      rcases list_eq_ok_iff.1 hlist with ⟨top, _, rfl⟩
      exact (hfiles.nodup_children top).filter _

end FileTree

/-! ## Resource paths in directories -/

namespace Bundle

/-- The resource path of a file in a platform directory. -/
def resourceAt (os architecture file : String) : String :=
  "/" ++ os ++ "/" ++ architecture ++ "/" ++ file

/-- The directory of a platform in a bundle directory. -/
def shelf (root : Path) (os architecture : String) : Path :=
  (root.join (.ofString os)).join (.ofString architecture)

theorem isName_of_mem_platformDirectories : ∀ pair ∈ platformDirectories,
    Path.IsName (Utf8.encode pair.1) ∧ Path.IsName (Utf8.encode pair.2) := by
  decide

section Resource

variable {os architecture file : String}

theorem encode_resourceAt (os architecture file : String) :
    Utf8.encode (resourceAt os architecture file) =
      Path.slash :: (Utf8.encode os ++
        Path.slash :: (Utf8.encode architecture ++ Path.slash :: Utf8.encode file)) := by
  have hslash : Utf8.encodeChar '/' = [Path.slash] := by decide
  simp [resourceAt, Utf8.encode, Utf8.encodeChars_append, hslash]

theorem split_resourceAt (hos : Path.slash ∉ Utf8.encode os)
    (harchitecture : Path.slash ∉ Utf8.encode architecture) :
    Path.split (Utf8.encode (resourceAt os architecture file)) =
      [] :: Utf8.encode os :: Utf8.encode architecture :: Path.split (Utf8.encode file) := by
  rw [encode_resourceAt, Path.split, if_pos rfl, Path.split_append_slash, Path.split_append_slash,
    Path.split_of_not_mem hos, Path.split_of_not_mem harchitecture]
  rfl

theorem locate_resourceAt (root : Path) (hos : Path.IsName (Utf8.encode os))
    (harchitecture : Path.IsName (Utf8.encode architecture)) (hfile : Path.IsName (Utf8.encode file)) :
    locate root (resourceAt os architecture file) = (shelf root os architecture).join (.ofString file) := by
  have hsegments : innerSegments (resourceAt os architecture file) =
      [Utf8.encode os, Utf8.encode architecture, Utf8.encode file] := by
    unfold innerSegments
    rw [split_resourceAt hos.2.1 harchitecture.2.1, Path.split_of_not_mem hfile.2.1]
    simp [hos.1, hos.2.2.2, harchitecture.1, harchitecture.2.2.2, hfile.1, hfile.2.2.2]
  simp [locate, shelf, hsegments, Path.ofString]

/-- Two resource paths in platform directories are the same only part by part. -/
theorem resourceAt_inj {os' architecture' file' : String} (hos : Path.slash ∉ Utf8.encode os)
    (harchitecture : Path.slash ∉ Utf8.encode architecture) (hfile : Path.slash ∉ Utf8.encode file)
    (hos' : Path.slash ∉ Utf8.encode os') (harchitecture' : Path.slash ∉ Utf8.encode architecture')
    (h : resourceAt os' architecture' file' = resourceAt os architecture file) :
    os' = os ∧ architecture' = architecture ∧ file' = file := by
  have hsplit := congrArg (fun text => Path.split (Utf8.encode text)) h
  simp only [split_resourceAt hos harchitecture, split_resourceAt hos' harchitecture',
    Path.split_of_not_mem hfile, List.cons.injEq, true_and] at hsplit
  exact ⟨Utf8.encode_inj.1 hsplit.1, Utf8.encode_inj.1 hsplit.2.1,
    Utf8.encode_inj.1 (Path.eq_of_split hsplit.2.2)⟩

end Resource

/-! ## Names read as texts -/

section Names

variable {name name' : Bytes}

/-- A name that is read as text is a name still. -/
theorem isName_decodeLossy (hname : Path.IsName name) :
    Path.IsName (Utf8.encode (Utf8.decodeLossy name)) := by
  -- What is read as dots was dots, as nothing was replaced.
  have hdots : ∀ text, '\uFFFD' ∉ String.toList text → name ≠ Utf8.encode text →
      Utf8.encode (Utf8.decodeLossy name) ≠ Utf8.encode text := fun text hread hne hsame =>
    hne (Utf8.encode_of_decodeLossy (Utf8.encode_inj.1 hsame) hread)
  refine ⟨fun hnone => hname.1 (Utf8.encode_decodeLossy_eq_nil.1 hnone),
    Utf8.slash_not_mem_encodeChars (Path.slash_not_mem_decodeLossy hname.2.1), ?_, ?_⟩
  · exact hdots "." (by decide) hname.2.2.1
  · exact hdots ".." (by decide) hname.2.2.2

/-- Names are told apart by their readings if they are texts. -/
theorem eq_of_decodeLossy (htext : ∃ text, name = Utf8.encode text)
    (htext' : ∃ text, name' = Utf8.encode text)
    (h : Utf8.decodeLossy name = Utf8.decodeLossy name') : name = name' := by
  rw [← Utf8.encode_decodeLossy_eq_iff.2 htext, h, Utf8.encode_decodeLossy_eq_iff.2 htext']

/-- Of platform directories and names in them only the names can be mistaken for each other. -/
theorem resourceAt_decodeLossy_inj {os architecture os' architecture' : String}
    (hpair : (os, architecture) ∈ platformDirectories)
    (hpair' : (os', architecture') ∈ platformDirectories) (hname : Path.slash ∉ name)
    (h : resourceAt os' architecture' (Utf8.decodeLossy name') =
      resourceAt os architecture (Utf8.decodeLossy name)) :
    os' = os ∧ architecture' = architecture ∧ Utf8.decodeLossy name' = Utf8.decodeLossy name := by
  have hnames := isName_of_mem_platformDirectories _ hpair
  have hnames' := isName_of_mem_platformDirectories _ hpair'
  exact resourceAt_inj hnames.1.2.1 hnames.2.2.1
    (Utf8.slash_not_mem_encodeChars (Path.slash_not_mem_decodeLossy hname)) hnames'.1.2.1
    hnames'.2.2.1 h

end Names

/-! ## Listed files -/

/-- Under a name in a platform directory there is a file, or a link that leads to one. -/
structure Shelved (root : Path) (files : FileTree) (wd : Location) (os architecture : String)
    (name content : Bytes) : Prop where
  scanned : (os, architecture) ∈ platformDirectories
  lies : ∃ top node, files.find wd (shelf root os architecture) = .ok (top, .directory) ∧
    files.node? (top ++ [name]) = some node
  leads : ∃ place, files.find wd ((shelf root os architecture).join ⟨name⟩) =
    .ok (place, .file content)

/-- A resource path is listed for such a file. -/
def ListedFor (root : Path) (files : FileTree) (wd : Location) (path os architecture : String)
    (name content : Bytes) : Prop :=
  Shelved root files wd os architecture name content ∧
    path = resourceAt os architecture (Utf8.decodeLossy name)

section Listed

variable {root : Path} {files : FileTree} {wd : Location} {path os architecture : String}
  {name content : Bytes}

theorem resourcePaths_eq (root : Path) (files : FileTree) (wd : Location) :
    (directory root).resourcePaths files wd =
      sorted (platformDirectories.flatMap fun pair =>
        (files.fileNames wd (shelf root pair.1 pair.2)).map fun name =>
          resourceAt pair.1 pair.2 (Utf8.decodeLossy name)) := by
  refine congrArg (fun listing => sorted (platformDirectories.flatMap listing)) (funext fun pair => ?_)
  unfold FileTree.fileNames shelf
  cases hlist : files.list wd ((root.join (.ofString pair.1)).join (.ofString pair.2)) with
  | error kind =>
      simp only [hlist, List.map_nil]
  | ok entries =>
      simp only [hlist, List.filter_map, List.map_map]
      rfl

/-- What is listed is listed for some file, and every file is listed. -/
theorem mem_resourcePaths_iff_listedFor :
    path ∈ (directory root).resourcePaths files wd ↔
      ∃ os architecture name content, ListedFor root files wd path os architecture name content := by
  rw [resourcePaths_eq, sorted, List.mem_mergeSort, List.mem_flatMap]
  constructor
  · rintro ⟨⟨os, architecture⟩, hpair, hpath⟩
    rcases List.mem_map.1 hpath with ⟨name, hname, rfl⟩
    rcases FileTree.mem_fileNames_iff.1 hname with ⟨hlies, place, content, hleads⟩
    exact ⟨os, architecture, name, content, ⟨hpair, hlies, place, hleads⟩, rfl⟩
  · rintro ⟨os, architecture, name, content, ⟨hpair, hlies, place, hleads⟩, rfl⟩
    exact ⟨(os, architecture), hpair,
      List.mem_map.2 ⟨name, FileTree.mem_fileNames_iff.2 ⟨hlies, place, content, hleads⟩, rfl⟩⟩

theorem shelf_ne_nil (hpair : (os, architecture) ∈ platformDirectories) :
    (shelf root os architecture).bytes ≠ [] := by
  have hnames := isName_of_mem_platformDirectories _ hpair
  rw [shelf, Path.ofString, Path.ofString, Path.bytes_join hnames.2.2.1]
  split <;> simp [hnames.2.1]

/-- A file that is found under a name is shelved there. -/
theorem shelved_of_find {place : Location} (hpair : (os, architecture) ∈ platformDirectories)
    (hname : Path.IsName name)
    (h : files.find wd ((shelf root os architecture).join ⟨name⟩) = .ok (place, .file content)) :
    Shelved root files wd os architecture name content := by
  rcases FileTree.exists_listed (shelf_ne_nil hpair) hname h with ⟨entries, hlist, hmem⟩
  rcases FileTree.list_eq_ok_iff.1 hlist with ⟨top, hfind, rfl⟩
  rcases FileTree.mem_map_fst_children_iff.1 hmem with ⟨node, hnode⟩
  exact ⟨hpair, ⟨top, node, hfind, hnode⟩, place, h⟩

theorem Shelved.isName (h : Shelved root files wd os architecture name content)
    (hfiles : files.WellFormed) : Path.IsName name := by
  rcases h.lies with ⟨top, node, _, hnode⟩
  exact (hfiles.isName hnode).1

/-- What a directory lists of its platform directories is what can be opened there. -/
theorem mem_resourcePaths_iff (root : Path) (files : FileTree) (wd : Location)
    (hpair : (os, architecture) ∈ platformDirectories) {file : String}
    (hfile : Path.IsName (Utf8.encode file)) (hread : '\uFFFD' ∉ file.toList) :
    resourceAt os architecture file ∈ (directory root).resourcePaths files wd ↔
      files.isFile wd (locate root (resourceAt os architecture file)) = true := by
  have hnames := isName_of_mem_platformDirectories _ hpair
  rw [mem_resourcePaths_iff_listedFor, locate_resourceAt root hnames.1 hnames.2 hfile,
    FileTree.isFile_iff]
  constructor
  -- It was listed of some directory under some name, which can only be this directory and this name.
  · rintro ⟨os', architecture', name, content, hshelved, hpath⟩
    have hnames' := isName_of_mem_platformDirectories _ hshelved.scanned
    rcases resourceAt_inj hnames.1.2.1 hnames.2.2.1 hfile.2.1 hnames'.1.2.1 hnames'.2.2.1 hpath.symm with
      ⟨rfl, rfl, hsame⟩
    rcases hshelved.leads with ⟨place, hleads⟩
    rw [Utf8.encode_of_decodeLossy hsame hread] at hleads
    exact ⟨place, content, hleads⟩
  · rintro ⟨place, content, hfind⟩
    refine ⟨os, architecture, Utf8.encode file, content, shelved_of_find hpair hfile hfind, ?_⟩
    rw [Utf8.decodeLossy_encode]

/-- What a bundle over a directory does not list of its platform directories, it does not open. -/
theorem openResource_eq_none_iff {root : Path} {files : FileTree} {wd : Location} {resource : String} :
    (directory root).openResource files wd resource = .ok none ↔
      files.isFile wd (locate root resource) = false := by
  unfold directory
  cases hisFile : files.isFile wd (locate root resource) with
  | true =>
      simp only [hisFile, if_true]
      split <;> simp
  | false =>
      simp [hisFile]

/-! ## What is listed, opened -/

theorem openResource_resourceAt_iff (hpair : (os, architecture) ∈ platformDirectories)
    (hname : Path.IsName name) :
    (directory root).openResource files wd (resourceAt os architecture (Utf8.decodeLossy name)) =
        .ok (some [.chunk content]) ↔
      Shelved root files wd os architecture (Utf8.encode (Utf8.decodeLossy name)) content := by
  have hnames := isName_of_mem_platformDirectories _ hpair
  have hread := isName_decodeLossy hname
  rw [openResource_eq_some_iff, locate_resourceAt root hnames.1 hnames.2 hread]
  constructor
  · rintro ⟨place, found, hfind, hsame⟩
    cases hsame
    exact shelved_of_find hpair hread hfind
  · intro hshelved
    rcases hshelved.leads with ⟨place, hleads⟩
    exact ⟨place, content, hleads, rfl⟩

/-- In a platform directory there is a plain file under a name. -/
def Stored (root : Path) (files : FileTree) (wd : Location) (os architecture : String)
    (name content : Bytes) : Prop :=
  (os, architecture) ∈ platformDirectories ∧
    ∃ top, files.find wd (shelf root os architecture) = .ok (top, .directory) ∧
      files.node? (top ++ [name]) = some (.file content)

theorem Stored.shelved (h : Stored root files wd os architecture name content)
    (hfiles : files.WellFormed)
    (hshort : ((shelf root os architecture).join ⟨name⟩).bytes.length < FileTree.pathLimit) :
    Shelved root files wd os architecture name content := by
  rcases h with ⟨hpair, top, hfind, hnode⟩
  rcases hfiles.isName hnode with ⟨hname, hzero, hlength⟩
  exact ⟨hpair, ⟨top, _, hfind, hnode⟩, _,
    FileTree.find_join hname hzero hlength hshort hfind hnode⟩

/-- To a file that is listed there is a path that can be looked up. -/
theorem Shelved.short (h : Shelved root files wd os architecture name content) :
    ((shelf root os architecture).join ⟨name⟩).bytes.length < FileTree.pathLimit := by
  rcases h.leads with ⟨place, hleads⟩
  have hresolve := (FileTree.find_eq_ok_iff.1 hleads).1
  unfold FileTree.resolve at hresolve
  split at hresolve
  · cases hresolve
  · rename_i hsound
    exact (FileTree.textFault?_eq_none_iff.1 hsound).2.2

/-- Every file of the platform directories is listed once, and what is listed for it opens it. -/
structure ListsOpenable (root : Path) (files : FileTree) (wd : Location) : Prop where
  sorted : ((directory root).resourcePaths files wd).Pairwise (· ≤ ·)
  distinct : ((directory root).resourcePaths files wd).Nodup
  /-- Each plain file has a path in the list. -/
  complete : ∀ os architecture name content, Stored root files wd os architecture name content →
    ∃ path ∈ (directory root).resourcePaths files wd,
      ListedFor root files wd path os architecture name content
  /-- No two files have the same path. -/
  single : ∀ path os architecture name content os' architecture' name' content',
    ListedFor root files wd path os architecture name content →
    ListedFor root files wd path os' architecture' name' content' →
    os' = os ∧ architecture' = architecture ∧ name' = name
  /-- A path in the list was listed for some file, and opens what it was listed for. -/
  opens : ∀ path ∈ (directory root).resourcePaths files wd,
    (∃ os architecture name content,
        ListedFor root files wd path os architecture name content) ∧
      ∀ os architecture name content,
        ListedFor root files wd path os architecture name content →
        (directory root).openResource files wd path = .ok (some [.chunk content])

/-- The names of the files in the platform directories are texts, and no path to one is too long. -/
structure Legible (root : Path) (files : FileTree) (wd : Location) : Prop where
  texts : ∀ os architecture name content, Shelved root files wd os architecture name content →
    ∃ text, name = Utf8.encode text
  short : ∀ os architecture name content, Stored root files wd os architecture name content →
    ((shelf root os architecture).join ⟨name⟩).bytes.length < FileTree.pathLimit

theorem pairwise_sorted (paths : List String) : (sorted paths).Pairwise (· ≤ ·) :=
  List.pairwise_mergeSort' (· ≤ ·) paths

theorem Legible.eq_of_listedFor (h : Legible root files wd) (hfiles : files.WellFormed)
    {os' architecture' : String} {name' content' : Bytes}
    (hlisted : ListedFor root files wd path os architecture name content)
    (hlisted' : ListedFor root files wd path os' architecture' name' content') :
    os' = os ∧ architecture' = architecture ∧ name' = name := by
  rcases hlisted with ⟨hshelved, rfl⟩
  rcases hlisted' with ⟨hshelved', hpath⟩
  rcases resourceAt_decodeLossy_inj hshelved'.scanned hshelved.scanned
    (hshelved'.isName hfiles).2.1 hpath with ⟨hos, harchitecture, hread⟩
  exact ⟨hos.symm, harchitecture.symm,
    (eq_of_decodeLossy (h.texts _ _ _ _ hshelved) (h.texts _ _ _ _ hshelved') hread).symm⟩

theorem Legible.nodup_resourcePaths (h : Legible root files wd) (hfiles : files.WellFormed) :
    ((directory root).resourcePaths files wd).Nodup := by
  -- A name of a directory's list is the name of a listed file.
  have hlisted : ∀ os architecture name, (os, architecture) ∈ platformDirectories →
      name ∈ files.fileNames wd (shelf root os architecture) →
      ∃ content, ListedFor root files wd (resourceAt os architecture (Utf8.decodeLossy name)) os
        architecture name content := by
    intro os architecture name hpair hname
    rcases FileTree.mem_fileNames_iff.1 hname with ⟨hlies, place, content, hleads⟩
    exact ⟨content, ⟨hpair, hlies, place, hleads⟩, rfl⟩
  rw [resourcePaths_eq, Bundle.sorted, (List.mergeSort_perm _ _).nodup_iff, List.nodup_flatMap]
  constructor
  · rintro ⟨os, architecture⟩ hpair
    refine (hfiles.nodup_fileNames wd _).map_on fun name hname name' hname' hsame => ?_
    rcases hlisted os architecture name hpair hname with ⟨content, hfirst⟩
    rcases hlisted os architecture name' hpair hname' with ⟨content', hsecond⟩
    rw [← hsame] at hsecond
    exact (h.eq_of_listedFor hfiles hsecond hfirst).2.2
  · refine (by decide : platformDirectories.Nodup).pairwise_of_forall_ne ?_
    rintro ⟨os, architecture⟩ hpair ⟨os', architecture'⟩ hpair' hne path hpath hpath'
    rcases List.mem_map.1 hpath with ⟨name, hname, rfl⟩
    rcases List.mem_map.1 hpath' with ⟨name', hname', hsame⟩
    rcases hlisted os architecture name hpair hname with ⟨content, hfirst⟩
    rcases hlisted os' architecture' name' hpair' hname' with ⟨content', hsecond⟩
    simp only at hsame
    rw [hsame] at hsecond
    rcases h.eq_of_listedFor hfiles hfirst hsecond with ⟨rfl, rfl, _⟩
    exact hne rfl

/-- A name that is no text is listed as what opens another file or none. -/
theorem ListsOpenable.texts (h : ListsOpenable root files wd) (hfiles : files.WellFormed)
    (hshelved : Shelved root files wd os architecture name content) :
    ∃ text, name = Utf8.encode text := by
  have hlisted : ListedFor root files wd (resourceAt os architecture (Utf8.decodeLossy name)) os
      architecture name content := ⟨hshelved, rfl⟩
  have hopens := (h.opens _ (mem_resourcePaths_iff_listedFor.2 ⟨_, _, _, _, hlisted⟩)).2 _ _ _ _
    hlisted
  rw [openResource_resourceAt_iff hshelved.scanned (hshelved.isName hfiles)] at hopens
  -- The file that is opened is listed under the same path, so it is the same file.
  have hsame := h.single _ _ _ _ _ _ _ _ _ hlisted ⟨hopens, by rw [Utf8.decodeLossy_encode]⟩
  exact ⟨_, hsame.2.2.symm⟩

/-- What a bundle lists it opens if names are texts and paths are not too long, and only then. -/
theorem listsOpenable_iff (hfiles : files.WellFormed) :
    ListsOpenable root files wd ↔ Legible root files wd := by
  constructor
  · intro h
    refine ⟨fun _ _ _ _ hshelved => h.texts hfiles hshelved, fun _ _ _ _ hstored => ?_⟩
    rcases h.complete _ _ _ _ hstored with ⟨path, _, hshelved, _⟩
    exact hshelved.short
  · intro h
    refine ⟨?_, h.nodup_resourcePaths hfiles, fun os architecture name content hstored => ?_,
      fun _ _ _ _ _ _ _ _ _ hlisted hlisted' => h.eq_of_listedFor hfiles hlisted hlisted',
      fun path hpath => ⟨mem_resourcePaths_iff_listedFor.1 hpath, ?_⟩⟩
    · rw [resourcePaths_eq]
      exact pairwise_sorted _
    · have hshelved := hstored.shelved hfiles (h.short _ _ _ _ hstored)
      exact ⟨_, mem_resourcePaths_iff_listedFor.2 ⟨_, _, _, _, hshelved, rfl⟩, hshelved, rfl⟩
    · rintro os architecture name content ⟨hshelved, rfl⟩
      rw [openResource_resourceAt_iff hshelved.scanned (hshelved.isName hfiles),
        Utf8.encode_decodeLossy_eq_iff.2 (h.texts _ _ _ _ hshelved)]
      exact hshelved

theorem length_join_le (path : Path) (hslash : Path.slash ∉ name) :
    (path.join ⟨name⟩).bytes.length ≤ path.bytes.length + name.length + 1 := by
  rw [Path.bytes_join hslash]
  split <;> simp only [List.length_append, List.length_cons] <;> omega

theorem length_of_mem_platformDirectories : ∀ pair ∈ platformDirectories,
    (Utf8.encode pair.1).length + (Utf8.encode pair.2).length ≤ 14 := by
  decide

/-- Where all names are texts every bundle is legible, if its directory's path leaves room for names. -/
theorem legible_of_texts (hfiles : files.WellFormed)
    (htexts : ∀ location ∈ files.nodes.map Prod.fst, ∀ name ∈ location, ∃ text, name = Utf8.encode text)
    (hroot : root.bytes.length + 17 + FileTree.maxNameLength < FileTree.pathLimit) :
    Legible root files wd where
  texts os architecture name content hshelved := by
    rcases hshelved.lies with ⟨top, node, _, hnode⟩
    exact htexts _ ((FileTree.exists_node?_iff (by simp)).1 ⟨node, hnode⟩) name (by simp)
  short os architecture name content hstored := by
    rcases hstored with ⟨hpair, top, _, hnode⟩
    rcases hfiles.isName hnode with ⟨hname, _, hlength⟩
    have hnames := isName_of_mem_platformDirectories _ hpair
    have hsystem := length_join_le root hnames.1.2.1
    have hshelf := length_join_le (root.join (.ofString os)) hnames.2.2.1
    have hfile := length_join_le (shelf root os architecture) hname.2.1
    have hpairs := length_of_mem_platformDirectories _ hpair
    simp only [shelf, Path.ofString] at hsystem hshelf hfile hpairs ⊢
    omega

end Listed

/-- A bundle with a library, another name for it that is no ASCII, a second platform for which the same
directory serves, and a directory among the files. -/
def lettered : FileTree :=
  ⟨[([Utf8.encode "linux"], .directory), ([Utf8.encode "linux", Utf8.encode "x86_64"], .directory),
    ([Utf8.encode "linux", Utf8.encode "aarch64"], .link (Utf8.encode "x86_64")),
    ([Utf8.encode "linux", Utf8.encode "x86_64", Utf8.encode "libpico_limbo.so"], .file [0x7F]),
    ([Utf8.encode "linux", Utf8.encode "x86_64", Utf8.encode "é"],
      .link (Utf8.encode "libpico_limbo.so")),
    ([Utf8.encode "linux", Utf8.encode "x86_64", Utf8.encode "more"], .directory)]⟩

theorem listsOpenable_lettered :
    lettered.WellFormed ∧ Legible (.ofString "/") lettered [] ∧
      ListsOpenable (.ofString "/") lettered [] := by
  have hfiles : lettered.WellFormed := ⟨by decide, by decide⟩
  have hread : ∀ location ∈ lettered.nodes.map Prod.fst, ∀ name ∈ location,
      (Utf8.decode? name).isSome = true := by decide
  have hlegible : Legible (.ofString "/") lettered [] := by
    refine legible_of_texts hfiles (fun location hlocation name hname => ?_) (by decide)
    rcases Option.isSome_iff_exists.1 (hread location hlocation name hname) with ⟨text, htext⟩
    exact ⟨text, Utf8.decode?_eq_some_iff.1 htext⟩
  exact ⟨hfiles, hlegible, (listsOpenable_iff hfiles).2 hlegible⟩

/-- A bundle with a file whose name is no text. -/
def unlettered : FileTree :=
  ⟨[([Utf8.encode "linux"], .directory), ([Utf8.encode "linux", Utf8.encode "x86_64"], .directory),
    ([Utf8.encode "linux", Utf8.encode "x86_64", [0xFF]], .file [0x7F])]⟩

/-- The file is listed, and the path that is listed for it opens nothing. -/
theorem not_listsOpenable_unlettered :
    unlettered.WellFormed ∧
      (directory (.ofString "/")).resourcePaths unlettered [] = ["/linux/x86_64/\uFFFD"] ∧
      (directory (.ofString "/")).openResource unlettered [] "/linux/x86_64/\uFFFD" = .ok none ∧
      ¬ListsOpenable (.ofString "/") unlettered [] := by
  have hlisted : (directory (.ofString "/")).resourcePaths unlettered [] =
      ["/linux/x86_64/\uFFFD"] := by cbv
  have hopened : (directory (.ofString "/")).openResource unlettered []
      "/linux/x86_64/\uFFFD" = .ok none := by cbv
  refine ⟨⟨by decide, by decide⟩, hlisted, hopened, fun h => ?_⟩
  rcases h.opens "/linux/x86_64/\uFFFD" (by rw [hlisted]; exact List.mem_singleton.2 rfl) with
    ⟨⟨os, architecture, name, content, hfor⟩, hopens⟩
  have hsome := hopens os architecture name content hfor
  rw [hopened] at hsome
  cases hsome

end Bundle
end NativeLaunch
