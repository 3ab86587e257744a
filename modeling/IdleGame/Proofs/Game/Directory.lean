import IdleGame.Game.Draft
import IdleGame.Proofs.FileTree.Proper
import Mathlib.Data.List.Lex
import Mathlib.Data.String.Basic

/-!
# Loading a directory

The fragments in a directory are added file by file, the entries of each directory in the order of
their names, those of a directory before the next entry. This is the order of the paths of all
files, compared name by name, so what is loaded depends on the paths and contents of the files only.

## Main definitions

* `FileTree.filesInOrder` - the files of a tree by their paths, in ascending order
* `Draft.loadEach` - adds the fragments in files one after the other, up to the first error
* `Draft.IsFragment` - a file below a directory that holds a fragment

## Main results

* `FileTree.Proper.ascending_filesInOrder`, `FileTree.Proper.mem_filesInOrder` - all files are
  listed, in the order of their paths
* `Draft.fragmentFiles_eq` - the files that are loaded are those of them that hold fragments
* `Draft.loads_in_path_order` - loading a directory is loading its files in the order of their paths
-/

namespace IdleGame

namespace Draft

variable {α β : Type} {e : String × α} {es : List (String × α)}

theorem perm_insertEntry : (insertEntry e es).Perm (e :: es) := by
  induction es with
  | nil => exact .refl _
  | cons f fs ih =>
    rw [insertEntry]
    split
    · exact .refl _
    · exact (ih.cons f).trans (.swap e f fs)

/-- An entry with a new name is put where the names still ascend. -/
theorem ascending_insertEntry (h : es.Pairwise fun a b => a.1 < b.1) (hnew : ∀ f ∈ es, e.1 ≠ f.1) :
    (insertEntry e es).Pairwise fun a b => a.1 < b.1 := by
  induction es with
  | nil => exact List.pairwise_singleton _ _
  | cons f fs ih =>
    rw [List.pairwise_cons] at h
    rw [List.forall_mem_cons] at hnew
    rw [insertEntry]
    split
    · rename_i hle
      have hlt : e.1 < f.1 := lt_of_le_of_ne hle hnew.1
      refine List.pairwise_cons.mpr ⟨List.forall_mem_cons.mpr ⟨hlt, ?_⟩, List.pairwise_cons.mpr h⟩
      exact fun g hg => hlt.trans (h.1 g hg)
    · rename_i hle
      refine List.pairwise_cons.mpr ⟨fun g hg => ?_, ih h.2 hnew.2⟩
      rcases List.mem_cons.mp (perm_insertEntry.mem_iff.mp hg) with rfl | hg
      · exact lt_of_not_ge hle
      · exact h.1 g hg

theorem map_insertEntry (f : α → β) :
    (insertEntry e es).map (Prod.map id f) =
      insertEntry (Prod.map id f e) (es.map (Prod.map id f)) := by
  induction es with
  | nil => rfl
  | cons g gs ih =>
    by_cases hle : e.1 ≤ g.1
    · simp [insertEntry, hle]
    · simp [insertEntry, hle, ih]

end Draft

namespace FileTree

mutual

/-- The files of a tree by their paths, in ascending order. -/
def filesInOrder : FileTree → List (List String × ByteArray)
  | file content => [([], content)]
  | directory entries => (entriesInOrder entries).flatMap Prod.snd

/-- The files of each entry of a directory, in the order of the names. -/
def entriesInOrder : List (String × FileTree) → List (String × List (List String × ByteArray))
  | [] => []
  | (name, t) :: entries =>
    Draft.insertEntry (name, (filesInOrder t).map (Prod.map (name :: ·) id))
      (entriesInOrder entries)

end

variable {path : List String} {name : String} {t : FileTree} {content : ByteArray}
  {entries : List (String × FileTree)}

theorem perm_entriesInOrder :
    (entriesInOrder entries).Perm
      (entries.map fun e => (e.1, e.2.filesInOrder.map (Prod.map (e.1 :: ·) id))) := by
  induction entries with
  | nil => exact .refl _
  | cons e entries ih =>
    rw [entriesInOrder, List.map_cons]
    exact Draft.perm_insertEntry.trans (ih.cons _)

theorem ascending_entriesInOrder (h : (entries.map Prod.fst).Nodup) :
    (entriesInOrder entries).Pairwise fun a b => a.1 < b.1 := by
  induction entries with
  | nil => exact List.Pairwise.nil
  | cons e entries ih =>
    rw [List.map_cons, List.nodup_cons] at h
    rw [entriesInOrder]
    refine Draft.ascending_insertEntry (ih h.2) fun f hf hname => h.1 ?_
    obtain ⟨e', he', rfl⟩ := List.mem_map.mp (perm_entriesInOrder.mem_iff.mp hf)
    exact List.mem_map.mpr ⟨e', he', hname.symm⟩

theorem mem_filesInOrder_directory :
    (path, content) ∈ (directory entries).filesInOrder ↔
      ∃ name t rest, (name, t) ∈ entries ∧ (rest, content) ∈ t.filesInOrder ∧
        path = name :: rest := by
  rw [filesInOrder, List.mem_flatMap]
  constructor
  · rintro ⟨group, hgroup, hfile⟩
    obtain ⟨⟨name, t⟩, he, rfl⟩ := List.mem_map.mp (perm_entriesInOrder.mem_iff.mp hgroup)
    obtain ⟨⟨rest, content'⟩, hrest, heq⟩ := List.mem_map.mp hfile
    obtain ⟨rfl, rfl⟩ := Prod.mk.inj heq
    exact ⟨name, t, rest, he, hrest, rfl⟩
  · rintro ⟨name, t, rest, he, hrest, rfl⟩
    exact ⟨_, perm_entriesInOrder.mem_iff.mpr (List.mem_map_of_mem he),
      List.mem_map.mpr ⟨(rest, content), hrest, rfl⟩⟩

/-- All files are listed with their contents. -/
theorem Proper.mem_filesInOrder (h : Proper t) :
    (path, content) ∈ t.filesInOrder ↔ t.look path = .ok (some content) := by
  induction h generalizing path with
  | ofFile content => cases path <;> simp [filesInOrder, eq_comm]
  | @ofEntries entries hnames hshort hentries ih =>
    have hproper : Proper (directory entries) := .ofEntries hnames hshort hentries
    rw [mem_filesInOrder_directory]
    rcases path with _ | ⟨name, rest⟩
    · simp
    constructor
    · rintro ⟨name, t, rest, he, hrest, heq⟩
      obtain ⟨rfl, rfl⟩ := List.cons.inj heq
      rw [look_of_get? (hshort _ he) (hproper.mem_iff_get?.mp he)]
      exact (ih _ he).mp hrest
    · intro hlook
      rw [look_cons_directory] at hlook
      split at hlook
      · rcases hget : Entries.get? name entries with _ | u <;> rw [hget] at hlook
        · cases hlook
        · have he := Entries.mem_of_get? hget
          exact ⟨name, u, rest, he, (ih _ he).mpr hlook, rfl⟩
      · cases hlook

/-- The files are listed in the order of their paths. -/
theorem Proper.ascending_filesInOrder (h : Proper t) :
    t.filesInOrder.Pairwise fun a b => a.1 < b.1 := by
  induction h with
  | ofFile content => exact List.pairwise_singleton _ _
  | @ofEntries entries hnames hshort hentries ih =>
    have hgroup {group : String × List (List String × ByteArray)}
        (hmem : group ∈ entriesInOrder entries) :
        ∃ e ∈ entries, (e.1, e.2.filesInOrder.map (Prod.map (e.1 :: ·) id)) = group :=
      List.mem_map.mp (perm_entriesInOrder.mem_iff.mp hmem)
    rw [filesInOrder, List.pairwise_flatMap]
    refine ⟨fun group hmem => ?_, (ascending_entriesInOrder hnames).imp_of_mem ?_⟩
    · obtain ⟨e, he, rfl⟩ := hgroup hmem
      exact List.pairwise_map.mpr ((ih e he).imp List.cons_lt_cons_self.mpr)
    -- Files of two entries are compared by the names of the entries.
    · intro group group' hmem hmem' hlt file hfile file' hfile'
      obtain ⟨e, he, rfl⟩ := hgroup hmem
      obtain ⟨e', he', rfl⟩ := hgroup hmem'
      obtain ⟨⟨rest, content⟩, -, rfl⟩ := List.mem_map.mp hfile
      obtain ⟨⟨rest', content'⟩, -, rfl⟩ := List.mem_map.mp hfile'
      exact List.cons_lt_cons_iff.mpr (.inl hlt)

end FileTree

namespace Draft

variable {name : String} {files files' : FileTree} {dir path : List String}
  {paths paths' : List (List String)} {d : Draft} {entries : List (String × FileTree)}

/-- The name and the content of a file below an entry of a directory, if it holds a fragment. A path
without names is that of the entry itself. -/
def fragmentOf? (name : String) (file : List String × ByteArray) : Option (String × ByteArray) :=
  if isFragmentName (file.1.getLast?.getD name) then some (file.1.getLast?.getD name, file.2)
  else none

theorem fragmentOf?_map (name' : String) :
    fragmentOf? name' ∘ Prod.map (name :: ·) id = fragmentOf? name := by
  funext file
  simp [fragmentOf?, List.getLast?_cons]

mutual

/-- The files that are loaded are those that hold fragments, in the order of their paths. -/
theorem fragmentFiles_eq (name : String) :
    (t : FileTree) → fragmentFiles name t = t.filesInOrder.filterMap (fragmentOf? name)
  | .file content => by
    rw [fragmentFiles, FileTree.filesInOrder, List.filterMap_cons, List.filterMap_nil, fragmentOf?]
    split <;> simp_all
  | .directory entries => by
    rw [fragmentFiles, FileTree.filesInOrder, sortedFragments_eq name entries,
      List.filterMap_flatMap, List.flatMap_map]
    rfl

theorem sortedFragments_eq (name : String) :
    (entries : List (String × FileTree)) → sortedFragments entries =
      (FileTree.entriesInOrder entries).map (Prod.map id (List.filterMap (fragmentOf? name)))
  | [] => rfl
  | (name', t) :: entries => by
    rw [sortedFragments, FileTree.entriesInOrder, map_insertEntry, Prod.map_apply, id_eq,
      List.filterMap_map, fragmentOf?_map, fragmentFiles_eq name' t,
      sortedFragments_eq name entries]

end

/-- Adds the fragments in files one after the other, up to the first error. -/
def loadEach (files : FileTree) : List (List String) → Draft → Except AssemblyError Unit × Draft
  | [], d => (.ok (), d)
  | path :: paths, d =>
    match loadFile files path d with
    | (.ok (), d) => loadEach files paths d
    | (.error e, d) => (.error e, d)

/-- Whether a path ends with the name of a file that holds a fragment. -/
def hasFragmentName (path : List String) : Bool := isFragmentName (path.getLast?.getD "")

/-- A file below a directory that holds a fragment. -/
def IsFragment (files : FileTree) (dir path : List String) : Prop :=
  dir <+: path ∧ (∃ content, files.readFile path = .ok content) ∧ hasFragmentName path

/-- Adding the fragments among files is adding each of them by its path. -/
theorem loadFiles_fragments {listed : List (List String × ByteArray)}
    (h : ∀ file ∈ listed, file.1 ≠ [] ∧ files.readFile (dir ++ file.1) = .ok file.2) :
    loadFiles (listed.filterMap (fragmentOf? "")) d =
      loadEach files ((listed.filter fun file => hasFragmentName file.1).map (dir ++ ·.1)) d := by
  induction listed generalizing d with
  | nil => rfl
  | cons file listed ih =>
    rw [List.forall_mem_cons] at h
    obtain ⟨⟨hpath, hread⟩, h⟩ := h
    rw [List.filterMap_cons, List.filter_cons, fragmentOf?, hasFragmentName]
    by_cases hname : isFragmentName (file.1.getLast?.getD "")
    · rw [if_pos hname, if_pos hname, List.map_cons, loadFiles, loadEach, loadFile, hread,
        List.getLast?_append_of_ne_nil dir hpath]
      dsimp only
      rcases d.loadContent (file.1.getLast?.getD "") file.2 with ⟨e | _, d'⟩
      · rfl
      · exact ih h
    · rw [if_neg hname, if_neg hname]
      exact ih h

/-- The paths of the fragments below a directory with these entries, in ascending order. -/
def fragmentPaths (dir : List String) (entries : List (String × FileTree)) : List (List String) :=
  ((FileTree.directory entries).filesInOrder.filter fun file => hasFragmentName file.1).map
    (dir ++ ·.1)

section Directory

variable (hvalid : files.Valid) (hdir : files.entriesAt? dir = some entries)

include hdir

theorem look_append_directory (rest : List String) :
    files.look (dir ++ rest) = (FileTree.directory entries).look rest := by
  obtain ⟨-, hfollow⟩ := FileTree.entriesAt?_eq_some_iff.mp hdir
  rw [FileTree.look_append, hfollow, Outcome.ok_bind]

include hvalid

theorem proper_directory : (FileTree.directory entries).Proper := by
  obtain ⟨-, hfollow⟩ := FileTree.entriesAt?_eq_some_iff.mp hdir
  exact hvalid.proper.follow hfollow

/-- The files that are listed are those below the directory. -/
theorem mem_filesInOrder_iff {rest : List String} {content : ByteArray} :
    (rest, content) ∈ (FileTree.directory entries).filesInOrder ↔
      rest ≠ [] ∧ files.readFile (dir ++ rest) = .ok content := by
  rw [(proper_directory hvalid hdir).mem_filesInOrder, hvalid.readFile_iff,
    look_append_directory hdir]
  refine (and_iff_right_of_imp ?_).symm
  rintro hlook rfl
  cases hlook

theorem ascending_fragmentPaths : (fragmentPaths dir entries).Pairwise (· < ·) := by
  have hfiles := (proper_directory hvalid hdir).ascending_filesInOrder.filter
    fun file => hasFragmentName file.1
  exact List.pairwise_map.mpr (hfiles.imp List.append_left_lt)

theorem mem_fragmentPaths : path ∈ fragmentPaths dir entries ↔ IsFragment files dir path := by
  have hname {rest : List String} (hrest : rest ≠ []) :
      hasFragmentName (dir ++ rest) = hasFragmentName rest := by
    rw [hasFragmentName, List.getLast?_append_of_ne_nil dir hrest]
    rfl
  rw [fragmentPaths, List.mem_map]
  constructor
  · rintro ⟨⟨rest, content⟩, hfile, rfl⟩
    obtain ⟨hlisted, hfragment⟩ := List.mem_filter.mp hfile
    obtain ⟨hrest, hread⟩ := (mem_filesInOrder_iff hvalid hdir).mp hlisted
    exact ⟨List.prefix_append _ _, ⟨content, hread⟩, (hname hrest).trans hfragment⟩
  · rintro ⟨⟨rest, rfl⟩, ⟨content, hread⟩, hfragment⟩
    have hrest : rest ≠ [] := by
      rintro rfl
      rw [hvalid.readFile_iff, look_append_directory hdir] at hread
      cases hread
    refine ⟨(rest, content), List.mem_filter.mpr ⟨?_, (hname hrest).symm.trans hfragment⟩, rfl⟩
    exact (mem_filesInOrder_iff hvalid hdir).mpr ⟨hrest, hread⟩

theorem loadDirectory_eq :
    loadDirectory files dir d = loadEach files (fragmentPaths dir entries) d := by
  rw [loadDirectory, hdir]
  dsimp only
  rw [fragmentFiles_eq]
  exact loadFiles_fragments fun file hfile => (mem_filesInOrder_iff hvalid hdir).mp hfile

end Directory

/-- Files that are read alike are loaded alike. -/
theorem loadEach_congr (h : ∀ path, files'.readFile path = files.readFile path) :
    loadEach files' paths d = loadEach files paths d := by
  induction paths generalizing d with
  | nil => rfl
  | cons path paths ih =>
    rw [loadEach, loadEach, loadFile, loadFile, h]
    simp only [ih]

/-- Ascending lists of the same paths are equal. -/
theorem eq_of_ascending (h : paths.Pairwise (· < ·)) (h' : paths'.Pairwise (· < ·))
    (hmem : ∀ path, path ∈ paths ↔ path ∈ paths') : paths = paths' :=
  ((List.perm_ext_iff_of_nodup (h.imp ne_of_lt) (h'.imp ne_of_lt)).mpr hmem).eq_of_pairwise
    (fun _ _ _ _ hlt hlt' => absurd hlt' (lt_asymm hlt)) h h'

/-- Loading a directory adds the files below it that hold fragments, by their extension, one after
the other in the order of their full paths and up to the first error: each of them once, and no
other files. In which order the entries of the directories are listed does not matter. -/
theorem loads_in_path_order (hvalid : files.Valid) (hdir : files.entriesAt? dir = some entries)
    (d : Draft) :
    (∃ paths : List (List String), paths.Pairwise (· < ·) ∧
      (∀ path, path ∈ paths ↔ IsFragment files dir path) ∧
      loadDirectory files dir d = loadEach files paths d) ∧
    ∀ files' : FileTree, files'.Valid → (∀ path, files'.look path = files.look path) →
      loadDirectory files' dir d = loadDirectory files dir d := by
  refine ⟨⟨fragmentPaths dir entries, ascending_fragmentPaths hvalid hdir,
    fun _ => mem_fragmentPaths hvalid hdir, loadDirectory_eq hvalid hdir⟩, ?_⟩
  intro files' hvalid' hlook
  have hread (path : List String) : files'.readFile path = files.readFile path :=
    FileTree.readFile_congr (hlook path)
  obtain ⟨entries', hdir'⟩ : ∃ entries', files'.entriesAt? dir = some entries' := by
    obtain ⟨hcheck, hfollow⟩ := FileTree.entriesAt?_eq_some_iff.mp hdir
    have hdirectory : files'.look dir = .ok none := by
      rw [hlook, FileTree.look, hfollow]
      rfl
    obtain ⟨entries', hfollow'⟩ := FileTree.follow_of_look hdirectory
    exact ⟨entries', FileTree.entriesAt?_eq_some_iff.mpr ⟨hcheck, hfollow'⟩⟩
  have hpaths : fragmentPaths dir entries' = fragmentPaths dir entries := by
    refine eq_of_ascending (ascending_fragmentPaths hvalid' hdir')
      (ascending_fragmentPaths hvalid hdir) fun path => ?_
    rw [mem_fragmentPaths hvalid' hdir', mem_fragmentPaths hvalid hdir]
    simp only [IsFragment, hread]
  rw [loadDirectory_eq hvalid' hdir', loadDirectory_eq hvalid hdir, hpaths, loadEach_congr hread]

/-- A directory beside files whose names begin like its own, listed in no order. -/
def scattered : List (String × FileTree) :=
  [("a.ron", .file ⟨#[40, 41]⟩), ("notes.txt", .file .empty),
    ("a", .directory [("z.ron", .file ⟨#[40, 41]⟩)]), ("a.json", .file ⟨#[123, 125]⟩)]

theorem valid_scattered : (FileTree.directory scattered).Valid := by
  have hron : FileTree.empty.place ["a.ron"] ⟨#[40, 41]⟩ =
    .ok (.directory (scattered.take 1)) := rfl
  have hnotes : (FileTree.directory (scattered.take 1)).place ["notes.txt"] .empty =
    .ok (.directory (scattered.take 2)) := rfl
  have hbelow : (FileTree.directory (scattered.take 2)).place ["a", "z.ron"] ⟨#[40, 41]⟩ =
    .ok (.directory (scattered.take 3)) := rfl
  have hjson : (FileTree.directory (scattered.take 3)).place ["a.json"] ⟨#[123, 125]⟩ =
    .ok (.directory scattered) := rfl
  exact (((FileTree.valid_empty.place hron).place hnotes).place hbelow).place hjson

/-- The directory comes before the files, and these are ordered by what follows the point. The same
is loaded when the entries are listed the other way round. -/
theorem scattered_loads_in_path_order :
    (FileTree.directory scattered).Valid ∧
      (FileTree.directory scattered).entriesAt? [] = some scattered ∧
      loadDirectory (.directory scattered) [] empty =
        loadEach (.directory scattered) [["a", "z.ron"], ["a.json"], ["a.ron"]] empty ∧
      loadDirectory (.directory scattered.reverse) [] empty =
        loadDirectory (.directory scattered) [] empty := by
  have hvalid := valid_scattered
  have hdir : (FileTree.directory scattered).entriesAt? [] = some scattered := rfl
  obtain ⟨⟨paths, hascending, hmem, hload⟩, hsame⟩ := loads_in_path_order hvalid hdir empty
  have hfragments : fragmentPaths [] scattered = [["a", "z.ron"], ["a.json"], ["a.ron"]] := by
    decide +kernel
  have hpaths : paths = [["a", "z.ron"], ["a.json"], ["a.ron"]] := by
    rw [← hfragments]
    refine eq_of_ascending hascending (ascending_fragmentPaths hvalid hdir) fun path => ?_
    rw [hmem, mem_fragmentPaths hvalid hdir]
  have hreverse : (FileTree.directory scattered.reverse).Valid :=
    hvalid.of_perm (List.reverse_perm _)
  refine ⟨hvalid, hdir, hpaths ▸ hload, hsame _ hreverse fun path => ?_⟩
  exact hvalid.proper.look_of_perm (List.reverse_perm _)

end Draft

end IdleGame
