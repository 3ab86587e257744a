import IdleGame.Proofs.FileTree
import IdleGame.Store.Files

/-!
# Stores in files

The file of a key is found in a directory, both named by the pieces of the key. Different keys have
different files, and the other name that a file is written under is not the one of any file of a
key. What a store answers depends on what stands at these two paths.

## Main definitions

* `FileStore.Filed` - the directory and the name that a key is filed under

## Main results

* `FileStore.Filed.key_eq` - a key is known by its directory and its name
* `FileStore.draftName_ne_fileName` - no file of a key has the other name of one
* `FileStore.write_ok_iff` - writing is a success when each of its steps is
-/

namespace IdleGame

namespace FilePath

theorem segments_ne_nil (cs : List Char) : segments cs ≠ [] := by
  induction cs with
  | nil => simp [segments]
  | cons c cs ih =>
    rw [segments]
    split
    · exact List.cons_ne_nil _ _
    · split <;> exact List.cons_ne_nil _ _

/-- The pieces with slashes between them are the text. -/
theorem intercalate_segments (cs : List Char) : ['/'].intercalate (segments cs) = cs := by
  induction cs with
  | nil => simp [segments]
  | cons c cs ih =>
    rw [segments]
    obtain ⟨s, rest, hrest⟩ := List.exists_cons_of_ne_nil (segments_ne_nil cs)
    rw [hrest] at ih ⊢
    split
    · subst c
      rw [List.intercalate_cons_cons, ih]
      rfl
    · cases rest with
      | nil => simpa using ih
      | cons s' rest =>
        rw [List.intercalate_cons_cons] at ih ⊢
        rw [← ih]
        simp

/-! ### The size of a path -/

variable {path : List String} {name ending : String}

theorem check_eq_ok_iff : check path = .ok () ↔ isClean path ∧ size path ≤ maxSize := by
  unfold check
  grind

/-- The bytes of a path: a slash comes between a directory and a name in it. -/
theorem size_concat :
    size (path ++ [name]) = (if path = [] then 0 else size path + 1) + name.utf8ByteSize := by
  unfold size
  split
  · subst path
    simp
  · rename_i hpath
    rw [String.intercalate_append_of_ne_nil hpath (List.cons_ne_nil _ _),
      String.utf8ByteSize_append, String.utf8ByteSize_append, String.intercalate_singleton]
    rfl

/-- A path with a shorter last name is accepted as well, and so is the directory. -/
theorem check_of_concat_append (h : check (path ++ [name ++ ending]) = .ok ()) :
    check (path ++ [name]) = .ok () ∧ check path = .ok () := by
  rw [check_eq_ok_iff, size_concat, String.utf8ByteSize_append] at h
  rw [check_eq_ok_iff, check_eq_ok_iff, size_concat]
  obtain ⟨hclean, hsize⟩ := h
  have hpath : isClean (path ++ [name]) := by
    simp only [isClean, List.all_append, List.all_cons, List.all_nil,
      String.toList_append] at hclean ⊢
    grind
  refine ⟨⟨hpath, by omega⟩, ?_, ?_⟩
  · simp only [isClean, List.all_append] at hpath ⊢
    grind
  · by_cases hnil : path = []
    · subst path
      decide
    · rw [if_neg hnil] at hsize
      omega

theorem isShort_of_append (h : isShort (name ++ ending)) : isShort name := by
  unfold isShort at h ⊢
  rw [String.utf8ByteSize_append] at h
  grind

end FilePath

namespace FileStore

open FilePath (isShort)

/-- The name of the file of a slot. -/
def fileName (name : String) : String := name ++ "." ++ slotExtension

/-- The name that a file of a slot is written under before it gets its own. -/
def draftName (name : String) : String := name ++ "." ++ (slotExtension ++ ".tmp")

/-- A key is filed in a directory under a name. -/
def Filed (key : String) (parent : List String) (name : String) : Prop :=
  ∃ before last, pieces? key = some (before ++ [last]) ∧ parent = before.map String.ofList ∧
    name = String.ofList last

variable {key key' name name' : String} {parent parent' path draft : List String}

/-! ### The names of files -/

theorem fileName_injective (h : fileName name = fileName name') : name = name' := by
  simpa [fileName, String.append_left_inj] using h

theorem draftName_eq (name : String) : draftName name = fileName name ++ ".tmp" := by
  simp [draftName, fileName, String.append_assoc]

/-- No file of a key has the other name of one. -/
theorem draftName_ne_fileName : draftName name ≠ fileName name' := by
  intro h
  have hlast := congrArg (fun s => s.toList.getLast?) h
  simp [draftName, fileName, slotExtension] at hlast

/-- No file of a key stands where another is written before it gets its name. -/
theorem append_draftName_ne : parent ++ [draftName name] ≠ parent' ++ [fileName name'] :=
  fun h => draftName_ne_fileName (List.singleton_inj.mp (List.append_inj' h rfl).2)

theorem draft_not_prefix : ¬ parent ++ [draftName name] <+: parent ++ [fileName name'] :=
  fun h => append_draftName_ne (h.eq_of_length (by simp))

/-- A directory lies above what is in it. -/
theorem not_concat_prefix : ¬ parent ++ [name] <+: parent := by
  intro h
  have hlength := h.length_le
  rw [List.length_append, List.length_singleton] at hlength
  omega

/-! ### The files of keys -/

theorem pieces?_eq_some_iff {pieces : List (List Char)} :
    pieces? key = some pieces ↔ FilePath.segments key.toList = pieces ∧ pieces.all isSegment := by
  unfold pieces?
  dsimp only
  grind

theorem withExtension_append (ending : String) (before : List (List Char)) (last : List Char) :
    withExtension ending (before ++ [last]) =
      before.map String.ofList ++ [String.ofList last ++ "." ++ ending] := by
  induction before with
  | nil => rfl
  | cons s before ih =>
    rw [List.cons_append, withExtension, ih]
    · rfl
    · exact fun hnil => nomatch (List.append_eq_nil_iff.mp hnil).2

theorem Filed.path? (h : Filed key parent name) :
    path? key = some (parent ++ [fileName name]) := by
  obtain ⟨before, last, hpieces, rfl, rfl⟩ := h
  rw [FileStore.path?, hpieces, Option.map_some, withExtension_append]
  rfl

theorem Filed.draftPath? (h : Filed key parent name) :
    draftPath? key = some (parent ++ [draftName name]) := by
  obtain ⟨before, last, hpieces, rfl, rfl⟩ := h
  rw [FileStore.draftPath?, hpieces, Option.map_some, withExtension_append]
  rfl

/-- A key that has a file is filed. -/
theorem exists_filed (h : path? key = some path) : ∃ parent name, Filed key parent name := by
  obtain ⟨pieces, hpieces, -⟩ := Option.map_eq_some_iff.mp h
  have hne : pieces ≠ [] := by
    rw [← (pieces?_eq_some_iff.mp hpieces).1]
    exact FilePath.segments_ne_nil _
  rw [← List.dropLast_concat_getLast hne] at hpieces
  exact ⟨_, _, _, _, hpieces, rfl, rfl⟩

/-- A key is known by its directory and its name. -/
theorem Filed.key_eq (h : Filed key parent name) (h' : Filed key' parent name) : key = key' := by
  obtain ⟨before, last, hpieces, rfl, rfl⟩ := h
  obtain ⟨before', last', hpieces', hparent, hname⟩ := h'
  have hbefore : before = before' :=
    (List.map_inj_right fun _ _ => String.ofList_injective).mp hparent
  have hlast : last = last' := String.ofList_injective hname
  subst hbefore hlast
  have hsegments : FilePath.segments key.toList = FilePath.segments key'.toList :=
    (pieces?_eq_some_iff.mp hpieces).1.trans (pieces?_eq_some_iff.mp hpieces').1.symm
  rw [← String.toList_inj, ← FilePath.intercalate_segments key.toList, hsegments,
    FilePath.intercalate_segments]

/-- A key is filed in one place. -/
theorem Filed.unique (h : Filed key parent name) (h' : Filed key parent' name') :
    parent = parent' ∧ name = name' := by
  obtain ⟨before, last, hpieces, rfl, rfl⟩ := h
  obtain ⟨before', last', hpieces', rfl, rfl⟩ := h'
  rw [hpieces] at hpieces'
  obtain ⟨rfl, hlast⟩ := List.append_inj' (Option.some.inj hpieces') rfl
  obtain rfl := List.singleton_inj.mp hlast
  exact ⟨rfl, rfl⟩

/-- Different keys have different files. -/
theorem Filed.key_eq_of_path_eq (h : Filed key parent name) (h' : Filed key' parent' name')
    (hpath : parent ++ [fileName name] = parent' ++ [fileName name']) : key = key' := by
  obtain ⟨rfl, hname⟩ := List.append_inj' hpath rfl
  obtain rfl := fileName_injective (List.cons.inj hname).1
  exact h.key_eq h'

/-! ### Reading -/

variable {s s' : FileStore} {t t' : FileTree} {bytes content : ByteArray}

theorem onPath_of_path? {α : Type} {f : List String → Except StoreError α}
    (h : path? key = some path) : onPath key f = f path := by
  rw [onPath, h]

theorem read_of_path?_eq_none (h : path? key = none) : s.read key = .error (.invalidKey key) := by
  rw [read, onPath, h]

theorem read_of_path? (h : path? key = some path) :
    s.read key = match s.root.readFile path with
      | .ok content => .ok (some content)
      | .error .notFound => .ok none
      | .error _ => .error .files :=
  onPath_of_path? h

/-- A key holds what its file does. -/
theorem read_eq_ok_some_iff (h : path? key = some path) :
    s.read key = .ok (some bytes) ↔
      FilePath.check path = .ok () ∧ s.root.look path = .ok (some bytes) := by
  rw [read_of_path? h, ← FileTree.readFile_ok_iff]
  split <;> simp [*]

/-- Reading depends on what stands at the file of the key only. -/
theorem read_congr (h : path? key = some path) (hlook : s'.root.look path = s.root.look path) :
    s'.read key = s.read key := by
  rw [read_of_path? h, read_of_path? h, FileTree.readFile_congr hlook]

/-- A key that has files is absent or fails when nothing stands at its file. -/
theorem read_of_look_error {e : FileError} (h : path? key = some path)
    (hcheck : FilePath.check path = .ok ()) (hlook : s.root.look path = .error e) :
    s.read key = if e = .notFound then .ok none else .error .files := by
  rw [read_of_path? h, FileTree.readFile_eq, hcheck, hlook]
  cases e <;> rfl

/-! ### Writing and removing -/

theorem keep_ok_iff {x : Except FileError FileTree} :
    FileStep.apply.keep t x = (.ok (), t') ↔ x = .ok t' := by
  rcases x with e | u <;> simp [FileStep.apply.keep]

theorem keep_error_iff {x : Except FileError FileTree} {e : FileError} :
    FileStep.apply.keep t x = (.error e, t') ↔ x = .error e ∧ t = t' := by
  rcases x with e' | u <;> simp [FileStep.apply.keep]

theorem run_cons_ok_iff {step : FileStep} {rest : List FileStep} :
    run (step :: rest) t = (.ok (), t') ↔
      ∃ u, step.apply t = (.ok (), u) ∧ run rest u = (.ok (), t') := by
  rw [run]
  rcases step.apply t with ⟨e | _, u⟩ <;> simp

/-- The steps of writing a slot are taken when each of them can be. -/
theorem run_steps_ok_iff :
    run (steps path draft content) t = (.ok (), t') ↔
      ∃ u v, t.makeDirectories (FileStore.parent path) = (.ok (), u) ∧
        u.writeFile draft content = .ok v ∧ v.rename draft path = .ok t' := by
  rw [steps, run_cons_ok_iff]
  refine exists_congr fun u => ?_
  rw [run_cons_ok_iff, exists_and_left]
  refine and_congr Iff.rfl (exists_congr fun v => and_congr keep_ok_iff ?_)
  rw [run_cons_ok_iff]
  constructor
  · rintro ⟨w, hmove, hend⟩
    obtain rfl := (Prod.mk.inj hend).2
    exact keep_ok_iff.mp hmove
  · exact fun hmove => ⟨t', keep_ok_iff.mpr hmove, rfl⟩

/-- A key is written when the steps of writing its slot are taken. -/
theorem write_ok_iff (hpath : path? key = some path) (hdraft : draftPath? key = some draft) :
    s.write key bytes = (.ok (), s') ↔
      ∃ u v, s.root.makeDirectories (FileStore.parent path) = (.ok (), u) ∧
        u.writeFile draft bytes = .ok v ∧ v.rename draft path = .ok s'.root := by
  rw [← run_steps_ok_iff, write, hpath, hdraft]
  simp only [writeSlot]
  rcases run (steps path draft bytes) s.root with ⟨e | _, t⟩
  · simp
  · obtain ⟨root⟩ := s'
    simp

theorem remove_of_path? (h : path? key = some path) :
    s.remove key = match s.root.removeFile path with
      | .ok root => (.ok (), ⟨root⟩)
      | .error .notFound => (.ok (), s)
      | .error _ => (.error .files, s) := by
  rw [remove]
  split
  · rename_i hnone
    rw [h] at hnone
    cases hnone
  · rename_i path' hpath
    obtain rfl := Option.some.inj (h.symm.trans hpath)
    rfl

theorem write_of_path?_eq_none (h : path? key = none) :
    s.write key bytes = (.error (.invalidKey key), s) := by
  rw [write, h]

end FileStore

end IdleGame
