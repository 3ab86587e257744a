import IdleGame.Proofs.Store.Files

/-!
# The paths of keys

A key is cut at its slashes. If each piece can be the name of a file, the pieces are the path of the
key, one name below the other, the last one with the extension of slots. So a path leads down from
the root of a store by plain names, and never up or out of it.

## Main definitions

* `FilePath.IsPlain` - a name that leads from a directory to something in it
* `FileStore.IsRefused` - a piece that no key may have

## Main results

* `FilePath.segments_eq_splitOn` - the pieces of a text are those between its slashes
* `FilePath.splitExtension_append` - the extension of a name is what follows its last point
* `FileTree.pathOf?_of_plain` - plain names are followed one by one, in every tree
* `FileStore.path_contained_and_distinct` - which keys have a path, and what is known of it
-/

namespace IdleGame

namespace FilePath

variable {cs s ext : List Char} {pieces : List (List Char)} {path : List String}

/-! ### Pieces -/

/-- The pieces of a text are those between its slashes. -/
theorem segments_eq_splitOn (cs : List Char) : segments cs = cs.splitOn '/' := by
  induction cs with
  | nil => rfl
  | cons c cs ih =>
    rw [List.splitOn_eq_splitOnP, List.splitOnP_cons_eq_if_modifyHead,
      ← List.splitOn_eq_splitOnP, ← ih, segments]
    by_cases hc : c = '/'
    · simp [hc]
    · obtain ⟨s, rest, hrest⟩ := List.exists_cons_of_ne_nil (segments_ne_nil cs)
      simp [hc, hrest]

theorem slash_notMem_of_mem_segments (h : s ∈ segments cs) : '/' ∉ s := by
  induction cs generalizing s with
  | nil => simp_all [segments]
  | cons c cs ih =>
    rw [segments] at h
    obtain ⟨s', rest, hrest⟩ := List.exists_cons_of_ne_nil (segments_ne_nil cs)
    rw [hrest] at h ih
    split at h
    · rcases List.mem_cons.mp h with rfl | h
      · exact List.not_mem_nil
      · exact ih h
    · rename_i hc
      rcases List.mem_cons.mp h with rfl | h
      · rw [List.mem_cons, not_or]
        exact ⟨Ne.symm hc, ih (List.mem_cons_self)⟩
      · exact ih (List.mem_cons_of_mem _ h)

/-- Pieces that are put together with slashes are found again. -/
theorem segments_intercalate (hpieces : pieces ≠ []) (hslash : ∀ s ∈ pieces, '/' ∉ s) :
    segments (['/'].intercalate pieces) = pieces := by
  rw [segments_eq_splitOn]
  exact List.splitOn_intercalate '/' hslash hpieces

/-- The names of a path are found again in its text. -/
theorem segments_toList_intercalate (hpath : path ≠ [])
    (hslash : ∀ name ∈ path, '/' ∉ name.toList) :
    segments ("/".intercalate path).toList = path.map String.toList := by
  rw [String.toList_intercalate]
  exact segments_intercalate (by simpa using hpath) (by simpa using hslash)

/-- The pieces of two texts with a slash between them are those of the one and of the other. -/
theorem segments_append (cs cs' : List Char) :
    segments (cs ++ '/' :: cs') = segments cs ++ segments cs' := by
  induction cs with
  | nil => simp [segments]
  | cons c cs ih =>
    rw [List.cons_append, segments, segments, ih]
    split
    · rfl
    · obtain ⟨s, rest, hrest⟩ := List.exists_cons_of_ne_nil (segments_ne_nil cs)
      rw [hrest]
      rfl

/-- A text is known by its pieces. -/
theorem eq_of_segments_eq {text text' : String}
    (h : segments text.toList = segments text'.toList) : text = text' := by
  rw [← String.toList_inj, ← intercalate_segments text.toList, h, intercalate_segments]

/-! ### Extensions -/

/-- The extension of a name is what follows its last point, unless that is the first character. -/
theorem splitExtension_append (hs : s ≠ []) (hext : '.' ∉ ext) :
    splitExtension (s ++ '.' :: ext) = (s, some ext) := by
  have hafter : ∀ c ∈ ext.reverse, decide (c ≠ '.') = true := by
    intro c hc
    rw [decide_eq_true_iff]
    rintro rfl
    exact hext (List.mem_reverse.mp hc)
  have hreverse : (s ++ '.' :: ext).reverse = ext.reverse ++ '.' :: s.reverse := by simp
  unfold splitExtension
  rw [hreverse, List.takeWhile_append_of_pos hafter, List.dropWhile_append_of_pos hafter]
  simp [hs]

/-- Only what stands behind the last point of a name is its extension. -/
theorem eq_append_of_splitExtension {name : List Char} (h : splitExtension name = (s, some ext)) :
    s ≠ [] ∧ name = s ++ '.' :: ext := by
  unfold splitExtension at h
  dsimp only at h
  split at h
  · rename_i before hbefore
    split at h
    · cases h
    · rename_i hne
      obtain ⟨rfl, hext⟩ := Prod.mk.inj h
      obtain rfl := Option.some.inj hext
      have hname := List.takeWhile_append_dropWhile (p := (· ≠ '.')) (l := name.reverse)
      rw [hbefore] at hname
      have hname' := congrArg List.reverse hname
      simp only [List.reverse_append, List.reverse_cons, List.append_assoc, List.singleton_append,
        List.reverse_reverse] at hname'
      exact ⟨by simpa using hne, hname'.symm⟩
  · cases h

/-! ### Plain names -/

/-- A name that leads from a directory to something in it: it is not empty, means neither the
directory itself nor the one above, and is one piece. -/
def IsPlain (name : String) : Prop := name ≠ "" ∧ name ≠ "." ∧ name ≠ ".." ∧ '/' ∉ name.toList

theorem isPlain_ofList_iff :
    IsPlain (String.ofList s) ↔ s ≠ [] ∧ s ≠ ['.'] ∧ s ≠ ['.', '.'] ∧ '/' ∉ s := by
  have hinj (name : String) : String.ofList s = name ↔ s = name.toList := by
    rw [← String.toList_inj, String.toList_ofList]
  simp only [IsPlain, ne_eq, hinj, String.toList_ofList]
  rfl

end FilePath

namespace FileTree

variable {here path : List String} {pieces : List (List Char)} {text : String}

theorem pathFrom?_of_plain (t : FileTree)
    (h : ∀ s ∈ pieces, FilePath.IsPlain (String.ofList s)) :
    t.pathFrom? here pieces = some (here ++ pieces.map String.ofList) := by
  induction pieces generalizing here with
  | nil => simp [pathFrom?]
  | cons s rest ih =>
    rw [List.forall_mem_cons] at h
    obtain ⟨hempty, hhere, habove, -⟩ := FilePath.isPlain_ofList_iff.mp h.1
    have hstay : ¬ (s = [] ∨ s = ['.']) := by simp [hempty, hhere]
    rw [pathFrom?, if_neg hstay, if_neg habove, ih h.2]
    -- Whether there is a directory or not, the pieces are kept.
    split
    · rfl
    · simp

/-- Plain names are followed one by one, in every tree. -/
theorem pathOf?_of_plain (t : FileTree)
    (h : ∀ s ∈ FilePath.segments text.toList, FilePath.IsPlain (String.ofList s)) :
    t.pathOf? text = some ((FilePath.segments text.toList).map String.ofList) := by
  -- A plain text does not start with a slash, since its first piece is not empty.
  have hrelative : ¬ ((FilePath.segments text.toList).head? = some [] ∧
      1 < (FilePath.segments text.toList).length) := by
    rintro ⟨hhead, -⟩
    have hplain := h [] (List.mem_of_head? hhead)
    exact (FilePath.isPlain_ofList_iff.mp hplain).1 rfl
  unfold pathOf?
  dsimp only
  rw [if_neg hrelative]
  split
  · rfl
  · rw [pathFrom?_of_plain t h, List.nil_append]

theorem resolve_of_pathOf? {t : FileTree} (h : t.pathOf? text = some path) :
    t.resolve text = path := by
  rw [resolve, h, Option.getD_some]

/-- The text of a path of plain names leads to that path, in every tree. -/
theorem pathOf?_intercalate (t : FileTree) (hpath : path ≠ [])
    (h : ∀ name ∈ path, FilePath.IsPlain name) :
    t.pathOf? ("/".intercalate path) = some path := by
  have hsegments : FilePath.segments ("/".intercalate path).toList = path.map String.toList :=
    FilePath.segments_toList_intercalate hpath fun name hname => (h name hname).2.2.2
  have hback : (path.map String.toList).map String.ofList = path := by simp
  rw [pathOf?_of_plain, hsegments, hback]
  rw [hsegments]
  simpa using h

end FileTree

namespace FileStore

open FilePath (IsPlain)

variable {key key' name : String} {parent path path' : List String} {s : List Char}

/-- A piece that no key may have: nothing, a point, two points, or one with a backslash. -/
def IsRefused (s : List Char) : Prop := s = [] ∨ s = ['.'] ∨ s = ['.', '.'] ∨ '\\' ∈ s

theorem isSegment_iff : isSegment s ↔ ¬ IsRefused s := by
  simp [isSegment, IsRefused, and_assoc]

/-- A key has no path exactly when one of its pieces is refused. -/
theorem path?_eq_none_iff : path? key = none ↔ ∃ s ∈ key.toList.splitOn '/', IsRefused s := by
  simp [path?, pieces?, FilePath.segments_eq_splitOn, isSegment_iff]

/-- A key with a path has one name for each of its pieces, the last one with the extension. -/
theorem path?_eq_some_iff :
    path? key = some path ↔ (∀ s ∈ key.toList.splitOn '/', ¬ IsRefused s) ∧
      ∃ before last, key.toList.splitOn '/' = before ++ [last] ∧
        path = before.map String.ofList ++ [String.ofList last ++ ".ron"] := by
  have hlast (last : List Char) : fileName (String.ofList last) = String.ofList last ++ ".ron" :=
    String.append_assoc
  constructor
  · intro h
    obtain ⟨parent, name, hfiled⟩ := exists_filed h
    obtain rfl := Option.some.inj (hfiled.path?.symm.trans h)
    obtain ⟨before, last, hpieces, rfl, rfl⟩ := hfiled
    obtain ⟨hsegments, hall⟩ := pieces?_eq_some_iff.mp hpieces
    rw [FilePath.segments_eq_splitOn] at hsegments
    rw [hsegments, hlast]
    refine ⟨fun s hs => isSegment_iff.mp (List.all_eq_true.mp hall s hs), before, last, rfl, rfl⟩
  · rintro ⟨hall, before, last, hsplit, rfl⟩
    have hpieces : pieces? key = some (before ++ [last]) := by
      rw [pieces?_eq_some_iff, FilePath.segments_eq_splitOn, ← hsplit]
      exact ⟨rfl, List.all_eq_true.mpr fun s hs => isSegment_iff.mpr (hall s hs)⟩
    rw [← hlast]
    exact Filed.path? ⟨before, last, hpieces, rfl, rfl⟩

theorem isPlain_of_isSegment (h : isSegment s) (hslash : '/' ∉ s) : IsPlain (String.ofList s) := by
  have hs := isSegment_iff.mp h
  simp only [IsRefused, not_or] at hs
  exact FilePath.isPlain_ofList_iff.mpr ⟨hs.1, hs.2.1, hs.2.2.1, hslash⟩

/-- The names that a key is known by are plain. -/
theorem Filed.pieces_plain (h : Filed key parent name) :
    ∀ part ∈ parent ++ [name], IsPlain part := by
  obtain ⟨before, last, hpieces, rfl, rfl⟩ := h
  obtain ⟨hsegments, hall⟩ := pieces?_eq_some_iff.mp hpieces
  intro part hpart
  obtain ⟨s, hs, rfl⟩ : ∃ s ∈ before ++ [last], String.ofList s = part := by
    simpa [or_and_right, exists_or, eq_comm] using hpart
  refine isPlain_of_isSegment (List.all_eq_true.mp hall s hs) ?_
  rw [← hsegments] at hs
  exact FilePath.slash_notMem_of_mem_segments hs

theorem toList_fileName (name : String) :
    (fileName name).toList = name.toList ++ '.' :: ['r', 'o', 'n'] := by
  simp [fileName, slotExtension]

/-- The name of a file is plain when that of its slot is. -/
theorem isPlain_fileName (h : IsPlain name) : IsPlain (fileName name) := by
  obtain ⟨-, -, -, hslash⟩ := h
  rw [← String.ofList_toList (s := fileName name), FilePath.isPlain_ofList_iff, toList_fileName]
  have hlong : 4 ≤ (name.toList ++ '.' :: ['r', 'o', 'n']).length := by simp
  refine ⟨?_, ?_, ?_, by simp [hslash]⟩
  all_goals
    intro hshort
    rw [hshort] at hlong
    simp at hlong

/-- The names that lead to the file of a key are plain. -/
theorem Filed.path_plain (h : Filed key parent name) :
    ∀ part ∈ parent ++ [fileName name], IsPlain part := by
  have hplain := h.pieces_plain
  simp only [List.forall_mem_append, List.forall_mem_singleton] at hplain ⊢
  exact ⟨hplain.1, isPlain_fileName hplain.2⟩

/-- The name of a slot is found again in that of its file. -/
theorem splitExtension_fileName (h : IsPlain name) :
    FilePath.splitExtension (fileName name).toList = (name.toList, some ['r', 'o', 'n']) := by
  rw [toList_fileName]
  refine FilePath.splitExtension_append ?_ (by decide)
  exact fun hnil => h.1 (String.toList_inj.mp hnil)

theorem stem_fileName (h : IsPlain name) : FilePath.stem (fileName name) = name := by
  rw [FilePath.stem, splitExtension_fileName h, String.ofList_toList]

/-- A key is first written beside its file, under a name with the same stem. -/
theorem Filed.draftPath?_eq (h : Filed key parent name) :
    FileStore.draftPath? key =
      some (parent ++ [FilePath.stem (fileName name) ++ ".ron.tmp"]) := by
  rw [h.draftPath?, stem_fileName (h.pieces_plain name (by simp))]
  exact congrArg (fun draft => some (parent ++ [draft])) String.append_assoc

theorem onPath_ok_iff : onPath key Except.ok = .ok path ↔ path? key = some path := by
  rw [onPath]
  cases path? key <;> simp

theorem onPath_error_iff {e : StoreError} :
    (onPath key Except.ok : Except StoreError (List String)) = .error e ↔
      path? key = none ∧ e = .invalidKey key := by
  rw [onPath]
  cases path? key <;> simp [eq_comm]

/-- A key is refused exactly when a piece between its slashes is nothing, a point, two points, or
has a backslash. All others have a path: a name for each piece, the last one with the extension.
These names are plain, so the path lies below the root, and its text is followed there from name to
name in every tree, never out of it. Different keys have different paths, and the other path that a
key is written to first, which has the same stem, is the path of no key. -/
theorem path_contained_and_distinct (key : String) :
    (onPath key Except.ok = .error (.invalidKey key) ↔
      ∃ s ∈ key.toList.splitOn '/', IsRefused s) ∧
    ((∀ s ∈ key.toList.splitOn '/', ¬ IsRefused s) → ∃ before last,
      key.toList.splitOn '/' = before ++ [last] ∧
      onPath key Except.ok =
        .ok (before.map String.ofList ++ [String.ofList last ++ ".ron"])) ∧
    ∀ path, onPath key Except.ok = .ok path →
      (path ≠ [] ∧ (∀ name ∈ path, IsPlain name) ∧
        ∀ t : FileTree, t.pathOf? ("/".intercalate path) = some path ∧
          t.resolve ("/".intercalate path) = path) ∧
      ∀ key' path', onPath key' Except.ok = .ok path' →
        (key' ≠ key → path' ≠ path) ∧
        ∃ parent name, path' = parent ++ [name] ∧
          draftPath? key' = some (parent ++ [FilePath.stem name ++ ".ron.tmp"]) ∧
          parent ++ [FilePath.stem name ++ ".ron.tmp"] ≠ path := by
  refine ⟨?_, ?_, ?_⟩
  · rw [onPath_error_iff, path?_eq_none_iff]
    exact and_iff_left rfl
  · intro hall
    obtain ⟨path, hpath⟩ := Option.ne_none_iff_exists'.mp
      fun hnone => absurd (path?_eq_none_iff.mp hnone) (by simpa using hall)
    obtain ⟨-, before, last, hsplit, rfl⟩ := path?_eq_some_iff.mp hpath
    exact ⟨before, last, hsplit, onPath_ok_iff.mpr hpath⟩
  · intro path hpath
    rw [onPath_ok_iff] at hpath
    obtain ⟨parent, name, hfiled⟩ := exists_filed hpath
    obtain rfl := Option.some.inj (hfiled.path?.symm.trans hpath)
    have hplain := hfiled.path_plain
    have hbelow : parent ++ [fileName name] ≠ [] := by simp
    have hinside (t : FileTree) := t.pathOf?_intercalate hbelow hplain
    refine ⟨⟨hbelow, hplain, fun t => ⟨hinside t, FileTree.resolve_of_pathOf? (hinside t)⟩⟩, ?_⟩
    intro key' path' hpath'
    rw [onPath_ok_iff] at hpath'
    obtain ⟨parent', name', hfiled'⟩ := exists_filed hpath'
    obtain rfl := Option.some.inj (hfiled'.path?.symm.trans hpath')
    have hdraft := hfiled'.draftPath?_eq
    refine ⟨fun hkey hsame => hkey (hfiled'.key_eq_of_path_eq hfiled hsame), parent',
      fileName name', rfl, hdraft, ?_⟩
    rw [hfiled'.draftPath?, Option.some.injEq] at hdraft
    rw [← hdraft]
    exact append_draftName_ne

/-- Points may stand in a key: three of them are a plain name, and an extension that is already
there gets another one behind it. -/
theorem dotted_keys_contained :
    (∀ s ∈ "clips.ron/...".toList.splitOn '/', ¬ IsRefused s) ∧
    onPath "clips.ron/..." Except.ok = .ok ["clips.ron", "....ron"] ∧
    onPath "clips.ron/....ron" Except.ok = .ok ["clips.ron", "....ron.ron"] ∧
    (∀ name ∈ ["clips.ron", "....ron"], IsPlain name) ∧
    (∀ t : FileTree, t.pathOf? "clips.ron/....ron" = some ["clips.ron", "....ron"] ∧
      t.resolve "clips.ron/....ron" = ["clips.ron", "....ron"]) ∧
    ["clips.ron", "....ron.ron"] ≠ ["clips.ron", "....ron"] ∧
    ∃ parent name, ["clips.ron", "....ron.ron"] = parent ++ [name] ∧
      draftPath? "clips.ron/....ron" = some (parent ++ [FilePath.stem name ++ ".ron.tmp"]) ∧
      parent ++ [FilePath.stem name ++ ".ron.tmp"] ≠ ["clips.ron", "....ron"] := by
  have hsplit : "clips.ron/...".toList.splitOn '/' = ["clips.ron".toList, "...".toList] := rfl
  have hall : ∀ s ∈ "clips.ron/...".toList.splitOn '/', ¬ IsRefused s := by
    rw [hsplit]
    simp [IsRefused]
  obtain ⟨-, -, hpaths⟩ := path_contained_and_distinct "clips.ron/..."
  obtain ⟨⟨-, hplain, hresolve⟩, hothers⟩ := hpaths ["clips.ron", "....ron"] rfl
  obtain ⟨hne, hdraft⟩ := hothers "clips.ron/....ron" ["clips.ron", "....ron.ron"] rfl
  exact ⟨hall, rfl, rfl, hplain, hresolve, hne (by decide), hdraft⟩

end FileStore

end IdleGame
