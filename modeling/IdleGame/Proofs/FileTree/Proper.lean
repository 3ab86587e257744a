import IdleGame.Proofs.FileTree

/-!
# Proper file trees

In a file system no two entries of a directory have one name, and no name is too long. Every change
of a file tree keeps it so. Then a directory lists what is found under the names in it.

## Main definitions

* `FileTree.Proper` - a tree that a file system can have
* `FileTree.Valid` - a proper tree whose files can be opened

## Main results

* `FileTree.Proper.writeFile`, `FileTree.Proper.removeFile`, `FileTree.Proper.rename`,
  `FileTree.Proper.makeDirectories` - changes keep a tree proper
* `FileTree.Proper.mem_iff_follow` - a directory lists what is found behind its path
* `FileTree.Valid.place` - placing a file keeps a tree such that its files can be opened
-/

namespace IdleGame

/-- An entry that is there after writing one was there before, or has been written. -/
theorem Entries.mem_insert {α : Type} {k : String} {v : α} {es : List (String × α)}
    {e : String × α} (h : e ∈ Entries.insert k v es) : e = (k, v) ∨ e ∈ es := by
  induction es with
  | nil => exact .inl (List.mem_singleton.mp h)
  | cons e' rest ih =>
    obtain ⟨k', v'⟩ := e'
    rw [Entries.insert] at h
    split at h
    · rename_i hk
      subst hk
      exact (List.mem_cons.mp h).imp_right (List.mem_cons_of_mem _)
    · rcases List.mem_cons.mp h with rfl | h
      · exact .inr List.mem_cons_self
      · exact (ih h).imp_right (List.mem_cons_of_mem _)

/-- Under a name the same is found in whichever order entries with different names are listed. -/
theorem Entries.get?_of_perm {α : Type} {k : String} {es es' : List (String × α)}
    (hnodup : (es.map Prod.fst).Nodup) (h : es'.Perm es) :
    Entries.get? k es' = Entries.get? k es := by
  have hnodup' : (es'.map Prod.fst).Nodup := (h.map Prod.fst).nodup_iff.mpr hnodup
  refine Option.ext fun v => ⟨fun hget => ?_, fun hget => ?_⟩
  · exact Entries.get?_of_mem hnodup (h.mem_iff.mp (Entries.mem_of_get? hget))
  · exact Entries.get?_of_mem hnodup' (h.mem_iff.mpr (Entries.mem_of_get? hget))

namespace FileTree

open FilePath (isShort)

/-- A tree that a file system can have: in each directory the names differ, and none is too
long. -/
inductive Proper : FileTree → Prop
  | ofFile (content : ByteArray) : Proper (file content)
  | ofEntries {entries : List (String × FileTree)} (hnames : (entries.map Prod.fst).Nodup)
    (hshort : ∀ e ∈ entries, isShort e.1) (hentries : ∀ e ∈ entries, Proper e.2) :
    Proper (directory entries)

variable {path rest : List String} {name : String} {t t' u : FileTree} {content : ByteArray}
  {entries : List (String × FileTree)}
  {change : Option FileTree → Except FileError (Option FileTree)}

theorem proper_directory_iff :
    Proper (directory entries) ↔
      (entries.map Prod.fst).Nodup ∧ ∀ e ∈ entries, isShort e.1 ∧ Proper e.2 := by
  constructor
  · rintro (_ | ⟨hnames, hshort, hentries⟩)
    exact ⟨hnames, fun e he => ⟨hshort e he, hentries e he⟩⟩
  · rintro ⟨hnames, hentries⟩
    exact .ofEntries hnames (fun e he => (hentries e he).1) fun e he => (hentries e he).2

theorem proper_empty : Proper empty := .ofEntries List.nodup_nil nofun nofun

/-! ### What a directory lists -/

theorem entriesAt?_eq_some_iff :
    t.entriesAt? path = some entries ↔
      FilePath.check path = .ok () ∧ t.follow path = .ok (directory entries) := by
  unfold entriesAt? get
  rcases FilePath.check path with e | _
  · simp
  · rw [Outcome.ok_bind]
    rcases t.follow path with e | _ | entries' <;> simp

theorem Proper.mem_iff_get? (h : Proper (directory entries)) :
    (name, t) ∈ entries ↔ Entries.get? name entries = some t :=
  ⟨Entries.get?_of_mem (proper_directory_iff.mp h).1, Entries.mem_of_get?⟩

theorem Proper.entry (h : Proper (directory entries)) (hget : Entries.get? name entries = some t) :
    isShort name ∧ Proper t :=
  (proper_directory_iff.mp h).2 (name, t) (Entries.mem_of_get? hget)

theorem Proper.follow (h : Proper t) (hfollow : t.follow path = .ok u) : Proper u := by
  induction path generalizing t with
  | nil =>
    obtain rfl := Except.ok.inj hfollow
    exact h
  | cons name path ih =>
    cases t with
    | file content => cases hfollow
    | directory entries =>
      rw [follow_cons_directory] at hfollow
      split at hfollow
      · rcases hget : Entries.get? name entries with _ | v <;> rw [hget] at hfollow
        · cases hfollow
        · exact ih (h.entry hget).2 hfollow
      · cases hfollow

/-- In which order the entries of a directory are listed is not seen. -/
theorem Proper.look_of_perm {entries' : List (String × FileTree)} (h : Proper (directory entries))
    (hperm : entries'.Perm entries) :
    (directory entries').look path = (directory entries).look path := by
  cases path with
  | nil => rfl
  | cons name rest => exact look_congr (Entries.get?_of_perm (proper_directory_iff.mp h).1 hperm)

/-- A directory lists what is found behind its path. -/
theorem Proper.mem_iff_follow (h : Proper t) (hfollow : t.follow path = .ok (directory entries)) :
    (name, u) ∈ entries ↔ t.follow (path ++ [name]) = .ok u := by
  have hentries : Proper (directory entries) := h.follow hfollow
  rw [hentries.mem_iff_get?, follow_append, hfollow, Outcome.ok_bind, follow_cons_directory]
  rcases hget : Entries.get? name entries with _ | v
  · split <;> simp
  · rw [if_pos (hentries.entry hget).1]
    simp [FileTree.follow]

/-! ### Changes -/

theorem Proper.insert (h : Proper (directory entries)) (hshort : isShort name) (ht : Proper t) :
    Proper (directory (Entries.insert name t entries)) := by
  rw [proper_directory_iff] at h ⊢
  refine ⟨Entries.nodup_keys_insert name t h.1, fun e he => ?_⟩
  rcases Entries.mem_insert he with rfl | he
  · exact ⟨hshort, ht⟩
  · exact h.2 e he

theorem Proper.filter (h : Proper (directory entries)) (p : String × FileTree → Bool) :
    Proper (directory (entries.filter p)) := by
  rw [proper_directory_iff] at h ⊢
  exact ⟨h.1.sublist (List.filter_sublist.map _), fun e he => h.2 e ((List.mem_filter.mp he).1)⟩

/-- A change of an entry keeps a tree proper, if it makes the entry a proper tree. -/
theorem Proper.alter (h : Proper t) (hchange : ∀ old u, change old = .ok (some u) → Proper u)
    (halter : FileTree.alter change path t = .ok t') : Proper t' := by
  induction path generalizing t t' with
  | nil => cases halter
  | cons name path ih =>
    cases t with
    | file content => cases path <;> cases halter
    | directory entries =>
    by_cases hpath : path = []
    · subst path
      rw [alter_singleton] at halter
      split at halter
      · rename_i hshort
        obtain ⟨_ | u, hu, halter⟩ := Outcome.bind_eq_ok_iff.mp halter
        all_goals obtain rfl := Except.ok.inj halter
        · exact h.filter _
        · exact h.insert hshort (hchange _ u hu)
      · cases halter
    · rw [alter_cons hpath] at halter
      split at halter
      · rename_i hshort
        split at halter
        · rename_i u hget
          obtain ⟨u', hu, halter⟩ := Outcome.bind_eq_ok_iff.mp halter
          obtain rfl := Except.ok.inj halter
          exact h.insert hshort (ih (h.entry hget).2 hu)
        · cases halter
      · cases halter

theorem Proper.writeFile (h : Proper t) (hwrite : t.writeFile path content = .ok t') :
    Proper t' := by
  obtain ⟨_, -, halter⟩ := Outcome.bind_eq_ok_iff.mp hwrite
  refine h.alter (fun old u hu => ?_) halter
  split at hu
  · cases hu
  · obtain rfl := Option.some.inj (Except.ok.inj hu)
    exact .ofFile content

theorem Proper.removeFile (h : Proper t) (hremove : t.removeFile path = .ok t') : Proper t' := by
  obtain ⟨_, -, halter⟩ := Outcome.bind_eq_ok_iff.mp hremove
  refine h.alter (fun old u hu => ?_) halter
  split at hu <;> cases hu

theorem Proper.rename {source target : List String} (h : Proper t)
    (hrename : t.rename source target = .ok t') : Proper t' := by
  obtain ⟨content, -, hrename⟩ := Outcome.bind_eq_ok_iff.mp hrename
  obtain ⟨u, hwrite, hremove⟩ := Outcome.bind_eq_ok_iff.mp hrename
  exact (h.writeFile hwrite).removeFile hremove

theorem Proper.extendPath (h : Proper t) : Proper (FileTree.extendPath path t).2 := by
  induction path generalizing t with
  | nil => cases t <;> exact h
  | cons name path ih =>
    cases t with
    | file content => exact h
    | directory entries =>
      rw [extendPath_cons]
      split
      · rename_i hshort
        refine h.insert hshort (ih ?_)
        rcases hget : Entries.get? name entries with _ | u
        · exact proper_empty
        · exact (h.entry hget).2
      · exact h

theorem Proper.makeDirectories (h : Proper t) : Proper (t.makeDirectories path).2 := by
  unfold FileTree.makeDirectories
  split
  · exact h.extendPath
  · exact h

/-! ### Files that can be opened -/

/-- A tree whose files can be opened: it is proper, and the path of each file is accepted. -/
structure Valid (t : FileTree) : Prop where
  proper : t.Proper
  check (path : List String) (content : ByteArray) (h : t.look path = .ok (some content)) :
    FilePath.check path = .ok ()

theorem valid_empty : Valid empty where
  proper := proper_empty
  check path content h := by
    rcases path with _ | ⟨name, rest⟩
    · cases h
    · rw [look_empty] at h
      split at h <;> cases h

/-- Placing a file keeps all files such that they can be opened. -/
theorem Valid.place (h : t.Valid) (hplace : t.place path content = .ok t') : t'.Valid := by
  rw [FileTree.place] at hplace
  split at hplace
  · rename_i u hmake
    obtain rfl : (t.makeDirectories path.dropLast).2 = u := congrArg Prod.snd hmake
    refine ⟨h.proper.makeDirectories.writeFile hplace, fun q content' hq => ?_⟩
    by_cases hpath : q = path
    · exact hpath ▸ (look_writeFile hplace).1
    · have hmade := (sameFiles_writeFile hplace q (by simpa using hpath) content').mp hq
      exact h.check q content' ((sameFiles_makeDirectories _ t q (by simp) content').mp hmade)
  · cases hplace

/-- The entries of a directory may be listed in any order. -/
theorem Valid.of_perm {entries' : List (String × FileTree)} (h : Valid (directory entries))
    (hperm : entries'.Perm entries) : Valid (directory entries') where
  proper := by
    obtain ⟨hnames, hentries⟩ := proper_directory_iff.mp h.proper
    exact proper_directory_iff.mpr ⟨(hperm.map Prod.fst).nodup_iff.mpr hnames,
      fun e he => hentries e (hperm.mem_iff.mp he)⟩
  check path content hlook := h.check path content (h.proper.look_of_perm hperm ▸ hlook)

theorem Valid.readFile_iff (h : t.Valid) :
    t.readFile path = .ok content ↔ t.look path = .ok (some content) := by
  rw [readFile_ok_iff, and_iff_right_of_imp (h.check path content)]

end FileTree

end IdleGame
