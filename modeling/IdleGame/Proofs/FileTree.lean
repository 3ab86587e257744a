import IdleGame.FileTree
import IdleGame.Proofs.Outcome
import IdleGame.Proofs.Table

/-!
# What stands in a file tree

All that can be found out about a file tree is what stands at its paths: a file with its content, a
directory, or nothing, because a name is missing or too long or because something on the way is a
file. Each change is described by what it does to that.

## Main definitions

* `FileTree.look` - what stands at a path
* `FileTree.SameFiles`, `FileTree.SameDirectories` - what a change leaves

## Main results

* `FileTree.readFile_eq` - reading depends on what stands at the path only
* `FileTree.look_writeFile`, `FileTree.look_removeFile`, `FileTree.look_rename` - a change of a
  file is seen at its own path, and nowhere but there and behind it
* `FileTree.look_extendPath` - making directories is seen where nothing was
* `FileTree.writeFile_ok_iff`, `FileTree.rename_ok`, `FileTree.extendPath_ok` - when a change
  succeeds
-/

namespace IdleGame.FileTree

open FilePath (isShort)

/-- The content of a file; a directory has none. -/
def content? : FileTree → Option ByteArray
  | file content => some content
  | directory _ => none

/-- What stands at a path: a file with its content, a directory without, or the error that is met
on the way. -/
def look (path : List String) (t : FileTree) : Except FileError (Option ByteArray) :=
  (follow path t).map content?

/-- What is seen of the entry of a name, if there is one. -/
def lookAt : Option FileTree → Except FileError (Option ByteArray)
  | some t => .ok t.content?
  | none => .error .notFound

variable {path rest q : List String} {name : String} {t t' : FileTree} {content : ByteArray}
  {entries entries' : List (String × FileTree)} {e : FileError}
  {change : Option FileTree → Except FileError (Option FileTree)}

@[simp] theorem content?_file : (file content).content? = some content := rfl

@[simp] theorem content?_directory : (directory entries).content? = none := rfl

@[simp] theorem look_nil : look [] t = .ok t.content? := rfl

@[simp] theorem look_cons_file : look (name :: rest) (file content) = .error .notADirectory := rfl

theorem follow_cons_directory :
    follow (name :: rest) (directory entries) =
      if isShort name then
        match Entries.get? name entries with
        | some t => follow rest t
        | none => .error .notFound
      else .error .tooLong := by
  rw [follow]
  exact ite_not _ _ _

theorem look_cons_directory :
    look (name :: rest) (directory entries) =
      if isShort name then
        match Entries.get? name entries with
        | some t => look rest t
        | none => .error .notFound
      else .error .tooLong := by
  rw [look, follow_cons_directory]
  split
  · cases Entries.get? name entries <;> rfl
  · rfl

theorem look_of_get? (hshort : isShort name) (h : Entries.get? name entries = some t) :
    look (name :: rest) (directory entries) = look rest t := by
  rw [look_cons_directory, if_pos hshort, h]

theorem look_of_get?_eq_none (hshort : isShort name) (h : Entries.get? name entries = none) :
    look (name :: rest) (directory entries) = .error .notFound := by
  rw [look_cons_directory, if_pos hshort, h]

/-- Directories with the same entry of a name look the same behind that name. -/
theorem look_congr (h : Entries.get? name entries' = Entries.get? name entries) :
    look (name :: rest) (directory entries') = look (name :: rest) (directory entries) := by
  rw [look_cons_directory, look_cons_directory, h]

/-! ### Paths behind other paths -/

/-- A path is followed piece by piece. -/
theorem follow_append : follow (path ++ rest) t = follow path t >>= follow rest := by
  induction path generalizing t with
  | nil => rfl
  | cons name path ih =>
    cases t with
    | file content => rfl
    | directory entries =>
      rw [List.cons_append, follow_cons_directory, follow_cons_directory]
      split
      · cases Entries.get? name entries with
        | some t => exact ih
        | none => rfl
      · rfl

theorem look_append : look (path ++ rest) t = follow path t >>= look rest := by
  rw [look, follow_append]
  cases follow path t <;> rfl

/-- An error on the way is the error at the end. -/
theorem look_append_of_error (h : look path t = .error e) : look (path ++ rest) t = .error e := by
  rw [look_append]
  rw [look] at h
  rcases hfollow : follow path t with e' | u <;> rw [hfollow] at h
  · exact h
  · cases h

/-- Nothing stands behind a file. -/
theorem look_append_of_file (h : look path t = .ok (some content)) :
    look (path ++ name :: rest) t = .error .notADirectory := by
  rw [look_append]
  rw [look] at h
  rcases hfollow : follow path t with e' | _ | _ <;> rw [hfollow] at h
  · cases h
  · rfl
  · cases Except.ok.inj h

/-- What stands at a path stands in directories. -/
theorem look_of_look_append {x : Option ByteArray} (h : look (path ++ name :: rest) t = .ok x) :
    look path t = .ok none := by
  rcases hpath : look path t with e' | _ | content
  · rw [look_append_of_error hpath] at h
    cases h
  · rfl
  · rw [look_append_of_file hpath] at h
    cases h

/-- Above what stands at a path there are directories. -/
theorem look_of_prefix {x : Option ByteArray} (h : look (path ++ [name]) t = .ok x)
    (hq : q <+: path) : look q t = .ok none := by
  obtain ⟨rest, rfl⟩ := hq
  cases rest with
  | nil =>
    rw [List.append_nil] at h
    exact look_of_look_append h
  | cons name' rest =>
    rw [List.append_assoc, List.cons_append] at h
    exact look_of_look_append h

/-- Why nothing is seen at a path: a name is missing or too long, or a file is on the way. -/
theorem look_eq_error (h : look path t = .error e) :
    e = .notFound ∨ e = .tooLong ∧ (¬ ∀ name ∈ path, isShort name) ∨
      e = .notADirectory ∧ ∃ q content, q <+: path ∧ look q t = .ok (some content) := by
  induction path generalizing t with
  | nil => cases h
  | cons name path ih =>
    cases t with
    | file content =>
      obtain rfl := Except.error.inj h
      exact .inr (.inr ⟨rfl, [], content, List.nil_prefix, rfl⟩)
    | directory entries =>
      rw [look_cons_directory] at h
      split at h
      · rename_i hshort
        rcases hget : Entries.get? name entries with _ | u <;> rw [hget] at h
        · exact .inl (Except.error.inj h).symm
        · rcases ih h with he | ⟨he, hlong⟩ | ⟨he, q, content, hq, hcontent⟩
          · exact .inl he
          · exact .inr (.inl ⟨he, fun hall => hlong (List.forall_mem_cons.mp hall).2⟩)
          · refine .inr (.inr ⟨he, name :: q, content, List.cons_prefix_cons.mpr ⟨rfl, hq⟩, ?_⟩)
            rw [look_of_get? hshort hget, hcontent]
      · rename_i hlong
        refine .inr (.inl ⟨(Except.error.inj h).symm, fun hall => hlong ?_⟩)
        exact (List.forall_mem_cons.mp hall).1

/-- At a path of short names on which no file stands there is a directory or nothing. -/
theorem look_of_no_file (hshort : ∀ name ∈ path, isShort name)
    (h : ∀ q, q <+: path → ∀ content, look q t ≠ .ok (some content)) :
    look path t = .ok none ∨ look path t = .error .notFound := by
  rcases hlook : look path t with e | _ | content
  · rcases look_eq_error hlook with rfl | ⟨-, hlong⟩ | ⟨-, q, content, hq, hcontent⟩
    · exact .inr rfl
    · exact absurd hshort hlong
    · exact absurd hcontent (h q hq content)
  · exact .inl rfl
  · exact absurd hlook (h path List.prefix_rfl content)

theorem follow_of_look (h : look path t = .ok none) :
    ∃ entries, follow path t = .ok (directory entries) := by
  rw [look] at h
  rcases hfollow : follow path t with e' | _ | entries <;> rw [hfollow] at h
  · cases h
  · cases Except.ok.inj h
  · exact ⟨entries, rfl⟩

/-! ### Reading -/

/-- Reading depends on what stands at the path only. -/
theorem readFile_eq :
    t.readFile path = FilePath.check path >>= fun _ => look path t >>= fun
      | some content => .ok content
      | none => .error .isADirectory := by
  unfold readFile get look
  rcases FilePath.check path with e' | _
  · rfl
  · change (follow path t >>= _) = (follow path t).map content? >>= _
    rcases follow path t with e' | _ | _ <;> rfl

theorem readFile_congr (h : look path t' = look path t) : t'.readFile path = t.readFile path := by
  rw [readFile_eq, readFile_eq, h]

theorem readFile_ok_iff :
    t.readFile path = .ok content ↔
      FilePath.check path = .ok () ∧ look path t = .ok (some content) := by
  rw [readFile_eq]
  rcases FilePath.check path with e' | _
  · simp
  · rcases look path t with e' | _ | content' <;> simp

/-! ### Changing one entry -/

theorem alter_singleton :
    alter change [name] (directory entries) =
      if isShort name then change (Entries.get? name entries) >>= fun
        | some t => .ok (directory (Entries.insert name t entries))
        | none => .ok (directory (entries.filter (·.1 ≠ name)))
      else .error .tooLong := by
  rw [alter]
  exact ite_not _ _ _

theorem alter_cons (h : path ≠ []) :
    alter change (name :: path) (directory entries) =
      if isShort name then
        match Entries.get? name entries with
        | some t => alter change path t >>= fun t => .ok (directory (Entries.insert name t entries))
        | none => .error .notFound
      else .error .tooLong := by
  rw [alter]
  · exact ite_not _ _ _
  · exact h

/-- A change has seen the one and left the other at a path. All that does not stand behind the path
is as it was. -/
def Alters (path : List String) (t t' : FileTree) (old new : Option FileTree) : Prop :=
  look path t = lookAt old ∧ look path t' = lookAt new ∧ ∀ q, ¬ path <+: q → look q t' = look q t

/-- Directories that differ in one entry at most. -/
theorem alters_entry {old new : Option FileTree} (hshort : isShort name)
    (hold : Entries.get? name entries = old) (hnew : Entries.get? name entries' = new)
    (hothers : ∀ name', name' ≠ name → Entries.get? name' entries' = Entries.get? name' entries) :
    Alters [name] (directory entries) (directory entries') old new := by
  subst hold hnew
  refine ⟨?_, ?_, fun q hq => ?_⟩
  · rw [look_cons_directory, if_pos hshort]
    cases Entries.get? name entries <;> rfl
  · rw [look_cons_directory, if_pos hshort]
    cases Entries.get? name entries' <;> rfl
  · cases q with
    | nil => rfl
    | cons name' q =>
      refine look_congr (hothers name' ?_)
      rintro rfl
      exact hq ⟨q, rfl⟩

/-- What an entry is altered in is altered there. -/
theorem Alters.cons {old new : Option FileTree} (h : Alters path t t' old new)
    (hshort : isShort name) (hget : Entries.get? name entries = some t) :
    Alters (name :: path) (directory entries) (directory (Entries.insert name t' entries)) old
      new := by
  have hget' : Entries.get? name (Entries.insert name t' entries) = some t' := by
    rw [Entries.get?_insert, if_pos rfl]
  obtain ⟨hold, hnew, hothers⟩ := h
  refine ⟨?_, ?_, fun q hq => ?_⟩
  · rw [look_of_get? hshort hget, hold]
  · rw [look_of_get? hshort hget', hnew]
  · cases q with
    | nil => rfl
    | cons name' q =>
      by_cases hname : name = name'
      · subst name'
        rw [look_of_get? hshort hget', look_of_get? hshort hget]
        exact hothers q fun hwithin => hq (List.cons_prefix_cons.mpr ⟨rfl, hwithin⟩)
      · refine look_congr ?_
        rw [Entries.get?_insert, if_neg hname]

/-- The entry at the end of a path is changed, and nothing else. -/
theorem alters_of_alter (h : alter change path t = .ok t') :
    ∃ old new, change old = .ok new ∧ Alters path t t' old new ∧ ∀ name ∈ path, isShort name := by
  induction path generalizing t t' with
  | nil => cases h
  | cons name path ih =>
    cases t with
    | file content => cases path <;> cases h
    | directory entries =>
    -- The change is made at the last name; those before lead to it.
    by_cases hpath : path = []
    · subst path
      rw [alter_singleton] at h
      split at h
      · rename_i hshort
        obtain ⟨_ | u, hchange, h⟩ := Outcome.bind_eq_ok_iff.mp h
        all_goals obtain rfl := Except.ok.inj h
        · refine ⟨_, none, hchange, alters_entry hshort rfl Entries.get?_filter_self ?_, by simpa⟩
          exact fun name' hname => Entries.get?_filter_ne hname
        · refine ⟨_, some u, hchange, alters_entry hshort rfl ?_ ?_, by simpa⟩
          · rw [Entries.get?_insert, if_pos rfl]
          · exact fun name' hname => by rw [Entries.get?_insert, if_neg hname.symm]
      · cases h
    · rw [alter_cons hpath] at h
      split at h
      · rename_i hshort
        split at h
        · rename_i u hget
          obtain ⟨u', hu, h⟩ := Outcome.bind_eq_ok_iff.mp h
          obtain rfl := Except.ok.inj h
          obtain ⟨old, new, hchange, halters, hpathShort⟩ := ih hu
          exact ⟨old, new, hchange, halters.cons hshort hget,
            List.forall_mem_cons.mpr ⟨hshort, hpathShort⟩⟩
        · cases h
      · cases h

/-- Whether a change succeeds, or the error that keeps it from succeeding. -/
def outcome (x : Except FileError FileTree) : Except FileError Unit := x.map fun _ => ()

theorem outcome_ok_iff {x : Except FileError FileTree} :
    outcome x = .ok () ↔ ∃ t, x = .ok t := by
  rcases x with e' | t <;> simp [outcome, Except.map]

theorem outcome_error_iff {x : Except FileError FileTree} :
    outcome x = .error e ↔ x = .error e := by
  rcases x with e' | t <;> simp [outcome, Except.map]

/-- Whether an entry can be changed is found out in its directory. -/
theorem outcome_alter_append (h : rest ≠ []) :
    outcome (alter change (path ++ rest) t) =
      follow path t >>= fun u => outcome (alter change rest u) := by
  induction path generalizing t with
  | nil => rfl
  | cons name path ih =>
    have hbelow : path ++ rest ≠ [] := fun hnil => h (List.append_eq_nil_iff.mp hnil).2
    cases t with
    | file content =>
      obtain ⟨name', path', hpath⟩ := List.exists_cons_of_ne_nil hbelow
      rw [List.cons_append, hpath]
      rfl
    | directory entries =>
      rw [List.cons_append, alter_cons hbelow, follow_cons_directory]
      split
      · rcases Entries.get? name entries with _ | u
        · rfl
        · refine Eq.trans ?_ ih
          change outcome (alter change (path ++ rest) u >>= _) = _
          cases alter change (path ++ rest) u <;> rfl
      · rfl

/-! ### Writing, removing and moving files -/

/-- A file that is written has its content afterwards, at a path where no directory was. -/
theorem look_writeFile (h : t.writeFile path content = .ok t') :
    FilePath.check path = .ok () ∧ (∀ name ∈ path, isShort name) ∧ look path t ≠ .ok none ∧
      look path t' = .ok (some content) ∧ ∀ q, ¬ path <+: q → look q t' = look q t := by
  obtain ⟨_, hcheck, h⟩ := Outcome.bind_eq_ok_iff.mp h
  obtain ⟨old, new, hchange, ⟨hold, hnew, hothers⟩, hshort⟩ := alters_of_alter h
  rw [hold, hnew]
  split at hchange
  · cases hchange
  · rename_i hfile
    obtain rfl := Except.ok.inj hchange
    refine ⟨hcheck, hshort, ?_, rfl, hothers⟩
    rcases old with _ | _ | entries
    · exact nofun
    · exact nofun
    · exact absurd rfl (hfile entries)

/-- Where a file is removed there was one, and nothing is left. -/
theorem look_removeFile (h : t.removeFile path = .ok t') :
    (∃ content, look path t = .ok (some content)) ∧ look path t' = .error .notFound ∧
      ∀ q, ¬ path <+: q → look q t' = look q t := by
  obtain ⟨-, -, h⟩ := Outcome.bind_eq_ok_iff.mp h
  obtain ⟨old, new, hchange, ⟨hold, hnew, hothers⟩, -⟩ := alters_of_alter h
  rw [hold, hnew]
  split at hchange
  · rename_i content
    obtain rfl := Except.ok.inj hchange
    exact ⟨⟨content, rfl⟩, rfl, hothers⟩
  · cases hchange
  · cases hchange

/-- A file that is moved stands at its new path, with its content, and no longer at the old one. -/
theorem look_rename {source target : List String} (h : t.rename source target = .ok t')
    (hsource : ¬ source <+: target) :
    ∃ content, look source t = .ok (some content) ∧ look target t ≠ .ok none ∧
      look target t' = .ok (some content) ∧ look source t' = .error .notFound ∧
      ∀ q, ¬ source <+: q → ¬ target <+: q → look q t' = look q t := by
  obtain ⟨content, hread, h⟩ := Outcome.bind_eq_ok_iff.mp h
  obtain ⟨u, hwrite, hremove⟩ := Outcome.bind_eq_ok_iff.mp h
  obtain ⟨-, -, hfree, hwritten, hothers⟩ := look_writeFile hwrite
  obtain ⟨-, hgone, hothers'⟩ := look_removeFile hremove
  refine ⟨content, (readFile_ok_iff.mp hread).2, hfree, ?_, hgone, fun q hq hq' => ?_⟩
  · rw [hothers' target hsource, hwritten]
  · rw [hothers' q hq, hothers q hq']

/-- A file can be written where its directory is, if no directory has its name. -/
theorem writeFile_ok_iff :
    (∃ t', t.writeFile (path ++ [name]) content = .ok t') ↔
      FilePath.check (path ++ [name]) = .ok () ∧ look path t = .ok none ∧ isShort name ∧
        look (path ++ [name]) t ≠ .ok none := by
  constructor
  · rintro ⟨t', h⟩
    obtain ⟨hcheck, hshort, hfree, -, -⟩ := look_writeFile h
    refine ⟨hcheck, ?_, hshort name (by simp), hfree⟩
    obtain ⟨-, -, h⟩ := Outcome.bind_eq_ok_iff.mp h
    have houtcome := outcome_ok_iff.mpr ⟨t', h⟩
    rw [outcome_alter_append (List.cons_ne_nil _ _)] at houtcome
    obtain ⟨u, hfollow, houtcome⟩ := Outcome.bind_eq_ok_iff.mp houtcome
    cases u with
    | file content => cases houtcome
    | directory entries =>
      rw [look, hfollow]
      rfl
  · rintro ⟨hcheck, hparent, hshort, hfree⟩
    obtain ⟨entries, hfollow⟩ := follow_of_look hparent
    rw [look_append, hfollow, Outcome.ok_bind, look_cons_directory, if_pos hshort] at hfree
    unfold writeFile alterAt
    rw [hcheck, Outcome.ok_bind]
    rw [← outcome_ok_iff, outcome_alter_append (List.cons_ne_nil _ _), hfollow, Outcome.ok_bind,
      alter_singleton, if_pos hshort]
    rcases hget : Entries.get? name entries with _ | _ | entries' <;> rw [hget] at hfree
    · rfl
    · rfl
    · exact absurd rfl hfree

/-- A file that is there can be removed. -/
theorem removeFile_ok (hcheck : FilePath.check (path ++ [name]) = .ok ())
    (h : look (path ++ [name]) t = .ok (some content)) :
    ∃ t', t.removeFile (path ++ [name]) = .ok t' := by
  obtain ⟨entries, hfollow⟩ := follow_of_look (look_of_look_append h)
  rw [look_append, hfollow, Outcome.ok_bind, look_cons_directory] at h
  unfold removeFile alterAt
  rw [hcheck, Outcome.ok_bind, ← outcome_ok_iff, outcome_alter_append (List.cons_ne_nil _ _),
    hfollow, Outcome.ok_bind, alter_singleton]
  split at h
  · rename_i hshort
    rw [if_pos hshort]
    rcases hget : Entries.get? name entries with _ | _ | entries' <;> rw [hget] at h
    · cases h
    · rfl
    · cases Except.ok.inj h
  · cases h

/-- A file that is not there cannot be removed, which is found out as it is when looking. -/
theorem removeFile_notFound (hcheck : FilePath.check (path ++ [name]) = .ok ())
    (h : look (path ++ [name]) t = .error .notFound) :
    t.removeFile (path ++ [name]) = .error .notFound := by
  unfold removeFile alterAt
  rw [hcheck, Outcome.ok_bind, ← outcome_error_iff,
    outcome_alter_append (List.cons_ne_nil _ _)]
  rw [look_append] at h
  rcases hfollow : follow path t with e' | _ | entries <;> rw [hfollow] at h
  · obtain rfl := Except.error.inj h
    rfl
  · cases h
  · rw [Outcome.ok_bind, look_cons_directory] at h
    rw [Outcome.ok_bind, alter_singleton]
    split at h
    · rename_i hshort
      rw [if_pos hshort]
      rcases hget : Entries.get? name entries with _ | u <;> rw [hget] at h
      · rfl
      · cases h
    · cases h

/-- A file can be moved to another name in a directory, if no directory has that name. -/
theorem rename_ok {name' : String} (hsource : FilePath.check (path ++ [name]) = .ok ())
    (htarget : FilePath.check (path ++ [name']) = .ok ()) (hshort : isShort name')
    (h : look (path ++ [name]) t = .ok (some content)) (hfree : look (path ++ [name']) t ≠ .ok none)
    (hname : name' ≠ name) : ∃ t', t.rename (path ++ [name]) (path ++ [name']) = .ok t' := by
  obtain ⟨u, hwrite⟩ : ∃ u, t.writeFile (path ++ [name']) content = .ok u :=
    writeFile_ok_iff.mpr ⟨htarget, look_of_look_append h, hshort, hfree⟩
  obtain ⟨-, -, -, -, hothers⟩ := look_writeFile hwrite
  have hsame : look (path ++ [name]) u = look (path ++ [name]) t := hothers _ fun hwithin =>
    hname (List.singleton_inj.mp (List.append_inj' (hwithin.eq_of_length (by simp)) rfl).2)
  obtain ⟨t', hremove⟩ := removeFile_ok hsource (hsame.trans h)
  refine ⟨t', ?_⟩
  rw [rename, readFile_ok_iff.mpr ⟨hsource, h⟩, Outcome.ok_bind, hwrite, Outcome.ok_bind, hremove]

/-! ### Making directories -/

theorem look_empty : look (name :: rest) empty =
    if isShort name then .error .notFound else .error .tooLong :=
  look_cons_directory

theorem extendPath_cons :
    extendPath (name :: path) (directory entries) =
      if isShort name then
        ((extendPath path ((Entries.get? name entries).getD empty)).1,
          directory (Entries.insert name
            (extendPath path ((Entries.get? name entries).getD empty)).2 entries))
      else (.error .tooLong, directory entries) := by
  rw [extendPath, ite_not]

/-- Where making directories along a path is seen: a directory has come where nothing was, or,
behind a new directory, a name turns out to be too long that was not reached before. -/
def Extended (path q : List String) (seen : Except FileError (Option ByteArray)) : Prop :=
  q <+: path ∧ seen = .ok none ∨ (¬ ∀ name ∈ q, isShort name) ∧ seen = .error .tooLong

theorem Extended.cons {seen : Except FileError (Option ByteArray)} (h : Extended path q seen) :
    Extended (name :: path) (name :: q) seen := by
  refine h.imp (fun h => ⟨List.cons_prefix_cons.mpr ⟨rfl, h.1⟩, h.2⟩) fun h => ⟨fun hall => ?_, h.2⟩
  exact h.1 (List.forall_mem_cons.mp hall).2

/-- Making the directories along a path is seen only where nothing was. -/
theorem look_extendPath (path q : List String) (t : FileTree) :
    look q (extendPath path t).2 = look q t ∨
      look q t = .error .notFound ∧ Extended path q (look q (extendPath path t).2) := by
  induction path generalizing q t with
  | nil => cases t <;> exact .inl rfl
  | cons name path ih =>
    cases t with
    | file content => exact .inl rfl
    | directory entries =>
    rw [extendPath_cons]
    split
    · rename_i hshort
      rcases q with _ | ⟨name', q⟩
      · exact .inl rfl
      by_cases hname : name = name'
      · subst name'
        have hget := Entries.get?_insert name name
          (extendPath path ((Entries.get? name entries).getD empty)).2 entries
        rw [if_pos rfl] at hget
        rw [look_of_get? hshort hget]
        rcases hold : Entries.get? name entries with _ | u
        -- The directory of this name is new, so behind it all is as in an empty one.
        · rw [look_of_get?_eq_none hshort hold]
          rcases ih q empty with hsame | ⟨-, h⟩
          · rw [Option.getD_none, hsame]
            rcases q with _ | ⟨name', q⟩
            · exact .inr ⟨rfl, .inl ⟨⟨path, rfl⟩, rfl⟩⟩
            · rw [look_empty]
              split
              · exact .inl rfl
              · rename_i hlong
                exact .inr ⟨rfl, .inr ⟨fun hall => hlong (hall name' (by simp)), rfl⟩⟩
          · exact .inr ⟨rfl, h.cons⟩
        · rw [look_of_get? hshort hold]
          exact (ih q u).imp id fun ⟨hnone, h⟩ => ⟨hnone, h.cons⟩
      · refine .inl (look_congr ?_)
        rw [Entries.get?_insert, if_neg hname]
    · exact .inl rfl

/-- Directories can be made along a path of short names on which no file stands. -/
theorem extendPath_ok (hshort : ∀ name ∈ path, isShort name)
    (hfree : ∀ q, q <+: path → look q t = .ok none ∨ look q t = .error .notFound) :
    (extendPath path t).1 = .ok () := by
  induction path generalizing t with
  | nil =>
    cases t with
    | file content => simpa using hfree [] List.prefix_rfl
    | directory entries => rfl
  | cons name path ih =>
    rw [List.forall_mem_cons] at hshort
    cases t with
    | file content => simpa using hfree [] List.nil_prefix
    | directory entries =>
      rw [extendPath_cons, if_pos hshort.1]
      refine ih hshort.2 fun q hq => ?_
      have hbelow := hfree (name :: q) (List.cons_prefix_cons.mpr ⟨rfl, hq⟩)
      rcases hget : Entries.get? name entries with _ | u
      -- A new directory has nothing in it that could be in the way.
      · rw [Option.getD_none]
        rcases q with _ | ⟨name', q⟩
        · exact .inl rfl
        · have hshort' := hshort.2 name' (hq.subset (by simp))
          exact .inr (by rw [look_empty, if_pos hshort'])
      · rwa [look_of_get? hshort.1 hget] at hbelow

/-- Where directories have been made, there are directories. -/
theorem look_of_extendPath_ok (h : (extendPath path t).1 = .ok ()) :
    look path (extendPath path t).2 = .ok none := by
  induction path generalizing t with
  | nil =>
    cases t with
    | file content => cases h
    | directory entries => rfl
  | cons name path ih =>
    cases t with
    | file content => cases h
    | directory entries =>
      rw [extendPath_cons] at h ⊢
      split at h
      · rename_i hshort
        rw [if_pos hshort, look_of_get? hshort (by rw [Entries.get?_insert, if_pos rfl])]
        exact ih h
      · cases h

theorem makeDirectories_eq (hcheck : FilePath.check path = .ok ()) :
    t.makeDirectories path = extendPath path t := by
  rw [makeDirectories, hcheck]

theorem look_makeDirectories (path q : List String) (t : FileTree) :
    look q (t.makeDirectories path).2 = look q t ∨
      look q t = .error .notFound ∧ Extended path q (look q (t.makeDirectories path).2) := by
  unfold makeDirectories
  split
  · exact look_extendPath path q t
  · exact .inl rfl

/-- A directory that is there after making some was there, or is one of them. -/
theorem look_of_makeDirectories (h : look q (t.makeDirectories path).2 = .ok none) :
    look q t = .ok none ∨ q <+: path := by
  rcases look_makeDirectories path q t with hsame | ⟨-, ⟨hwithin, -⟩ | ⟨-, hlong⟩⟩
  · exact .inl (hsame.symm.trans h)
  · exact .inr hwithin
  · rw [h] at hlong
    cases hlong

theorem look_makeDirectories_of_directory (h : look q t = .ok none) :
    look q (t.makeDirectories path).2 = .ok none := by
  rcases look_makeDirectories path q t with hsame | ⟨hnone, -⟩
  · exact hsame.trans h
  · rw [h] at hnone
    cases hnone

/-! ### Files and directories that stay -/

/-- The files of two trees are the same, but for those at the given paths. -/
def SameFiles (paths : List (List String)) (t t' : FileTree) : Prop :=
  ∀ q, q ∉ paths → ∀ content, look q t' = .ok (some content) ↔ look q t = .ok (some content)

variable {paths : List (List String)}

theorem SameFiles.refl (t : FileTree) : SameFiles paths t t := fun _ _ _ => Iff.rfl

theorem SameFiles.trans {t'' : FileTree} (h : SameFiles paths t t') (h' : SameFiles paths t' t'') :
    SameFiles paths t t'' :=
  fun q hq content => (h' q hq content).trans (h q hq content)

theorem SameFiles.mono {paths' : List (List String)} (h : SameFiles paths t t')
    (hpaths : paths ⊆ paths') : SameFiles paths' t t' :=
  fun q hq => h q fun hmem => hq (hpaths hmem)

/-- The directories of two trees are the same. -/
def SameDirectories (t t' : FileTree) : Prop := ∀ q, look q t' = .ok none ↔ look q t = .ok none

theorem SameDirectories.trans {t'' : FileTree} (h : SameDirectories t t')
    (h' : SameDirectories t' t'') : SameDirectories t t'' := fun q => (h' q).trans (h q)

section Unchanged

variable (hold : look path t ≠ .ok none) (hnew : look path t' ≠ .ok none)
  (hothers : ∀ q, ¬ path <+: q → look q t' = look q t)

include hold hnew hothers

/-- A change at a path where no directory was and none is leaves what stands elsewhere. -/
theorem look_eq_ok_iff_of_ne (hq : q ≠ path) {x : Option ByteArray} :
    look q t' = .ok x ↔ look q t = .ok x := by
  by_cases hwithin : path <+: q
  · obtain ⟨_ | ⟨name, rest⟩, rfl⟩ := hwithin
    · exact absurd (List.append_nil path) hq
    -- Behind the path something stands only if the path is a directory, which it never is.
    · exact ⟨fun h => absurd (look_of_look_append h) hnew,
        fun h => absurd (look_of_look_append h) hold⟩
  · rw [hothers q hwithin]

theorem sameFiles_of_look : SameFiles [path] t t' := fun _ hq _ =>
  look_eq_ok_iff_of_ne hold hnew hothers fun heq => hq (List.mem_singleton.mpr heq)

theorem sameDirectories_of_look : SameDirectories t t' := by
  intro q
  by_cases hq : q = path
  · subst q
    exact ⟨fun h => absurd h hnew, fun h => absurd h hold⟩
  · exact look_eq_ok_iff_of_ne hold hnew hothers hq

end Unchanged

theorem sameFiles_writeFile (h : t.writeFile path content = .ok t') : SameFiles [path] t t' := by
  obtain ⟨-, -, hfree, hwritten, hothers⟩ := look_writeFile h
  exact sameFiles_of_look hfree (by rw [hwritten]; nofun) hothers

theorem sameFiles_removeFile (h : t.removeFile path = .ok t') : SameFiles [path] t t' := by
  obtain ⟨⟨content, hold⟩, hgone, hothers⟩ := look_removeFile h
  exact sameFiles_of_look (by rw [hold]; nofun) (by rw [hgone]; nofun) hothers

theorem sameFiles_rename {source target : List String} (h : t.rename source target = .ok t') :
    SameFiles [source, target] t t' := by
  obtain ⟨_, -, h⟩ := Outcome.bind_eq_ok_iff.mp h
  obtain ⟨u, hwrite, hremove⟩ := Outcome.bind_eq_ok_iff.mp h
  exact ((sameFiles_writeFile hwrite).mono (by simp)).trans
    ((sameFiles_removeFile hremove).mono (by simp))

theorem sameDirectories_writeFile (h : t.writeFile path content = .ok t') :
    SameDirectories t t' := by
  obtain ⟨-, -, hfree, hwritten, hothers⟩ := look_writeFile h
  exact sameDirectories_of_look hfree (by rw [hwritten]; nofun) hothers

theorem sameDirectories_removeFile (h : t.removeFile path = .ok t') : SameDirectories t t' := by
  obtain ⟨⟨content, hold⟩, hgone, hothers⟩ := look_removeFile h
  exact sameDirectories_of_look (by rw [hold]; nofun) (by rw [hgone]; nofun) hothers

theorem sameDirectories_rename {source target : List String}
    (h : t.rename source target = .ok t') : SameDirectories t t' := by
  obtain ⟨_, -, h⟩ := Outcome.bind_eq_ok_iff.mp h
  obtain ⟨u, hwrite, hremove⟩ := Outcome.bind_eq_ok_iff.mp h
  exact (sameDirectories_writeFile hwrite).trans (sameDirectories_removeFile hremove)

theorem sameFiles_makeDirectories (path : List String) (t : FileTree) :
    SameFiles [] t (t.makeDirectories path).2 := by
  intro q _ content
  rcases look_makeDirectories path q t with h | ⟨hnone, ⟨-, h⟩ | ⟨-, h⟩⟩
  · rw [h]
  · rw [h, hnone]
    exact ⟨nofun, nofun⟩
  · rw [h, hnone]
    exact ⟨nofun, nofun⟩

end IdleGame.FileTree
