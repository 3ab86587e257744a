import IdleGame.Proofs.Store
import IdleGame.Proofs.Store.Files

/-!
# Files in place of memory

A store in files answers as one in memory for keys whose files a file system can have and do not
stand in each other's way: where one key has its file, or writes it before it gets its name, another
may need a directory.

## Main definitions

* `StoreCall.answer`, `answers` - what a store answers to calls
* `StoreCall.expected`, `expectedAnswers` - the bytes last written and not removed
* `FileStore.Compatible` - keys that fit and do not obstruct each other

## Main results

* `answers_memoryStore` - a store in memory answers as expected
* `FileStore.Compatible.answers` - a store in files does so for compatible keys
* `FileStore.interchangeable_iff` - and only for those
* `FileStore.compatible_of_depth` - keys that lie equally deep do not obstruct each other
-/

namespace IdleGame

open FilePath (isShort)

/-- A call of a store. -/
inductive StoreCall where
  | read (key : String)
  | write (key : String) (bytes : ByteArray)
  | remove (key : String)
  | contains (key : String)

/-- What a store answers to a call. -/
inductive StoreAnswer where
  | read (result : Except StoreError (Option ByteArray))
  | done (result : Except StoreError Unit)
  | contains (result : Except StoreError Bool)

namespace StoreCall

/-- The key that a call is about. -/
def key : StoreCall → String
  | read key | write key _ | remove key | contains key => key

/-- The answer of a store to a call, and the store afterwards. -/
def answer {σ : Type} [SaveStore σ] (store : σ) : StoreCall → StoreAnswer × σ
  | read key => (.read (SaveStore.read store key), store)
  | write key bytes =>
    (.done (SaveStore.write store key bytes).1, (SaveStore.write store key bytes).2)
  | remove key => (.done (SaveStore.remove store key).1, (SaveStore.remove store key).2)
  | contains key => (.contains (SaveStore.contains store key), store)

/-- What the keys hold after a call. -/
def leave (held : String → Option ByteArray) : StoreCall → String → Option ByteArray
  | write key bytes => fun key' => if key' = key then some bytes else held key'
  | remove key => fun key' => if key' = key then none else held key'
  | read _ | contains _ => held

theorem leave_write {held : String → Option ByteArray} {key key' : String} {bytes : ByteArray} :
    leave held (write key bytes) key' = if key' = key then some bytes else held key' := rfl

theorem leave_remove {held : String → Option ByteArray} {key key' : String} :
    leave held (remove key) key' = if key' = key then none else held key' := rfl

/-- The answer that keys which hold what they do should give. -/
def expected (held : String → Option ByteArray) : StoreCall → StoreAnswer
  | read key => .read (.ok (held key))
  | write _ _ | remove _ => .done (.ok ())
  | contains key => .contains (.ok (held key).isSome)

end StoreCall

/-- The answers of a store to calls. -/
def answers {σ : Type} [SaveStore σ] : List StoreCall → σ → List StoreAnswer
  | [], _ => []
  | call :: calls, store => (call.answer store).1 :: answers calls (call.answer store).2

/-- The answers to calls when the keys hold what they do. -/
def expectedAnswers : List StoreCall → (String → Option ByteArray) → List StoreAnswer
  | [], _ => []
  | call :: calls, held => call.expected held :: expectedAnswers calls (call.leave held)

/-- A store that holds what it should, and goes on doing so, answers as expected. -/
theorem answers_eq_expectedAnswers {σ : Type} [SaveStore σ] {calls : List StoreCall}
    {held : String → Option ByteArray} {store : σ} (good : (String → Option ByteArray) → σ → Prop)
    (hstep : ∀ call ∈ calls, ∀ held store, good held store →
      (call.answer store).1 = call.expected held ∧ good (call.leave held) (call.answer store).2)
    (h : good held store) : answers calls store = expectedAnswers calls held := by
  induction calls generalizing held store with
  | nil => rfl
  | cons call calls ih =>
    rw [List.forall_mem_cons] at hstep
    obtain ⟨hanswer, hgood⟩ := hstep.1 held store h
    rw [answers, expectedAnswers, hanswer, ih hstep.2 hgood]

/-- A store in memory gives back what was last written and not removed. -/
theorem answers_memoryStore (calls : List StoreCall) :
    answers calls MemoryStore.empty = expectedAnswers calls fun _ => none := by
  refine answers_eq_expectedAnswers (fun held store => ∀ key, store.slots.get? key = held key) ?_
    fun _ => rfl
  intro call _ held store hheld
  cases call with
  | read key => exact ⟨congrArg (fun x => StoreAnswer.read (.ok x)) (hheld key), hheld⟩
  | contains key =>
    exact ⟨congrArg (fun x : Option ByteArray => StoreAnswer.contains (.ok x.isSome)) (hheld key),
      hheld⟩
  | write key bytes =>
    refine ⟨rfl, fun key' => ?_⟩
    change (store.slots.insert key bytes).get? key' = _
    rw [Table.get?_insert, hheld, StoreCall.leave_write]
    simp only [eq_comm]
  | remove key =>
    refine ⟨rfl, fun key' => ?_⟩
    change (store.slots.erase key).get? key' = _
    rw [StoreCall.leave_remove]
    split
    · subst key'
      exact Table.get?_erase_self
    · rename_i hkey
      rw [Table.get?_erase_of_ne hkey, hheld]

namespace FileStore

variable {keys : String → Prop} {held : String → Option ByteArray} {key key' name name' : String}
  {parent parent' q : List String} {bytes content : ByteArray} {s s' : FileStore}

/-- A key fits: it has a file, and the names that lead to it and the other one that it is written
under are accepted by a file system. -/
def Fits (key : String) : Prop :=
  ∃ parent name, Filed key parent name ∧ FilePath.check (parent ++ [draftName name]) = .ok () ∧
    ∀ part ∈ parent ++ [draftName name], isShort part

/-- The file of a key, or the one that it is written to at first, stands where another key needs a
directory. -/
def Obstructs (key key' : String) : Prop :=
  ∃ parent name parent' name', Filed key parent name ∧ Filed key' parent' name' ∧
    (parent ++ [fileName name] <+: parent' ∨ parent ++ [draftName name] <+: parent')

/-- Keys that fit and do not obstruct each other. -/
structure Compatible (keys : String → Prop) : Prop where
  fits (key : String) : keys key → Fits key
  apart (key key' : String) : keys key → keys key' → ¬ Obstructs key key'

/-- Keys that lie equally deep, such as the slots of games, do not obstruct each other. -/
theorem compatible_of_depth {depth : Nat} (hfits : ∀ key, keys key → Fits key)
    (hdepth : ∀ key parent name, keys key → Filed key parent name → parent.length = depth) :
    Compatible keys := by
  refine ⟨hfits, fun key key' hkey hkey' => ?_⟩
  rintro ⟨parent, name, parent', name', hfiled, hfiled', hwithin⟩
  have hlength := hdepth key parent name hkey hfiled
  have hlength' := hdepth key' parent' name' hkey' hfiled'
  rcases hwithin with hwithin | hwithin
  all_goals
    have hle := hwithin.length_le
    rw [List.length_append, List.length_singleton] at hle
    omega

/-- The files of a store are those of the keys that hold something, and its directories lead to
files of keys. -/
structure Holds (keys : String → Prop) (held : String → Option ByteArray) (s : FileStore) :
    Prop where
  files (q : List String) (content : ByteArray) : s.root.look q = .ok (some content) ↔
    ∃ key parent name, keys key ∧ Filed key parent name ∧ q = parent ++ [fileName name] ∧
      held key = some content
  directories (q : List String) (h : s.root.look q = .ok none) :
    q = [] ∨ ∃ key parent name, keys key ∧ Filed key parent name ∧ q <+: parent

theorem holds_empty : Holds keys (fun _ => none) FileStore.empty where
  files q content := by
    refine ⟨fun h => ?_, fun ⟨_, _, _, _, _, _, h⟩ => by cases h⟩
    rcases q with _ | ⟨name, q⟩
    · cases h
    · change FileTree.look (name :: q) .empty = _ at h
      rw [FileTree.look_empty] at h
      split at h <;> cases h
  directories q h := by
    rcases q with _ | ⟨name, q⟩
    · exact .inl rfl
    · change FileTree.look (name :: q) .empty = _ at h
      rw [FileTree.look_empty] at h
      split at h <;> cases h

section Compatible

variable (hkeys : Compatible keys) (hheld : Holds keys held s) (hkey : keys key)
  (hfiled : Filed key parent name)

include hkeys hkey hfiled

/-- What the files of a key that fits need of a file system. -/
theorem Compatible.accepted :
    FilePath.check (parent ++ [draftName name]) = .ok () ∧
      FilePath.check (parent ++ [fileName name]) = .ok () ∧ FilePath.check parent = .ok () ∧
      (∀ part ∈ parent, isShort part) ∧ isShort (fileName name) ∧ isShort (draftName name) := by
  obtain ⟨parent', name', hfiled', hcheck, hshort⟩ := hkeys.fits key hkey
  obtain ⟨rfl, rfl⟩ := hfiled.unique hfiled'
  have hdraft : isShort (draftName name) := hshort _ (by simp)
  have hcheck' := hcheck
  rw [draftName_eq] at hcheck'
  obtain ⟨hfile, hparent⟩ := FilePath.check_of_concat_append hcheck'
  refine ⟨hcheck, hfile, hparent, fun part hpart => hshort part (by simp [hpart]), ?_, hdraft⟩
  rw [draftName_eq] at hdraft
  exact FilePath.isShort_of_append hdraft

include hheld

/-- No file of a key stands where another key needs a directory. -/
theorem Holds.not_file (hq : q <+: parent) : s.root.look q ≠ .ok (some content) := by
  intro h
  obtain ⟨key', parent', name', hkey', hfiled', rfl, -⟩ := (hheld.files q content).mp h
  exact hkeys.apart key' key hkey' hkey ⟨parent', name', parent, name, hfiled', hfiled, .inl hq⟩

/-- The directories that lead to the file of a key are there or missing. -/
theorem Holds.look_of_prefix (hq : q <+: parent) :
    s.root.look q = .ok none ∨ s.root.look q = .error .notFound := by
  obtain ⟨-, -, -, hshort, -⟩ := hkeys.accepted hkey hfiled
  refine FileTree.look_of_no_file (fun part hpart => hshort part (hq.subset hpart)) ?_
  exact fun q' hq' content => hheld.not_file hkeys hkey hfiled (hq'.trans hq)

/-- No directory stands at the files of a key. -/
theorem Holds.not_directory :
    s.root.look (parent ++ [fileName name]) ≠ .ok none ∧
      s.root.look (parent ++ [draftName name]) ≠ .ok none := by
  constructor <;> intro h
  all_goals
    rcases hheld.directories _ h with hnil | ⟨key', parent', name', hkey', hfiled', hq⟩
    · exact List.append_ne_nil_of_right_ne_nil parent (List.cons_ne_nil _ _) hnil
  · exact hkeys.apart key key' hkey hkey' ⟨parent, name, parent', name', hfiled, hfiled', .inl hq⟩
  · exact hkeys.apart key key' hkey hkey' ⟨parent, name, parent', name', hfiled, hfiled', .inr hq⟩

/-- At the file of a key stands what the key holds. -/
theorem Holds.look_path :
    s.root.look (parent ++ [fileName name]) =
      match held key with
      | some content => .ok (some content)
      | none => .error .notFound := by
  split
  · rename_i content hcontent
    exact (hheld.files _ content).mpr ⟨key, parent, name, hkey, hfiled, rfl, hcontent⟩
  · rename_i hnone
    obtain ⟨-, -, -, hshort, hfile, -⟩ := hkeys.accepted hkey hfiled
    have hdirectory := (hheld.not_directory hkeys hkey hfiled).1
    refine (FileTree.look_of_no_file ?_ fun q hq content h => ?_).resolve_left hdirectory
    · simpa [or_imp, forall_and] using ⟨hshort, hfile⟩
    -- A file at the path itself is that of the key, and above it no other key has one.
    · rcases List.prefix_concat_iff.mp hq with rfl | hq
      · obtain ⟨key', parent', name', -, hfiled', hpath, hcontent⟩ := (hheld.files _ content).mp h
        obtain rfl := hfiled.key_eq_of_path_eq hfiled' hpath
        rw [hnone] at hcontent
        cases hcontent
      · exact hheld.not_file hkeys hkey hfiled hq h

end Compatible

/-! ### Reading -/

theorem Holds.readFile_eq (hkeys : Compatible keys) (hheld : Holds keys held s) (hkey : keys key)
    (hfiled : Filed key parent name) :
    s.root.readFile (parent ++ [fileName name]) =
      match held key with
      | some content => .ok content
      | none => .error .notFound := by
  obtain ⟨-, hcheck, -⟩ := hkeys.accepted hkey hfiled
  rw [FileTree.readFile_eq, hcheck, hheld.look_path hkeys hkey hfiled]
  cases held key <;> rfl

theorem Holds.read_eq (hkeys : Compatible keys) (hheld : Holds keys held s) (hkey : keys key) :
    s.read key = .ok (held key) := by
  obtain ⟨parent, name, hfiled, -⟩ := hkeys.fits key hkey
  rw [read_of_path? hfiled.path?, hheld.readFile_eq hkeys hkey hfiled]
  cases held key <;> rfl

theorem Holds.contains_eq (hkeys : Compatible keys) (hheld : Holds keys held s) (hkey : keys key) :
    SaveStore.contains s key = .ok (held key).isSome := by
  obtain ⟨parent, name, hfiled, -⟩ := hkeys.fits key hkey
  refine (onPath_of_path? hfiled.path?).trans ?_
  rw [FileTree.hasFile, hheld.readFile_eq hkeys hkey hfiled]
  cases held key <;> rfl

/-! ### Writing and removing -/

/-- What a write that succeeds needs: the names are accepted, and no directory is in the way. -/
theorem write_needs (hfiled : Filed key parent name) (h : s.write key bytes = (.ok (), s')) :
    FilePath.check (parent ++ [draftName name]) = .ok () ∧
      (∀ part ∈ parent ++ [draftName name], isShort part) ∧
      s.root.look (parent ++ [fileName name]) ≠ .ok none ∧
      s.root.look (parent ++ [draftName name]) ≠ .ok none := by
  obtain ⟨u, v, hmake, hwrite, hmove⟩ := (write_ok_iff hfiled.path? hfiled.draftPath?).mp h
  obtain rfl : (s.root.makeDirectories _).2 = u := congrArg Prod.snd hmake
  obtain ⟨hcheck, hshort, hdraft, -⟩ := FileTree.look_writeFile hwrite
  obtain ⟨-, -, hpath, -⟩ := FileTree.look_rename hmove draft_not_prefix
  refine ⟨hcheck, hshort, fun hdirectory => hpath ?_, fun hdirectory => hdraft ?_⟩
  · rw [FileTree.sameDirectories_writeFile hwrite]
    exact FileTree.look_makeDirectories_of_directory hdirectory
  · exact FileTree.look_makeDirectories_of_directory hdirectory

/-- What a write that succeeds does: the file of the key has the bytes, other files are as before,
and new directories lead to that file. -/
theorem write_effect (hfiled : Filed key parent name) (h : s.write key bytes = (.ok (), s')) :
    s'.root.look (parent ++ [fileName name]) = .ok (some bytes) ∧
      s'.root.look (parent ++ [draftName name]) = .error .notFound ∧
      FileTree.SameFiles [parent ++ [draftName name], parent ++ [fileName name]] s.root s'.root ∧
      ∀ q, s'.root.look q = .ok none → s.root.look q = .ok none ∨ q <+: parent := by
  obtain ⟨u, v, hmake, hwrite, hmove⟩ := (write_ok_iff hfiled.path? hfiled.draftPath?).mp h
  obtain rfl : (s.root.makeDirectories _).2 = u := congrArg Prod.snd hmake
  obtain ⟨-, -, -, hcontent, -⟩ := FileTree.look_writeFile hwrite
  obtain ⟨bytes', hbytes, -, hmoved, hgone, -⟩ := FileTree.look_rename hmove draft_not_prefix
  rw [hcontent] at hbytes
  obtain rfl := Option.some.inj (Except.ok.inj hbytes)
  refine ⟨hmoved, hgone, ?_, fun q hq => ?_⟩
  · refine .trans ?_ (FileTree.sameFiles_rename hmove)
    exact ((FileTree.sameFiles_makeDirectories _ _).mono (List.nil_subset _)).trans
      ((FileTree.sameFiles_writeFile hwrite).mono (by simp))
  · rw [FileTree.sameDirectories_rename hmove, FileTree.sameDirectories_writeFile hwrite] at hq
    have hq' := FileTree.look_of_makeDirectories hq
    rwa [FileStore.parent, List.dropLast_concat] at hq'

section Compatible

variable (hkeys : Compatible keys) (hheld : Holds keys held s) (hkey : keys key)
  (hfiled : Filed key parent name)

include hkeys hheld hkey hfiled

/-- Compatible keys can be written. -/
theorem Holds.write_ok : ∃ s', s.write key bytes = (.ok (), s') := by
  obtain ⟨hcheckDraft, hcheckFile, hcheck, hshort, hfile, hdraft⟩ := hkeys.accepted hkey hfiled
  obtain ⟨hfree, hfreeDraft⟩ := hheld.not_directory hkeys hkey hfiled
  have hmake : (s.root.makeDirectories parent).1 = .ok () := by
    rw [FileTree.makeDirectories_eq hcheck]
    exact FileTree.extendPath_ok hshort fun q hq => hheld.look_of_prefix hkeys hkey hfiled hq
  have hparent : (s.root.makeDirectories parent).2.look parent = .ok none := by
    rw [FileTree.makeDirectories_eq hcheck] at hmake ⊢
    exact FileTree.look_of_extendPath_ok hmake
  -- The new directories end above the two files.
  have hmade (last : String) (h : s.root.look (parent ++ [last]) ≠ .ok none) :
      (s.root.makeDirectories parent).2.look (parent ++ [last]) ≠ .ok none := fun hdirectory =>
    (FileTree.look_of_makeDirectories hdirectory).elim h not_concat_prefix
  obtain ⟨v, hwrite⟩ := FileTree.writeFile_ok_iff.mpr
    ⟨hcheckDraft, hparent, hdraft, hmade (draftName name) hfreeDraft⟩
  have hpath : v.look (parent ++ [fileName name]) ≠ .ok none := by
    rw [Ne, FileTree.sameDirectories_writeFile hwrite]
    exact hmade (fileName name) hfree
  obtain ⟨-, -, -, hcontent, -⟩ := FileTree.look_writeFile hwrite
  obtain ⟨t, hmove⟩ := FileTree.rename_ok hcheckDraft hcheckFile hfile hcontent hpath
    draftName_ne_fileName.symm
  refine ⟨⟨t⟩, (write_ok_iff hfiled.path? hfiled.draftPath?).mpr ⟨_, v, ?_, hwrite, hmove⟩⟩
  rw [FileStore.parent, List.dropLast_concat, ← hmake]

end Compatible

/-- What a change of the file of a key, and of no other, makes of what the keys hold. -/
theorem Holds.change {new : Option ByteArray} (hheld : Holds keys held s) (hkey : keys key)
    (hfiled : Filed key parent name)
    (hpath : ∀ content, s'.root.look (parent ++ [fileName name]) = .ok (some content) ↔
      new = some content)
    (hothers : FileTree.SameFiles [parent ++ [fileName name]] s.root s'.root)
    (hdirectories : ∀ q, s'.root.look q = .ok none → s.root.look q = .ok none ∨ q <+: parent) :
    Holds keys (fun key' => if key' = key then new else held key') s' := by
  refine ⟨fun q content => ?_, fun q hq => ?_⟩
  · by_cases hq : q = parent ++ [fileName name]
    · subst q
      rw [hpath]
      constructor
      · exact fun h => ⟨key, parent, name, hkey, hfiled, rfl, (if_pos rfl).trans h⟩
      · rintro ⟨key', parent', name', -, hfiled', hq, hcontent⟩
        obtain rfl := hfiled.key_eq_of_path_eq hfiled' hq
        exact (if_pos rfl).symm.trans hcontent
    · rw [hothers q (by simpa using hq), hheld.files]
      refine exists_congr fun key' => exists_congr fun parent' => exists_congr fun name' => ?_
      refine and_congr_right fun _ => and_congr_right fun hfiled' => and_congr_right fun hq' => ?_
      have hkey' : key' ≠ key := by
        rintro rfl
        obtain ⟨rfl, rfl⟩ := hfiled.unique hfiled'
        exact hq hq'
      rw [if_neg hkey']
  · rcases hdirectories q hq with hold | hwithin
    · exact hheld.directories q hold
    · exact .inr ⟨key, parent, name, hkey, hfiled, hwithin⟩

/-- Writing a key changes what it holds, and nothing else. -/
theorem Holds.write (hheld : Holds keys held s) (hkey : keys key) (hfiled : Filed key parent name)
    (h : s.write key bytes = (.ok (), s')) :
    Holds keys (StoreCall.leave held (.write key bytes)) s' := by
  obtain ⟨hpath, hgone, hfiles, hdirectories⟩ := write_effect hfiled h
  refine hheld.change hkey hfiled (fun content => ?_) (fun q hq content => ?_) hdirectories
  · rw [hpath, Except.ok.injEq]
  · rw [List.mem_singleton] at hq
    by_cases hdraft : q = parent ++ [draftName name]
    -- No file stands under the other name, neither before nor afterwards.
    · subst q
      rw [hgone, hheld.files]
      exact ⟨nofun, fun ⟨_, _, _, _, _, hq, _⟩ => absurd hq append_draftName_ne⟩
    · exact hfiles q (by simp [hq, hdraft]) content

/-- Removing a key changes what it holds, and nothing else. -/
theorem Holds.remove (hkeys : Compatible keys) (hheld : Holds keys held s) (hkey : keys key)
    (hfiled : Filed key parent name) :
    (s.remove key).1 = .ok () ∧
      Holds keys (StoreCall.leave held (.remove key)) (s.remove key).2 := by
  obtain ⟨-, hcheck, -⟩ := hkeys.accepted hkey hfiled
  have hlook := hheld.look_path hkeys hkey hfiled
  rw [remove_of_path? hfiled.path?]
  rcases hcontent : held key with _ | content <;> rw [hcontent] at hlook
  · rw [FileTree.removeFile_notFound hcheck hlook]
    refine ⟨rfl, hheld.change hkey hfiled (fun content => ?_) (.refl _) fun q => .inl⟩
    rw [hlook]
    exact ⟨nofun, nofun⟩
  · obtain ⟨t, hremove⟩ := FileTree.removeFile_ok hcheck hlook
    rw [hremove]
    obtain ⟨-, hgone, -⟩ := FileTree.look_removeFile hremove
    refine ⟨rfl, hheld.change hkey hfiled (fun content => ?_)
      (FileTree.sameFiles_removeFile hremove)
      fun q hq => .inl ((FileTree.sameDirectories_removeFile hremove q).mp hq)⟩
    rw [hgone]
    exact ⟨nofun, nofun⟩

/-- A store in files that holds what it should answers as expected, and holds what it should
afterwards. -/
theorem Holds.answer (hkeys : Compatible keys) (hheld : Holds keys held s) (call : StoreCall)
    (hkey : keys call.key) :
    (call.answer s).1 = call.expected held ∧ Holds keys (call.leave held) (call.answer s).2 := by
  cases call with
  | read key => exact ⟨congrArg StoreAnswer.read (hheld.read_eq hkeys hkey), hheld⟩
  | contains key => exact ⟨congrArg StoreAnswer.contains (hheld.contains_eq hkeys hkey), hheld⟩
  | write key bytes =>
    obtain ⟨parent, name, hfiled, -⟩ := hkeys.fits key hkey
    have hwritten : ∃ s', s.write key bytes = (.ok (), s') := hheld.write_ok hkeys hkey hfiled
    obtain ⟨s', hwrite⟩ := hwritten
    have hanswer : StoreCall.answer s (.write key bytes) = (.done (.ok ()), s') :=
      congrArg (fun x => (StoreAnswer.done x.1, x.2)) hwrite
    rw [hanswer]
    exact ⟨rfl, hheld.write hkey hfiled hwrite⟩
  | remove key =>
    obtain ⟨parent, name, hfiled, -⟩ := hkeys.fits key hkey
    obtain ⟨hok, hleft⟩ := hheld.remove hkeys hkey hfiled
    exact ⟨congrArg StoreAnswer.done hok, hleft⟩

/-- A store in files answers as expected for compatible keys. -/
theorem Compatible.answers {calls : List StoreCall} (hkeys : Compatible keys)
    (hcalls : ∀ call ∈ calls, keys call.key) :
    IdleGame.answers calls FileStore.empty = expectedAnswers calls fun _ => none :=
  answers_eq_expectedAnswers (Holds keys)
    (fun call hcall _ _ hheld => hheld.answer hkeys call (hcalls call hcall)) holds_empty

/-! ### Keys that are not compatible -/

theorem exists_filed_of_write_ok (h : s.write key bytes = (.ok (), s')) :
    ∃ parent name, Filed key parent name := by
  rcases hpath : path? key with _ | path
  · rw [write_of_path?_eq_none hpath] at h
    cases h
  · exact exists_filed hpath

/-- A key that can be written fits. -/
theorem fits_of_write_ok (h : s.write key bytes = (.ok (), s')) : Fits key := by
  obtain ⟨parent, name, hfiled⟩ := exists_filed_of_write_ok h
  obtain ⟨hcheck, hshort, -⟩ := write_needs hfiled h
  exact ⟨parent, name, hfiled, hcheck, hshort⟩

/-- Of two keys that can be written one after the other, the second does not obstruct the first. -/
theorem not_obstructs_of_write_ok {s'' : FileStore} {bytes' : ByteArray}
    (h' : s.write key' bytes' = (.ok (), s')) (h : s'.write key bytes = (.ok (), s'')) :
    ¬ Obstructs key key' := by
  rintro ⟨parent, name, parent', name', hfiled, hfiled', hwithin⟩
  obtain ⟨hpath', -⟩ := write_effect hfiled' h'
  obtain ⟨-, -, hpath, hdraft⟩ := write_needs hfiled h
  rcases hwithin with hwithin | hwithin
  · exact hpath (FileTree.look_of_prefix hpath' hwithin)
  · exact hdraft (FileTree.look_of_prefix hpath' hwithin)

theorem write_ok_of_answers {store : FileStore} {calls : List StoreCall} {rest : List StoreAnswer}
    (h : answers (.write key bytes :: calls) store = .done (.ok ()) :: rest) :
    ∃ s', store.write key bytes = (.ok (), s') ∧ answers calls s' = rest := by
  obtain ⟨hanswer, hrest⟩ := List.cons.inj h
  exact ⟨_, Prod.ext (StoreAnswer.done.inj hanswer) rfl, hrest⟩

/-- A store in files and one in memory give the same answers to all calls with some keys exactly
when these keys are compatible. What a store in memory answers is what is expected: all calls
succeed, and a key holds the bytes last written and not removed. -/
theorem interchangeable_iff (keys : String → Prop) :
    ((∀ calls : List StoreCall, (∀ call ∈ calls, keys call.key) →
        IdleGame.answers calls FileStore.empty = IdleGame.answers calls MemoryStore.empty) ↔
      Compatible keys) ∧
    ∀ calls, IdleGame.answers calls MemoryStore.empty = expectedAnswers calls fun _ => none := by
  refine ⟨⟨fun h => ⟨fun key hkey => ?_, fun key key' hkey hkey' => ?_⟩,
    fun hkeys calls hcalls => ?_⟩, answers_memoryStore⟩
  -- One write finds out whether a key fits, and two whether they obstruct each other.
  · have hanswers := h [.write key .empty] (List.forall_mem_singleton.mpr hkey)
    obtain ⟨s, hwrite, -⟩ := write_ok_of_answers hanswers
    exact fits_of_write_ok hwrite
  · have hanswers := h [.write key' .empty, .write key .empty] (by simpa using ⟨hkey', hkey⟩)
    obtain ⟨s, hwrite', hrest⟩ := write_ok_of_answers hanswers
    obtain ⟨s', hwrite, -⟩ := write_ok_of_answers hrest
    exact not_obstructs_of_write_ok hwrite' hwrite
  · rw [hkeys.answers hcalls, answers_memoryStore]

/-- Calls for two keys, one of which has its file where the other needs a directory. -/
def obstructedCalls : List StoreCall :=
  [.write "clips/main" ⟨#[1]⟩, .contains "clips/main.ron/old", .read "clips/main.ron/old",
    .remove "clips/main.ron/old", .write "clips/main.ron/old" ⟨#[2]⟩, .read "clips/main"]

/-- A key that was never written cannot be read, removed or written where a file is in its way. -/
theorem answers_obstructedCalls :
    (∀ call ∈ obstructedCalls, (path? call.key).isSome) ∧
      IdleGame.answers obstructedCalls FileStore.empty =
        [.done (.ok ()), .contains (.ok false), .read (.error .files), .done (.error .files),
          .done (.error .files), .read (.ok (some ⟨#[1]⟩))] ∧
      IdleGame.answers obstructedCalls MemoryStore.empty =
        [.done (.ok ()), .contains (.ok false), .read (.ok none), .done (.ok ()), .done (.ok ()),
          .read (.ok (some ⟨#[1]⟩))] := by
  refine ⟨by decide +kernel, rfl, rfl⟩

end FileStore

end IdleGame
