import IdleGame.Proofs.FileTree.Proper
import IdleGame.Proofs.Store.Archive
import IdleGame.Proofs.Store.Path
import Mathlib.Data.String.Basic

/-!
# Which slots are listed

A store in files lists the files in the directory that the id of a game leads to; a store in a
database lists the rows whose keys begin with the id. Both find the slots that the game has filled,
as far as the id and the name of the slot are not taken apart by the sign of keys: files of slots
with a sign in their names lie deeper, and no row belongs to an id with a sign. An id that keys
refuse has no slots, but a store in files lists what is in the directory that it leads to, in the
store or, when it leads out of its root, outside.

## Main definitions

* `FileStore.Tidy` - files stand where slots have them
* `FileStore.Lists`, `DatabaseStore.Lists` - what is known of a listing
* `DatabaseStore.IsScan` - the rows that a scan by game finds

## Main results

* `FileStore.mem_slots` - the slots that a store in files lists are its keys in one directory
* `DatabaseStore.IsScan.perm` - what is kept of a scan are the slots of the game
* `Archive.slots_listed` - which of the slots that a game has filled are listed
-/

namespace IdleGame

open FilePath (IsPlain)

/-- Names that are sorted and differ ascend. -/
theorem sortedLT_mergeSort {names : List String} (h : names.Nodup) :
    (names.mergeSort fun a b => decide (a ≤ b)).Pairwise (· < ·) := by
  have hsorted : (names.mergeSort fun a b => decide (a ≤ b)).Pairwise
      fun a b => decide (a ≤ b) = true := by
    refine List.pairwise_mergeSort (fun a b c hab hbc => ?_) (fun a b => ?_) names
    · rw [decide_eq_true_iff] at hab hbc ⊢
      exact le_trans hab hbc
    · simpa using le_total a b
  have hnodup := (List.mergeSort_perm names fun a b => decide (a ≤ b)).nodup_iff.mpr h
  exact hsorted.imp₂ (fun a b hab hne => lt_of_le_of_ne (of_decide_eq_true hab) hne) hnodup

namespace FileStore

variable {s : FileStore} {t u : FileTree} {key id name slot : String} {parent path : List String}
  {bytes content : ByteArray} {entries : List (String × FileTree)}
  {outside : Option (List (String × FileTree))}

/-! ### Files stand where slots have them -/

/-- A tree of files as calls leave it: each file stands at the path of a key, or where one is
written before it gets its name. -/
structure Tidy (t : FileTree) : Prop where
  proper : t.Proper
  files (q : List String) (content : ByteArray) (h : t.look q = .ok (some content)) :
    ∃ key parent name, Filed key parent name ∧
      (q = parent ++ [fileName name] ∧ FilePath.check q = .ok () ∨ q = parent ++ [draftName name])

theorem tidy_empty : Tidy FileStore.empty.root where
  proper := FileTree.proper_empty
  files q content h := by
    rcases q with _ | ⟨name, q⟩
    · cases h
    · change FileTree.look (name :: q) .empty = _ at h
      rw [FileTree.look_empty] at h
      split at h <;> cases h

theorem proper_apply {step : FileStep} (h : t.Proper) : (step.apply t).2.Proper := by
  cases step with
  | makeDirectories path => exact h.makeDirectories
  | writeFile path content =>
    rw [FileStep.apply]
    rcases hwrite : t.writeFile path content with e | u
    · exact h
    · exact h.writeFile hwrite
  | rename source target =>
    rw [FileStep.apply]
    rcases hrename : t.rename source target with e | u
    · exact h
    · exact h.rename hrename

theorem proper_run {steps : List FileStep} (h : t.Proper) : (run steps t).2.Proper := by
  induction steps generalizing t with
  | nil => exact h
  | cons step steps ih =>
    have hstep : (step.apply t).2.Proper := proper_apply h
    rw [run]
    split <;> rename_i happly <;> rw [happly] at hstep
    · exact ih hstep
    · exact hstep

theorem proper_discard (h : t.Proper) : (discard path t).Proper := by
  rw [discard]
  split
  · rename_i hremove
    exact h.removeFile hremove
  · exact h

theorem proper_write (h : s.root.Proper) : (s.write key bytes).2.root.Proper := by
  rw [write]
  split
  · rename_i path draft _ _
    have hrun : (run (steps path draft bytes) s.root).2.Proper := proper_run h
    unfold writeSlot
    rcases hresult : run (steps path draft bytes) s.root with ⟨e | _, u⟩
    all_goals rw [hresult] at hrun
    · exact proper_discard hrun
    · exact hrun
  · exact h

/-- Writing leaves files where slots have them. -/
theorem Tidy.write (h : Tidy s.root) : Tidy (s.write key bytes).2.root := by
  refine ⟨proper_write h.proper, fun q content hq => ?_⟩
  rcases hpath : path? key with _ | path
  · rw [write_of_path?_eq_none hpath] at hq
    exact h.files q content hq
  obtain ⟨parent, name, hfiled⟩ := exists_filed hpath
  have hsound := (writing_write s key bytes).invariant hfiled
  by_cases hdraft : q = parent ++ [draftName name]
  · exact ⟨key, parent, name, hfiled, .inr hdraft⟩
  by_cases hstage : (Stage.returned (s.write key bytes).1).isMoved
  · have hmoved := hsound.moved hstage
    by_cases hfile : q = parent ++ [fileName name]
    · exact ⟨key, parent, name, hfiled, .inl ⟨hfile, hfile ▸ hmoved.check⟩⟩
    · exact h.files q content ((hmoved.files q (by simp [hdraft, hfile]) content).mp hq)
  · exact h.files q content (((hsound.kept hstage).files q (by simp [hdraft]) content).mp hq)

/-- Removing leaves files where slots have them. -/
theorem Tidy.remove (h : Tidy s.root) : Tidy (s.remove key).2.root := by
  rw [FileStore.remove]
  split
  · exact h
  · split
    · rename_i path _ root hremove
      obtain ⟨-, hgone, -⟩ := FileTree.look_removeFile hremove
      refine ⟨h.proper.removeFile hremove, fun q content hq => h.files q content ?_⟩
      refine (FileTree.sameFiles_removeFile hremove q (fun hmem => ?_) content).mp hq
      rw [List.mem_singleton.mp hmem, hgone] at hq
      cases hq
    · exact h
    · exact h

theorem tidy_after (calls : List SlotCall) : Tidy (Archive.after empty calls).store.root := by
  refine Archive.after_preserves (motive := fun a : Archive FileStore => Tidy a.store.root)
    tidy_empty ?_
  intro a ih call _
  cases call with
  | save gameId slot shot => exact ih.write
  | clear gameId slot => exact ih.remove

theorem not_has_empty (key : String) : ¬ SaveStore.Has FileStore.empty key := by
  rcases hpath : path? key with _ | path
  · exact not_has_of_path?_eq_none hpath
  · obtain ⟨parent, name, hfiled⟩ := exists_filed hpath
    rw [has_iff_look hfiled]
    rintro ⟨-, content, hlook⟩
    rcases parent with _ | ⟨above, parent⟩
    all_goals
      change FileTree.look (_ :: _) .empty = _ at hlook
      rw [FileTree.look_empty] at hlook
      split at hlook <;> cases hlook

/-! ### The entries of a directory -/

/-- The names with the extension of slots are those of their files. -/
theorem extension_stem_iff :
    FilePath.extension? name = some slotExtension ∧ FilePath.stem name = slot ↔
      slot ≠ "" ∧ name = fileName slot := by
  have hext : "ron".toList = ['r', 'o', 'n'] := rfl
  constructor
  · rintro ⟨hextension, rfl⟩
    obtain ⟨ext, hsplit, hron⟩ := Option.map_eq_some_iff.mp hextension
    obtain ⟨hne, hname⟩ := FilePath.eq_append_of_splitExtension (Prod.ext rfl hsplit)
    refine ⟨?_, String.toList_inj.mp ?_⟩
    · rw [FilePath.stem, Ne, ← String.toList_inj, String.toList_ofList]
      exact hne
    · rw [toList_fileName, FilePath.stem, String.toList_ofList, ← hext]
      rw [← String.toList_inj, String.toList_ofList] at hron
      rw [← show ext = "ron".toList from hron]
      exact hname
  · rintro ⟨hslot, rfl⟩
    have hsplit : FilePath.splitExtension (slot.toList ++ '.' :: ['r', 'o', 'n']) =
        (slot.toList, some ['r', 'o', 'n']) :=
      FilePath.splitExtension_append (fun hnil => hslot (String.toList_inj.mp hnil)) (by decide)
    rw [← toList_fileName] at hsplit
    rw [FilePath.extension?, FilePath.stem, hsplit]
    exact ⟨rfl, String.ofList_toList⟩

/-- The slots among the entries of a directory are the files with the names of slots. -/
theorem mem_slotsAmong :
    slot ∈ slotsAmong entries ↔
      slot ≠ "" ∧ ∃ content, (fileName slot, FileTree.file content) ∈ entries := by
  rw [slotsAmong, List.mem_mergeSort, List.mem_filterMap]
  constructor
  · rintro ⟨⟨name, t⟩, he, hslot⟩
    dsimp only at hslot
    split at hslot
    · rename_i hname
      obtain ⟨hne, rfl⟩ := extension_stem_iff.mp ⟨hname.2, Option.some.inj hslot⟩
      cases t with
      | file content => exact ⟨hne, content, he⟩
      | directory entries => exact absurd rfl hname.1
    · cases hslot
  · rintro ⟨hne, content, he⟩
    obtain ⟨hextension, hstem⟩ := extension_stem_iff.mpr ⟨hne, rfl⟩
    refine ⟨_, he, ?_⟩
    dsimp only
    rw [if_pos ⟨Bool.false_ne_true, hextension⟩, hstem]

/-- The slots among entries with different names ascend. -/
theorem sortedLT_slotsAmong (h : (entries.map Prod.fst).Nodup) :
    (slotsAmong entries).Pairwise (· < ·) := by
  refine sortedLT_mergeSort (List.pairwise_filterMap.mpr ((List.pairwise_map.mp h).imp ?_))
  -- Files with the same slot would have the same name.
  rintro ⟨name, t⟩ ⟨name', t'⟩ hne slot hslot slot' hslot' rfl
  dsimp only at hslot hslot' hne
  split at hslot <;> split at hslot'
  case isTrue.isTrue hname hname' =>
    obtain ⟨-, rfl⟩ := extension_stem_iff.mp ⟨hname.2, Option.some.inj hslot⟩
    obtain ⟨-, rfl⟩ := extension_stem_iff.mp ⟨hname'.2, Option.some.inj hslot'⟩
    exact hne rfl
  all_goals simp_all

/-- An id that stays inside the root leads to a directory of the store, whatever is outside. -/
theorem slots_of_inside (h : s.root.pathOf? id = some path) :
    s.slots id outside = slotsAmong ((s.root.entriesAt? path).getD []) := by
  rw [slots, gameEntries?, h]

/-- An id that leads out of the root leads to whatever is there. -/
theorem slots_of_outside (h : s.root.pathOf? id = none) :
    s.slots id outside = slotsAmong (outside.getD []) := by
  rw [slots, gameEntries?, h]

/-- The slots that are listed are the keys filed in the directory that the id leads to. -/
theorem Tidy.mem_slots (h : Tidy s.root) (hid : s.root.pathOf? id = some path) :
    slot ∈ s.slots id outside ↔ ∃ key, Filed key path slot ∧ SaveStore.Has s key := by
  rw [slots_of_inside hid]
  constructor
  · intro hslot
    rcases hentries : s.root.entriesAt? path with _ | entries
    · rw [hentries] at hslot
      exact absurd hslot (by simp [slotsAmong])
    rw [hentries, Option.getD_some, mem_slotsAmong] at hslot
    obtain ⟨-, content, he⟩ := hslot
    obtain ⟨-, hfollow⟩ := FileTree.entriesAt?_eq_some_iff.mp hentries
    rw [h.proper.mem_iff_follow hfollow] at he
    have hlook : s.root.look (path ++ [fileName slot]) = .ok (some content) := by
      rw [FileTree.look, he]
      rfl
    obtain ⟨key, parent, name, hfiled, ⟨hpath, hcheck⟩ | hpath⟩ := h.files _ _ hlook
    · obtain ⟨rfl, hname⟩ := List.append_inj' hpath rfl
      obtain rfl := fileName_injective (List.singleton_inj.mp hname)
      exact ⟨key, hfiled, (has_iff_look hfiled).mpr ⟨hcheck, content, hlook⟩⟩
    · exact absurd hpath.symm append_draftName_ne
  · rintro ⟨key, hfiled, hhas⟩
    obtain ⟨hcheck, content, hlook⟩ := (has_iff_look hfiled).mp hhas
    obtain ⟨entries, hfollow⟩ := FileTree.follow_of_look (FileTree.look_of_look_append hlook)
    have hparent : FilePath.check path = .ok () := by
      rw [fileName, String.append_assoc] at hcheck
      exact (FilePath.check_of_concat_append hcheck).2
    rw [FileTree.entriesAt?_eq_some_iff.mpr ⟨hparent, hfollow⟩, Option.getD_some, mem_slotsAmong]
    refine ⟨(hfiled.pieces_plain slot (by simp)).1, content, ?_⟩
    rw [h.proper.mem_iff_follow hfollow]
    rw [FileTree.look] at hlook
    rcases hfile : s.root.follow (path ++ [fileName slot]) with e | _ | entries
    all_goals
      rw [hfile] at hlook
      cases hlook
    rfl

/-- The slots that are listed ascend, if the names in each directory differ also outside of the
store. -/
theorem Tidy.sortedLT_slots (h : Tidy s.root)
    (houtside : ∀ entries, outside = some entries → (entries.map Prod.fst).Nodup) :
    (s.slots id outside).Pairwise (· < ·) := by
  rcases hid : s.root.pathOf? id with _ | path
  · rw [slots_of_outside hid]
    cases outside with
    | none => exact sortedLT_slotsAmong List.nodup_nil
    | some entries => exact sortedLT_slotsAmong (houtside entries rfl)
  · rw [slots_of_inside hid]
    rcases hentries : s.root.entriesAt? path with _ | entries
    · exact sortedLT_slotsAmong List.nodup_nil
    · obtain ⟨-, hfollow⟩ := FileTree.entriesAt?_eq_some_iff.mp hentries
      exact sortedLT_slotsAmong (FileTree.proper_directory_iff.mp (h.proper.follow hfollow)).1

/-! ### The directory of a game -/

theorem segments_key :
    FilePath.segments (Slot.key id slot).toList =
      FilePath.segments id.toList ++ FilePath.segments slot.toList := by
  rw [Slot.toList_key, FilePath.segments_append]

/-- All pieces of an id are accepted. -/
def Accepts (id : String) : Prop := ∀ s ∈ id.toList.splitOn '/', ¬ IsRefused s

theorem not_accepts_iff : ¬ Accepts id ↔ ∃ s ∈ id.toList.splitOn '/', IsRefused s := by
  simp [Accepts]

theorem accepts_of_has (h : SaveStore.Has s key) : Accepts key := by
  by_contra hkey
  exact not_has_of_path?_eq_none (path?_eq_none_iff.mpr (not_accepts_iff.mp hkey)) h

theorem accepts_key_iff : Accepts (Slot.key id slot) ↔ Accepts id ∧ Accepts slot := by
  unfold Accepts
  rw [← FilePath.segments_eq_splitOn, segments_key, List.forall_mem_append,
    FilePath.segments_eq_splitOn, FilePath.segments_eq_splitOn]

/-- The directory of an id that is accepted lies inside the root. -/
theorem pathOf?_of_accepts (t : FileTree) (h : Accepts id) :
    t.pathOf? id = some ((FilePath.segments id.toList).map String.ofList) := by
  refine t.pathOf?_of_plain fun s hs => isPlain_of_isSegment ?_ ?_
  · rw [FilePath.segments_eq_splitOn] at hs
    exact isSegment_iff.mpr (h s hs)
  · exact FilePath.slash_notMem_of_mem_segments hs

/-- A key is filed in the directory of a game when it is that of one of its slots, without a sign in
the name of the slot. -/
theorem filed_iff :
    Filed key ((FilePath.segments id.toList).map String.ofList) slot ↔
      key = Slot.key id slot ∧ '/' ∉ slot.toList ∧ Accepts key := by
  have hsegments (hsign : '/' ∉ slot.toList) : FilePath.segments slot.toList = [slot.toList] := by
    have hjoined : FilePath.segments (['/'].intercalate [slot.toList]) = [slot.toList] :=
      FilePath.segments_intercalate (by simp) (by simpa)
    simpa using hjoined
  constructor
  · intro hfiled
    obtain ⟨before, last, hpieces, hparent, rfl⟩ := hfiled
    obtain rfl : FilePath.segments id.toList = before :=
      (List.map_inj_right fun _ _ => String.ofList_injective).mp hparent
    obtain ⟨hkey, hall⟩ := pieces?_eq_some_iff.mp hpieces
    have hsign : '/' ∉ (String.ofList last).toList := by
      have hlast : last ∈ FilePath.segments key.toList := by simp [hkey]
      rw [String.toList_ofList]
      exact FilePath.slash_notMem_of_mem_segments hlast
    refine ⟨FilePath.eq_of_segments_eq ?_, hsign, fun s hs => isSegment_iff.mp ?_⟩
    · rw [hkey, segments_key, hsegments hsign, String.toList_ofList]
    · rw [← FilePath.segments_eq_splitOn, hkey] at hs
      exact List.all_eq_true.mp hall s hs
  · rintro ⟨rfl, hsign, hkey⟩
    refine ⟨FilePath.segments id.toList, slot.toList, ?_, rfl, String.ofList_toList.symm⟩
    rw [pieces?_eq_some_iff, ← hsegments hsign, ← segments_key]
    refine ⟨rfl, List.all_eq_true.mpr fun s hs => isSegment_iff.mpr ?_⟩
    rw [FilePath.segments_eq_splitOn] at hs
    exact hkey s hs

/-- Under an id that is accepted those slots are listed that are taken and have no sign in their
names. -/
theorem Tidy.mem_slots_of_accepts (h : Tidy s.root) (hid : Accepts id) :
    slot ∈ s.slots id outside ↔ Slot.isTaken s id slot ∧ '/' ∉ slot.toList := by
  rw [h.mem_slots (pathOf?_of_accepts _ hid), Archive.isTaken_iff_has]
  constructor
  · rintro ⟨key, hfiled, hhas⟩
    obtain ⟨rfl, hsign, -⟩ := filed_iff.mp hfiled
    exact ⟨hhas, hsign⟩
  · rintro ⟨hhas, hsign⟩
    exact ⟨_, filed_iff.mpr ⟨rfl, hsign, accepts_of_has hhas⟩, hhas⟩

/-- Whatever is listed under an id that stays inside the root is a slot of a game with an id that is
accepted. -/
theorem Tidy.exists_taken (h : Tidy s.root)
    (hkeys : ∀ key, SaveStore.Has s key → ∃ id slot, key = Slot.key id slot)
    (hid : s.root.pathOf? id = some path) (hslot : slot ∈ s.slots id outside) :
    ∃ id', Accepts id' ∧ Slot.isTaken s id' slot := by
  obtain ⟨key, hfiled, hhas⟩ := (h.mem_slots hid).mp hslot
  obtain ⟨before, last, hpieces, -, hname⟩ := hfiled
  have hkey : FilePath.segments key.toList = before ++ [last] := (pieces?_eq_some_iff.mp hpieces).1
  -- The key of a slot has a sign, so there are pieces before the last one.
  have hbefore : before ≠ [] := by
    rintro rfl
    obtain ⟨game, slot', rfl⟩ := hkeys key hhas
    have hgame := List.length_pos_of_ne_nil (FilePath.segments_ne_nil game.toList)
    have hslot' := List.length_pos_of_ne_nil (FilePath.segments_ne_nil slot'.toList)
    have hlength := congrArg List.length hkey
    rw [segments_key, List.length_append, List.nil_append, List.length_singleton] at hlength
    omega
  have hid : FilePath.segments (String.ofList (['/'].intercalate before)).toList = before := by
    rw [String.toList_ofList]
    refine FilePath.segments_intercalate hbefore fun s hs => ?_
    have hmem : s ∈ FilePath.segments key.toList := by simp [hkey, hs]
    exact FilePath.slash_notMem_of_mem_segments hmem
  have hfiled : Filed key ((FilePath.segments _).map String.ofList) slot :=
    ⟨before, last, hpieces, congrArg (List.map String.ofList) hid, hname⟩
  obtain ⟨rfl, -, haccepts⟩ := filed_iff.mp hfiled
  exact ⟨_, (accepts_key_iff.mp haccepts).1, Archive.isTaken_iff_has.mpr hhas⟩

/-- What is known of the slots that a store in files lists under an id. If the id is accepted, they
are the slots that the game has filled and that have no sign in their names. If not, the game has
filled none: what is listed are slots of other games, as long as the id stays inside the root, and
else the files with the names of slots that are outside of the store. -/
structure Lists (a : Archive FileStore) (id : String)
    (outside : Option (List (String × FileTree))) : Prop where
  taken_iff (slot : String) : Slot.isTaken a.store id slot ↔ (id, slot) ∈ a.filled
  ascending (houtside : ∀ entries, outside = some entries → (entries.map Prod.fst).Nodup) :
    (a.store.slots id outside).Pairwise (· < ·)
  mem_iff (hid : Accepts id) (slot : String) :
    slot ∈ a.store.slots id outside ↔ (id, slot) ∈ a.filled ∧ '/' ∉ slot.toList
  unfilled (hid : ¬ Accepts id) (slot : String) : (id, slot) ∉ a.filled
  others (hid : ¬ Accepts id) (path : List String) (hpath : a.store.root.pathOf? id = some path) :
    ∀ slot ∈ a.store.slots id outside, ∃ id', id' ≠ id ∧ Slot.isTaken a.store id' slot
  strangers (hpath : a.store.root.pathOf? id = none) (slot : String) :
    slot ∈ a.store.slots id outside ↔
      slot ≠ "" ∧ ∃ entries content, outside = some entries ∧
        (fileName slot, FileTree.file content) ∈ entries

theorem lists_after {calls : List SlotCall} (hapart : Archive.Apart id calls) :
    Lists (Archive.after empty calls) id outside := by
  have htidy := tidy_after calls
  have htaken (slot : String) : Slot.isTaken (Archive.after empty calls).store id slot ↔
      (id, slot) ∈ (Archive.after empty calls).filled :=
    Archive.isTaken_iff not_has_empty hapart
  refine ⟨htaken, htidy.sortedLT_slots, fun hid slot => ?_, fun hid slot hfilled => ?_, ?_, ?_⟩
  · rw [htidy.mem_slots_of_accepts hid, htaken]
  · rw [← htaken, Archive.isTaken_iff_has] at hfilled
    exact hid (accepts_key_iff.mp (accepts_of_has hfilled)).1
  · intro hid path hpath slot hslot
    obtain ⟨id', hid', hslot'⟩ := htidy.exists_taken
      (fun key hkey => Archive.exists_key not_has_empty hkey) hpath hslot
    refine ⟨id', ?_, hslot'⟩
    rintro rfl
    exact hid hid'
  · intro hpath slot
    rw [slots_of_outside hpath]
    rcases outside with _ | entries
    · simp [slotsAmong]
    · simp [mem_slotsAmong]

end FileStore

namespace DatabaseStore

variable {s : DatabaseStore} {key id game slot : String} {found : List StoredSlot}

/-- The rows that a scan by game finds: all whose game begins with a text, once each. -/
structure IsScan (s : DatabaseStore) (start : String) (found : List StoredSlot) : Prop where
  once : (found.map StoredSlot.key).Nodup
  mem_iff (row : StoredSlot) :
    row ∈ found ↔ s.row? row.key = some row ∧ start.toList <+: row.game.toList

theorem mem_slots : key ∈ s.slots game ↔ SaveStore.Has s key ∧ gameOf key = game := by
  rw [slots, List.mem_mergeSort, List.mem_filter, decide_eq_true_iff, has_iff]

theorem nodup_slots : (s.slots game).Nodup :=
  (List.mergeSort_perm _ _).nodup_iff.mpr (s.payloads.nodup_keys.filter _)

/-- What is kept of a scan, the rows of the game itself, are its slots. -/
theorem IsScan.perm (h : IsScan s game found) :
    ((found.filter fun row => row.game = game).map StoredSlot.key).Perm (s.slots game) := by
  have honce : ((found.filter fun row => row.game = game).map StoredSlot.key).Nodup :=
    h.once.sublist (List.filter_sublist.map _)
  refine (List.perm_ext_iff_of_nodup honce nodup_slots).mpr fun key => ?_
  rw [mem_slots, has_iff, Table.mem_keys_iff, List.mem_map]
  constructor
  · rintro ⟨row, hrow, rfl⟩
    rw [List.mem_filter, h.mem_iff, decide_eq_true_iff] at hrow
    obtain ⟨⟨hfound, -⟩, hgame⟩ := hrow
    obtain ⟨payload, hpayload, hrow⟩ := Option.map_eq_some_iff.mp hfound
    refine ⟨⟨payload, hpayload⟩, ?_⟩
    rw [← hgame, ← hrow]
  · rintro ⟨⟨payload, hpayload⟩, rfl⟩
    refine ⟨⟨key, gameOf key, payload⟩, ?_, rfl⟩
    rw [List.mem_filter, h.mem_iff, row?, hpayload]
    exact ⟨⟨rfl, List.prefix_rfl⟩, decide_eq_true rfl⟩

theorem gameOf_key (h : '/' ∉ id.toList) : gameOf (Slot.key id slot) = id := by
  have hid : ∀ c ∈ id.toList, decide (c ≠ '/') = true := by
    intro c hc
    rw [decide_eq_true_iff]
    rintro rfl
    exact h hc
  rw [gameOf, Slot.toList_key, List.takeWhile_append_of_pos hid]
  simp

theorem sign_notMem_gameOf : '/' ∉ (gameOf key).toList := by
  rw [gameOf, String.toList_ofList]
  intro hsign
  simpa using List.all_eq_true.mp List.all_takeWhile '/' hsign

/-- The key of a slot is one of a slot of the game that it is taken to belong to. -/
theorem exists_slot_of_key (hkey : key = Slot.key id slot) :
    ∃ slot', key = Slot.key (gameOf key) slot' := by
  have hsign : '/' ∈ key.toList := by
    rw [hkey, Slot.toList_key]
    simp
  obtain ⟨before, after, hfirst, hbefore⟩ := List.eq_append_cons_of_mem hsign
  have hkey' : key = Slot.key (String.ofList before) (String.ofList after) := by
    rw [← String.toList_inj, hfirst, Slot.toList_key]
    simp
  have hgame : gameOf key = String.ofList before := by
    rw [hkey', gameOf_key (by simpa using hbefore)]
  exact ⟨String.ofList after, hgame ▸ hkey'⟩

/-- What is known of the slots that a store in a database lists under an id. Without a sign in the
id, they are those that the game has filled. With a sign there are none. -/
structure Lists (a : Archive DatabaseStore) (id : String) : Prop where
  taken_iff (slot : String) : Slot.isTaken a.store id slot ↔ (id, slot) ∈ a.filled
  once : (a.store.slots id).Nodup
  scanned (found : List StoredSlot) (h : IsScan a.store id found) :
    ((found.filter fun row => row.game = id).map StoredSlot.key).Perm (a.store.slots id)
  mem_iff (hid : '/' ∉ id.toList) (key : String) :
    key ∈ a.store.slots id ↔ ∃ slot, (id, slot) ∈ a.filled ∧ key = Slot.key id slot
  eq_nil (hid : '/' ∈ id.toList) : a.store.slots id = []

theorem not_has_empty (key : String) : ¬ SaveStore.Has DatabaseStore.empty key := by
  rw [has_iff]
  exact List.not_mem_nil

theorem lists_after {calls : List SlotCall} (hapart : Archive.Apart id calls) :
    Lists (Archive.after empty calls) id := by
  have htaken (slot : String) : Slot.isTaken (Archive.after empty calls).store id slot ↔
      (id, slot) ∈ (Archive.after empty calls).filled :=
    Archive.isTaken_iff not_has_empty hapart
  refine ⟨htaken, nodup_slots, fun found h => h.perm, fun hid key => ?_, fun hid => ?_⟩
  · rw [mem_slots]
    constructor
    · rintro ⟨hhas, hgame⟩
      obtain ⟨id', slot', hkey⟩ := Archive.exists_key not_has_empty hhas
      obtain ⟨slot, hslot⟩ := exists_slot_of_key hkey
      rw [hgame] at hslot
      refine ⟨slot, ?_, hslot⟩
      rwa [← htaken, Archive.isTaken_iff_has, ← hslot]
    · rintro ⟨slot, hfilled, rfl⟩
      rw [← htaken, Archive.isTaken_iff_has] at hfilled
      exact ⟨hfilled, gameOf_key hid⟩
  · refine List.eq_nil_iff_forall_not_mem.mpr fun key hkey => ?_
    obtain ⟨-, rfl⟩ := mem_slots.mp hkey
    exact sign_notMem_gameOf hid

end DatabaseStore

namespace Archive

/-- Whatever has been saved and emptied, by whichever games, if no id goes on behind that of the
game, nor the other way round: a slot of the game is taken when it is filled, a store in files lists
the slots that are filled and have no sign in their names, if the id is accepted, and one in a
database the keys of all slots that are filled, if the id has no sign. -/
theorem slots_listed (calls : List SlotCall) (id : String)
    (outside : Option (List (String × FileTree))) (hapart : Apart id calls) :
    FileStore.Lists (after FileStore.empty calls) id outside ∧
      DatabaseStore.Lists (after DatabaseStore.empty calls) id :=
  ⟨FileStore.lists_after hapart, DatabaseStore.lists_after hapart⟩

/-- A game saves to three slots and empties one of them, and another game saves to a slot. -/
def clipsCalls : List SlotCall :=
  [.save "clips" "main" Session.cards.snapshot, .save "clips" "backup" Session.cards.snapshot,
    .save "clipsx" "main" Session.cards.snapshot, .save "clips" "old/main" Session.cards.snapshot,
    .clear "clips" "backup"]

/-- Of the two slots that are filled both are taken, and one is listed by a store in files. -/
theorem clips_slots_listed :
    Apart "clips" clipsCalls ∧
      (∀ outside slot, slot ∈ (after FileStore.empty clipsCalls).store.slots "clips" outside ↔
        ("clips", slot) ∈ [("clips", "old/main"), ("clipsx", "main"), ("clips", "main")] ∧
          '/' ∉ slot.toList) ∧
      Slot.isTaken (after FileStore.empty clipsCalls).store "clips" "old/main" ∧
      "clips/old/main" ∈ (after DatabaseStore.empty clipsCalls).store.slots "clips" := by
  have hapart : Apart "clips" clipsCalls := by
    unfold Apart clipsCalls
    simp only [Slot.nested_iff_prefix]
    decide
  have hid : FileStore.Accepts "clips" := by
    unfold FileStore.Accepts
    rw [← FilePath.segments_eq_splitOn]
    simp [FilePath.segments, FileStore.IsRefused]
  have hfiled : (after FileStore.empty clipsCalls).filled =
      [("clips", "old/main"), ("clipsx", "main"), ("clips", "main")] := by decide +kernel
  have hrowed : ("clips", "old/main") ∈ (after DatabaseStore.empty clipsCalls).filled := by
    decide +kernel
  obtain ⟨hfiles, hrows⟩ := slots_listed clipsCalls "clips" none hapart
  refine ⟨hapart, fun outside slot => ?_,
    (hfiles.taken_iff "old/main").mpr (by rw [hfiled]; decide),
    (hrows.mem_iff (by decide) _).mpr ⟨"old/main", hrowed, rfl⟩⟩
  rw [← hfiled]
  exact (slots_listed clipsCalls "clips" outside hapart).1.mem_iff hid slot

/-- A game whose id has a sign saves to a slot. -/
def oldCardsCalls : List SlotCall := [.save "cards/old" "main" Session.cards.snapshot]

/-- A slot with a sign in its name is taken and not listed by a store in files, and a slot of a game
whose id has a sign is taken and not listed by a store in a database. -/
theorem signed_slots_unlisted :
    (("clips", "old/main") ∈ (after FileStore.empty clipsCalls).filled ∧
      Slot.isTaken (after FileStore.empty clipsCalls).store "clips" "old/main" = true ∧
      (after FileStore.empty clipsCalls).store.slots "clips" = ["main"]) ∧
    ("cards/old", "main") ∈ (after DatabaseStore.empty oldCardsCalls).filled ∧
      Slot.isTaken (after DatabaseStore.empty oldCardsCalls).store "cards/old" "main" = true ∧
      (after DatabaseStore.empty oldCardsCalls).store.slots "cards/old" = [] := by
  decide +kernel

end Archive

end IdleGame
