import IdleGame.Proofs.Session.Sharing
import IdleGame.Proofs.Store.Interruption
import IdleGame.Store.Database

/-!
# Slots that are filled

Games save to slots of a store and empty them. Which slots are filled after that is said by these
calls, if the store takes a key exactly when it is written and gives it up exactly when it is
removed, and a call that fails changes no key.

## Main definitions

* `SaveStore.Has` - a store has a key
* `TruthfulStore` - a store that has the keys that were written and not removed
* `SlotCall` - saving to a slot, or emptying one
* `Archive` - a store with the slots that are filled in it

## Main results

* `Archive.has_serve` - the keys of a store after a call
* `Archive.isTaken_iff` - a slot is taken when it is filled, if no other game has its key
-/

namespace IdleGame

variable {σ : Type} [SaveStore σ]

/-- A store has a key. -/
def SaveStore.Has (store : σ) (key : String) : Prop := SaveStore.contains store key = .ok true

/-- A store that has the keys that were written and not removed. Calls that fail change none. -/
class TruthfulStore (σ : Type) [SaveStore σ] : Prop where
  has_write {store : σ} {key key' : String} {bytes : ByteArray} :
    SaveStore.Has (SaveStore.write store key bytes).2 key' ↔
      SaveStore.Has store key' ∨ (SaveStore.write store key bytes).1 = .ok () ∧ key' = key
  has_remove {store : σ} {key key' : String} :
    SaveStore.Has (SaveStore.remove store key).2 key' ↔
      SaveStore.Has store key' ∧ ¬ ((SaveStore.remove store key).1 = .ok () ∧ key' = key)

namespace DatabaseStore

variable {s : DatabaseStore} {key : String}

theorem has_iff : SaveStore.Has s key ↔ key ∈ s.payloads.keys := by
  rw [← Table.contains_iff]
  exact ⟨Except.ok.inj, congrArg Except.ok⟩

instance : TruthfulStore DatabaseStore where
  has_write {store key key' bytes} := by
    rw [has_iff, has_iff]
    change key' ∈ (store.payloads.insert key bytes).keys ↔ _ ∨ Except.ok () = Except.ok () ∧ _
    rw [Table.mem_keys_iff, Table.mem_keys_iff, Table.get?_insert]
    by_cases hkey : key = key' <;> simp [hkey, eq_comm]
  has_remove {store key key'} := by
    rw [has_iff, has_iff]
    change key' ∈ (store.payloads.erase key).keys ↔ _ ∧ ¬ (Except.ok () = Except.ok () ∧ _)
    rw [Table.mem_keys_iff, Table.mem_keys_iff]
    by_cases hkey : key' = key
    · subst key'
      simp [Table.get?_erase_self]
    · simp [Table.get?_erase_of_ne hkey, hkey]

end DatabaseStore

namespace FileStore

variable {s s' : FileStore} {key key' name : String} {path parent : List String}

/-- A store in files has a key when something is read under it. -/
theorem has_iff : SaveStore.Has s key ↔ ∃ bytes, s.read key = .ok (some bytes) := by
  change onPath key (fun path => .ok (s.root.hasFile path)) = .ok true ↔ _
  rcases hpath : path? key with _ | path
  · simp [onPath, read_of_path?_eq_none hpath, hpath]
  · rw [onPath_of_path? hpath, read_of_path? hpath, FileTree.hasFile]
    rcases s.root.readFile path with e | content
    · cases e <;> simp [Except.isOk, Except.toBool]
    · simp [Except.isOk, Except.toBool]

/-- A store in files has a key when there is a file at its path, and the path is accepted. -/
theorem has_iff_look (h : Filed key parent name) :
    SaveStore.Has s key ↔ FilePath.check (parent ++ [fileName name]) = .ok () ∧
      ∃ content, s.root.look (parent ++ [fileName name]) = .ok (some content) := by
  rw [has_iff, ← exists_and_left]
  exact exists_congr fun content => read_eq_ok_some_iff h.path?

theorem not_has_of_path?_eq_none (h : path? key = none) : ¬ SaveStore.Has s key := by
  rw [has_iff, read_of_path?_eq_none h]
  exact fun ⟨_, hread⟩ => nomatch hread

/-- A key whose file is the same is there or not, as it was. -/
theorem has_iff_of_sameFiles {paths : List (List String)}
    (h : FileTree.SameFiles paths s.root s'.root)
    (hpaths : ∀ path, path? key = some path → path ∉ paths) :
    SaveStore.Has s' key ↔ SaveStore.Has s key := by
  rw [has_iff, has_iff]
  exact exists_congr fun _ => read_ok_some_iff_of_sameFiles h hpaths

theorem has_write {bytes : ByteArray} :
    SaveStore.Has (s.write key bytes).2 key' ↔
      SaveStore.Has s key' ∨ (s.write key bytes).1 = .ok () ∧ key' = key := by
  rcases hpath : path? key with _ | path
  · rw [write_of_path?_eq_none hpath]
    simp
  obtain ⟨parent, name, hfiled⟩ := exists_filed hpath
  have hsound := (writing_write s key bytes).invariant hfiled
  by_cases hkey : key' = key
  · subst key'
    rcases hresult : (s.write key bytes).1 with e | _
    · rw [hresult] at hsound
      have hkept : Kept _ _ _ _ := hsound
      refine (has_iff_of_sameFiles hkept.files ?_).trans (by simp)
      intro path hpath
      obtain rfl := Option.some.inj (hfiled.path?.symm.trans hpath)
      exact fun hmem => append_draftName_ne (List.mem_singleton.mp hmem).symm
    · rw [hresult] at hsound
      have hmoved : Moved _ _ _ _ _ := hsound
      rw [has_iff_look hfiled]
      exact iff_of_true ⟨hmoved.check, bytes, hmoved.look_eq⟩ (.inr ⟨rfl, rfl⟩)
  · rw [has_iff_of_sameFiles hsound.sameFiles fun path => hfiled.path_not_mem hkey]
    simp [hkey]

theorem has_remove :
    SaveStore.Has (s.remove key).2 key' ↔
      SaveStore.Has s key' ∧ ¬ ((s.remove key).1 = .ok () ∧ key' = key) := by
  rcases hpath : path? key with _ | path
  · have hremove : s.remove key = (.error (.invalidKey key), s) := by rw [remove, hpath]
    rw [hremove]
    simp
  obtain ⟨parent, name, hfiled⟩ := exists_filed hpath
  rw [remove_of_path? hfiled.path?]
  rcases hremove : s.root.removeFile (parent ++ [fileName name]) with e | root
  · -- A file that is there would have been removed.
    have habsent (he : e = .notFound) : ¬ SaveStore.Has s key := by
      rw [has_iff_look hfiled]
      rintro ⟨hcheck, content, hlook⟩
      obtain ⟨t, hremoved⟩ := FileTree.removeFile_ok hcheck hlook
      rw [hremove] at hremoved
      cases hremoved
    cases e
    case notFound =>
      refine (and_iff_left_of_imp ?_).symm
      rintro hhas ⟨-, rfl⟩
      exact habsent rfl hhas
    all_goals simp
  · by_cases hkey : key' = key
    · subst key'
      obtain ⟨-, hgone, -⟩ := FileTree.look_removeFile hremove
      rw [has_iff_look hfiled]
      simp [hgone]
    · have hsame : SaveStore.Has { s with root } key' ↔ SaveStore.Has s key' :=
        has_iff_of_sameFiles (FileTree.sameFiles_removeFile hremove) fun path hpath hmem =>
          hfiled.path_not_mem hkey hpath (List.mem_cons_of_mem _ hmem)
      simp [hsame, hkey]

instance : TruthfulStore FileStore where
  has_write := has_write
  has_remove := has_remove

end FileStore

/-! ### Calls -/

/-- A game saves to one of its slots, or empties one. -/
inductive SlotCall where
  | save (gameId slot : String) (shot : Snapshot)
  | clear (gameId slot : String)

namespace SlotCall

/-- The id of the game. -/
def gameId : SlotCall → String
  | save gameId _ _ | clear gameId _ => gameId

/-- The name of the slot. -/
def slot : SlotCall → String
  | save _ slot _ | clear _ slot => slot

/-- What holds of something after a call, that held of it or not, and that the call is about or
not. -/
def Leaves (held about : Prop) : SlotCall → Prop
  | save _ _ _ => held ∨ about
  | clear _ _ => held ∧ ¬ about

/-- What a store answers to a call, and the store afterwards. -/
def answer (store : σ) : SlotCall → Except StoreError Unit × σ
  | save gameId slot shot => Slot.save store gameId slot shot
  | clear gameId slot => Slot.clear store gameId slot

/-- The slots that are filled after a call, each with the id of its game. -/
def fill (filled : List (String × String)) : SlotCall → List (String × String)
  | save gameId slot _ => (gameId, slot) :: filled
  | clear gameId slot => filled.filter (· ≠ (gameId, slot))

end SlotCall

/-- A store with the slots that are filled in it, each with the id of its game. -/
structure Archive (σ : Type) where
  store : σ
  filled : List (String × String)

namespace Archive

/-- Makes a call. If it fails, no slot is filled or emptied. -/
def serve (a : Archive σ) (call : SlotCall) : Archive σ where
  store := (call.answer a.store).2
  filled := if (call.answer a.store).1 = .ok () then call.fill a.filled else a.filled

/-- Makes calls, one after the other, of a store in which no slot is filled. -/
def after (store : σ) (calls : List SlotCall) : Archive σ := calls.foldl serve ⟨store, []⟩

variable {a : Archive σ} {call : SlotCall} {calls : List SlotCall} {id slot key : String}
  {store : σ}

theorem isTaken_iff_has : Slot.isTaken store id slot ↔ SaveStore.Has store (Slot.key id slot) := by
  unfold Slot.isTaken SaveStore.Has
  split <;> simp [*]

/-- What holds before all calls, and each of them preserves, holds after them. -/
theorem after_preserves {motive : Archive σ → Prop} (hstore : motive ⟨store, []⟩)
    (hserve : ∀ a, motive a → ∀ call ∈ calls, motive (a.serve call)) : motive (after store calls) :=
  List.foldlRecOn calls serve hstore hserve

/-- The slots that are filled after a call. -/
theorem mem_filled_serve {entry : String × String} :
    entry ∈ (a.serve call).filled ↔ call.Leaves (entry ∈ a.filled)
      ((call.answer a.store).1 = .ok () ∧ entry = (call.gameId, call.slot)) := by
  unfold serve
  cases call with
  | save gameId slot shot =>
    change _ ↔ entry ∈ a.filled ∨ _ ∧ entry = (gameId, slot)
    split <;> simp [*, SlotCall.fill, or_comm]
  | clear gameId slot =>
    change _ ↔ entry ∈ a.filled ∧ ¬ (_ ∧ entry = (gameId, slot))
    split <;> simp [*, SlotCall.fill]

variable [TruthfulStore σ]

/-- The keys of a store after a call. -/
theorem has_serve :
    SaveStore.Has (a.serve call).store key ↔ call.Leaves (SaveStore.Has a.store key)
      ((call.answer a.store).1 = .ok () ∧ key = Slot.key call.gameId call.slot) := by
  cases call with
  | save gameId slot shot => exact TruthfulStore.has_write
  | clear gameId slot => exact TruthfulStore.has_remove

/-- Only keys of slots are found in the store. -/
theorem exists_key (hstore : ∀ key, ¬ SaveStore.Has store key)
    (h : SaveStore.Has (after store calls).store key) : ∃ id slot, key = Slot.key id slot := by
  refine after_preserves (motive := fun a => ∀ key, SaveStore.Has a.store key →
    ∃ id slot, key = Slot.key id slot) (fun key h => absurd h (hstore key)) ?_ key h
  intro a ih call _ key h
  rw [has_serve] at h
  cases call with
  | save gameId slot shot =>
    rcases h with h | ⟨-, rfl⟩
    · exact ih key h
    · exact ⟨gameId, slot, rfl⟩
  | clear gameId slot => exact ih key h.1

/-- An id goes on behind that of no game in some calls, and none of these behind it. -/
def Apart (id : String) (calls : List SlotCall) : Prop :=
  ∀ call ∈ calls, ¬ Slot.Nested call.gameId id ∧ ¬ Slot.Nested id call.gameId

theorem key_eq_key_iff_of_apart {id' slot' : String}
    (h : ¬ Slot.Nested id' id ∧ ¬ Slot.Nested id id') :
    Slot.key id slot = Slot.key id' slot' ↔ (id, slot) = (id', slot') := by
  rw [Prod.mk.injEq]
  by_cases hid : id = id'
  · subst hid
    exact ⟨fun hkey => ⟨rfl, Slot.key_injective hkey⟩, fun hslot => by rw [hslot.2]⟩
  · have hkeys := (Slot.keys_differ_iff hid).mpr h.symm
    simp [hid, hkeys slot slot']

/-- A slot is taken when it is filled, if no other game has its key. -/
theorem isTaken_iff (hstore : ∀ key, ¬ SaveStore.Has store key) (hapart : Apart id calls) :
    Slot.isTaken (after store calls).store id slot ↔ (id, slot) ∈ (after store calls).filled := by
  rw [isTaken_iff_has]
  refine after_preserves (motive := fun a => SaveStore.Has a.store (Slot.key id slot) ↔
    (id, slot) ∈ a.filled) (iff_of_false (hstore _) List.not_mem_nil) fun a ih call hcall => ?_
  rw [has_serve, mem_filled_serve, ih, key_eq_key_iff_of_apart (hapart call hcall)]

end Archive

end IdleGame
