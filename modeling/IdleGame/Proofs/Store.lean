import IdleGame.Proofs.Table
import IdleGame.Store.Memory

/-!
# Reliable stores

A reliable store gives back the bytes that were last written under a key, whatever is done to other
keys in the meantime. What a slot holds then depends on the calls for that slot only.

## Main definitions

* `ReliableStore` - a store that gives back what was last written
* `FaithfulStore` - a reliable store that also knows which keys it holds

## Main results

* `Slot.key_injective` - slots of a game have different keys
* `Slot.load_save` - what is saved to a slot is loaded from it
* `Snapshot.decode?_encode` - decoding what was encoded reads the characters that were written
-/

namespace IdleGame

/-- A store that gives back the bytes last written under a key. A call that fails may leave the
store in any state that does so. -/
class ReliableStore (σ : Type) [SaveStore σ] : Prop where
  read_write {store : σ} {key : String} {bytes : ByteArray}
    (h : (SaveStore.write store key bytes).1 = .ok ()) :
    SaveStore.read (SaveStore.write store key bytes).2 key = .ok (some bytes)
  read_write_of_ne {store : σ} {key key' : String} {bytes : ByteArray} (h : key' ≠ key) :
    SaveStore.read (SaveStore.write store key bytes).2 key' = SaveStore.read store key'
  read_remove_of_ne {store : σ} {key key' : String} (h : key' ≠ key) :
    SaveStore.read (SaveStore.remove store key).2 key' = SaveStore.read store key'

instance : ReliableStore MemoryStore where
  read_write {store key bytes} _ := by
    change Except.ok ((store.slots.insert key bytes).get? key) = _
    rw [Table.get?_insert, if_pos rfl]
  read_write_of_ne {store key key' bytes} h := by
    change Except.ok ((store.slots.insert key bytes).get? key') = .ok (store.slots.get? key')
    rw [Table.get?_insert, if_neg h.symm]
  read_remove_of_ne {store key key'} h := by
    change Except.ok ((store.slots.erase key).get? key') = .ok (store.slots.get? key')
    rw [Table.get?_erase_of_ne h]

/-- A reliable store that holds a key exactly when there is something to read under it. -/
class FaithfulStore (σ : Type) [SaveStore σ] : Prop extends ReliableStore σ where
  contains_eq {store : σ} {key : String} :
    SaveStore.contains store key = (SaveStore.read store key).map Option.isSome

instance : FaithfulStore MemoryStore where
  contains_eq := rfl

namespace Slot

variable {σ : Type} [SaveStore σ] {store store' : σ} {gameId slot slot' : String} {shot : Snapshot}

/-- Slots of a game have different keys. -/
theorem key_injective (h : key gameId slot = key gameId slot') : slot = slot' := by
  have hlist : (key gameId slot).toList = (key gameId slot').toList := congrArg _ h
  simp only [key, String.toList_append] at hlist
  exact String.toList_inj.mp (List.append_cancel_left hlist)

/-- Stores from which the same bytes are read hold the same snapshot. -/
theorem load_congr
    (h : SaveStore.read store' (key gameId slot) = SaveStore.read store (key gameId slot)) :
    load store' gameId slot = load store gameId slot := by
  rw [load, h]
  rfl

variable [ReliableStore σ]

/-- What is saved to a slot, and can be decoded, is loaded from it. -/
theorem load_save (h : (save store gameId slot shot).1 = .ok ())
    (hdecode : Snapshot.decode? shot.encode = some shot) :
    load (save store gameId slot shot).2 gameId slot = .ok (some shot) := by
  have hread := ReliableStore.read_write h
  unfold load save
  rw [hread]
  dsimp only
  rw [hdecode]

/-- Saving to a slot leaves the other slots as they are. -/
theorem load_save_of_ne (h : slot' ≠ slot) :
    load (save store gameId slot shot).2 gameId slot' = load store gameId slot' :=
  load_congr (ReliableStore.read_write_of_ne fun hkey => h (key_injective hkey))

/-- Emptying a slot leaves the other slots as they are. -/
theorem load_clear_of_ne (h : slot' ≠ slot) :
    load (clear store gameId slot).2 gameId slot' = load store gameId slot' :=
  load_congr (ReliableStore.read_remove_of_ne fun hkey => h (key_injective hkey))

end Slot

/-- The bytes of a text encode that text. -/
theorem Text.fromUTF8?_toUTF8 (text : String) : String.fromUTF8? text.toUTF8 = some text :=
  dif_pos text.isValidUTF8

namespace Snapshot

/-- Decoding what was encoded reads the characters that were written. -/
theorem decode?_encode (s : Snapshot) :
    decode? s.encode = (Ron.parse? {} (Ron.writeAt 0 s.toRon)).bind fun (options, tree) =>
      ofDatum? ({ tree, room := 128, options } : Ron.Node) := by
  have hwritten : s.text.toList = Ron.writeAt 0 s.toRon := String.toList_ofList
  rw [decode?, encode, Text.fromUTF8?_toUTF8]
  simp only [Option.bind_eq_bind, Option.bind_some, Ron.document?, hwritten]
  rcases Ron.parse? {} (Ron.writeAt 0 s.toRon) with _ | ⟨options, tree⟩ <;> rfl

end Snapshot

end IdleGame
