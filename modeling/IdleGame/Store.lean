import IdleGame.Snapshot.Ron

/-!
# Stores of saved games

A store keeps bytes under keys. A game keeps its snapshots in slots; the key of a slot is made of
the id of the game and the name of the slot, so that games can share a store.

## Main definitions

* `SaveStore` - a store
* `Slot.key`, `Slot.save`, `Slot.load`, `Slot.isTaken`, `Slot.clear` - slots in a store
* `StoreError`, `LoadError` - what can go wrong
-/

namespace IdleGame

/-- What keeps a store from doing what it was asked for. -/
inductive StoreError where
  /-- The key has no place in the store. -/
  | invalidKey (key : String)
  /-- The files of the store cannot be read or changed. -/
  | files
  /-- The database of the store cannot be opened, read or changed. -/
  | database
  /-- There is no store. -/
  | offline
deriving DecidableEq, Repr

namespace StoreError

/-- The error in words. -/
def message : StoreError → String
  | invalidKey key => "Invalid slot key: " ++ key
  | files => "IO error"
  | database => "Database error"
  | offline => "offline"

end StoreError

/-- A store of bytes under keys. Reading leaves a store as it is; removing an absent key
succeeds. -/
class SaveStore (σ : Type) where
  read : σ → String → Except StoreError (Option ByteArray)
  write : σ → String → ByteArray → Except StoreError Unit × σ
  remove : σ → String → Except StoreError Unit × σ
  contains : σ → String → Except StoreError Bool

/-- What keeps a slot from being loaded. -/
inductive LoadError where
  | store (e : StoreError)
  /-- The slot does not hold a snapshot. -/
  | corrupt
  /-- The snapshot is of another game, another version of it or of another form. -/
  | incompatible (expected found : String)
deriving DecidableEq, Repr

namespace LoadError

/-- The error in words. -/
def message : LoadError → String
  | store e => e.message
  | corrupt => "Corrupt save"
  | incompatible expected found =>
    "Incompatible save: expected " ++ expected ++ ", found " ++ found

end LoadError

/-- Refuses a snapshot that does not belong to a game as it is now. -/
def Snapshot.checkCompatible (s : Snapshot) (g : Game) : Except LoadError Unit :=
  if s.isCompatible g then .ok () else .error (.incompatible (expectedStamp g) s.stamp)

namespace Slot

variable {σ : Type} [SaveStore σ]

/-- The slot that is used when none is named. -/
def main : String := "main"

/-- The key of a slot of a game. -/
def key (gameId slot : String) : String := gameId ++ "/" ++ slot

/-- Writes a snapshot to a slot. -/
def save (store : σ) (gameId slot : String) (s : Snapshot) : Except StoreError Unit × σ :=
  SaveStore.write store (key gameId slot) s.encode

/-- The snapshot in a slot, if the slot is taken. -/
def load (store : σ) (gameId slot : String) : Except LoadError (Option Snapshot) :=
  match SaveStore.read store (key gameId slot) with
  | .error e => .error (.store e)
  | .ok none => .ok none
  | .ok (some bytes) =>
    match Snapshot.decode? bytes with
    | some s => .ok (some s)
    | none => .error .corrupt

/-- Whether a slot is taken. A store that fails has no slots. -/
def isTaken (store : σ) (gameId slot : String) : Bool :=
  match SaveStore.contains store (key gameId slot) with
  | .ok b => b
  | .error _ => false

/-- Empties a slot. -/
def clear (store : σ) (gameId slot : String) : Except StoreError Unit × σ :=
  SaveStore.remove store (key gameId slot)

end Slot

end IdleGame
