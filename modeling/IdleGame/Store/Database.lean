import IdleGame.FileTree
import IdleGame.Store

/-!
# Stores in a database

A database keeps a row for every slot, under the key of the slot, with the id of the game that the
slot belongs to.

## Main definitions

* `DatabaseStore` - the rows
* `DatabaseStore.row?`, `DatabaseStore.slots` - look-ups by key and by game
* `DatabaseStore.canOpen` - whether a database file can be opened or made
-/

namespace IdleGame

/-- The row of a slot. -/
structure StoredSlot where
  key : String
  game : String
  payload : ByteArray

/-- A database of slots. -/
structure DatabaseStore where
  payloads : Table ByteArray

namespace DatabaseStore

/-- A database without rows. -/
def empty : DatabaseStore := ⟨Table.empty⟩

/-- The game that a key belongs to: what stands before the first slash. -/
def gameOf (key : String) : String := String.ofList (key.toList.takeWhile (· ≠ '/'))

/-- The row under a key. -/
def row? (s : DatabaseStore) (key : String) : Option StoredSlot :=
  (s.payloads.get? key).map fun payload => ⟨key, gameOf key, payload⟩

/-- The keys of the slots of a game, sorted. -/
def slots (s : DatabaseStore) (game : String) : List String :=
  (s.payloads.keys.filter (gameOf · = game)).mergeSort fun a b => decide (a ≤ b)

instance : SaveStore DatabaseStore where
  read s key := .ok (s.payloads.get? key)
  write s key bytes := (.ok (), ⟨s.payloads.insert key bytes⟩)
  remove s key := (.ok (), ⟨s.payloads.erase key⟩)
  contains s key := .ok (s.payloads.contains key)

/-- Whether a database can be kept in the file at a path: its directory has to be there, it may not
be a directory itself, and not a database that is open already. -/
def canOpen (files : FileTree) (isOpen : List String → Bool) (path : List String) : Bool :=
  !isOpen path && (files.writeFile path .empty).isOk

end DatabaseStore

end IdleGame
