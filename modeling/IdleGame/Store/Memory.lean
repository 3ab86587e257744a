import IdleGame.Store

/-!
# Stores in memory

## Main definitions

* `MemoryStore` - bytes under keys, in the order in which the keys were first written
* `OfflineStore` - a store that fails every call
-/

namespace IdleGame

/-- A store that lasts as long as the program. -/
structure MemoryStore where
  slots : Table ByteArray

namespace MemoryStore

/-- A store without slots. -/
def empty : MemoryStore := ⟨Table.empty⟩

instance : SaveStore MemoryStore where
  read s key := .ok (s.slots.get? key)
  write s key bytes := (.ok (), ⟨s.slots.insert key bytes⟩)
  remove s key := (.ok (), ⟨s.slots.erase key⟩)
  contains s key := .ok (s.slots.contains key)

end MemoryStore

/-- A store that cannot be reached. -/
inductive OfflineStore where
  | unreachable

instance : SaveStore OfflineStore where
  read _ _ := .error .offline
  write s _ _ := (.error .offline, s)
  remove s _ := (.error .offline, s)
  contains _ _ := .error .offline

end IdleGame
