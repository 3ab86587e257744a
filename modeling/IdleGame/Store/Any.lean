import IdleGame.Store.Database
import IdleGame.Store.Files
import IdleGame.Store.Memory

/-!
# Stores of any kind

## Main definitions

* `AnyStore` - a store whose kind is chosen when a program runs
-/

namespace IdleGame

/-- A store of one of the kinds. -/
inductive AnyStore where
  | memory (s : MemoryStore)
  | files (s : FileStore)
  | database (s : DatabaseStore)
  | offline (s : OfflineStore)

namespace AnyStore

/-- The result of a change, with the changed store as one of any kind. -/
def lift {σ : Type} (make : σ → AnyStore) (r : Except StoreError Unit × σ) :
    Except StoreError Unit × AnyStore := (r.1, make r.2)

instance : SaveStore AnyStore where
  read
    | memory s => SaveStore.read s
    | files s => SaveStore.read s
    | database s => SaveStore.read s
    | offline s => SaveStore.read s
  write
    | memory s, key, bytes => lift memory (SaveStore.write s key bytes)
    | files s, key, bytes => lift files (SaveStore.write s key bytes)
    | database s, key, bytes => lift database (SaveStore.write s key bytes)
    | offline s, key, bytes => lift offline (SaveStore.write s key bytes)
  remove
    | memory s, key => lift memory (SaveStore.remove s key)
    | files s, key => lift files (SaveStore.remove s key)
    | database s, key => lift database (SaveStore.remove s key)
    | offline s, key => lift offline (SaveStore.remove s key)
  contains
    | memory s => SaveStore.contains s
    | files s => SaveStore.contains s
    | database s => SaveStore.contains s
    | offline s => SaveStore.contains s

end AnyStore

end IdleGame
