import IdleGame.Store.Database

/-!
# Database files

A database file is a table in RON, from the keys of slots to their bytes.

## Main definitions

* `DatabaseStore.text`, `DatabaseStore.ofText?` - between databases and texts
-/

namespace IdleGame.DatabaseStore

/-- The tree of a database. -/
def toRon (s : DatabaseStore) : Ron :=
  s.payloads.toRon fun payload => .list (payload.toList.map fun b => Ron.ofNat b.toNat)

/-- The text of a database. -/
def text (s : DatabaseStore) : String := s.toRon.write

/-- The bytes that a datum denotes. -/
def bytesOfDatum? {δ : Type} [Datum δ] (d : δ) : Option ByteArray := do
  let bytes ← Datum.listOf? (Datum.nat? 8) d
  return ⟨(bytes.map UInt8.ofNat).toArray⟩

/-- The database that a text holds. -/
def ofText? (text : String) : Option DatabaseStore := do
  return ⟨← Datum.tableOf? bytesOfDatum? (← Ron.document? {} text)⟩

end IdleGame.DatabaseStore
