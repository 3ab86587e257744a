import IdleGame.Ron.Datum
import IdleGame.Ron.Write
import IdleGame.Snapshot

/-!
# Snapshots in RON

## Main definitions

* `Snapshot.ofDatum?` - the snapshot that a datum denotes
* `Snapshot.toRon` - the tree of a snapshot
* `Snapshot.encode`, `Snapshot.decode?` - snapshots as text in UTF-8
-/

namespace IdleGame

section

variable {δ : Type} [Datum δ]

/-- The entity that a datum denotes. -/
def Entity.ofDatum? (d : δ) : Option Entity := do
  let fields ← Datum.record? "Entity" [⟨"id", []⟩, ⟨"type", []⟩, ⟨"properties", []⟩] d
  return {
    id := ⟨← fields.required? "id" (Datum.nat? 64)⟩
    kind := ← fields.required? "type" Datum.string?
    properties := ← fields.required? "properties" Datum.values? }

/-- The record of a rule that a datum denotes. -/
def FireRecord.ofDatum? (d : δ) : Option FireRecord := do
  let fields ← Datum.record? "RuleRuntime" [⟨"fires", []⟩, ⟨"last_fired", []⟩] d
  return {
    fires := ← fields.required? "fires" (Datum.nat? 32)
    last := ← fields.optional? "last_fired" (Datum.nat? 64) }

/-- The clock that a datum denotes. -/
def Clock.ofDatum? (d : δ) : Option Clock := do
  let fields ← Datum.record? "Clock" [⟨"tick", []⟩, ⟨"seconds", []⟩] d
  return {
    tick := ← fields.required? "tick" (Datum.nat? 64)
    seconds := ← fields.required? "seconds" (Datum.nat? 64) }

namespace Snapshot

/-- The fields of a snapshot. -/
def fields : List Field :=
  [⟨"format_version", []⟩, ⟨"game_id", []⟩, ⟨"game_version", []⟩, ⟨"state", []⟩, ⟨"entities", []⟩,
    ⟨"next_entity_id", []⟩, ⟨"phase", []⟩, ⟨"rule_counters", []⟩, ⟨"project_counters", []⟩,
    ⟨"clock", []⟩, ⟨"rng", []⟩]

/-- The snapshot that a datum denotes. -/
def ofDatum? (d : δ) : Option Snapshot := do
  let fields ← Datum.record? "SaveBlob" fields d
  return {
    formatVersion := ← fields.required? "format_version" (Datum.nat? 32)
    gameId := ← fields.required? "game_id" Datum.string?
    gameVersion := ← fields.required? "game_version" Datum.string?
    state := ← fields.required? "state" Datum.values?
    entities := ← fields.required? "entities" (Datum.listOf? Entity.ofDatum?)
    nextEntity := ← fields.required? "next_entity_id" (Datum.nat? 64)
    phase := ← fields.optional? "phase" Datum.string?
    records := ← fields.required? "rule_counters" (Datum.tableOf? FireRecord.ofDatum?)
    uses := ← fields.required? "project_counters" (Datum.tableOf? (Datum.nat? 32))
    clock := ← fields.required? "clock" Clock.ofDatum?
    random := (← fields.optional? "rng" (Datum.nat? 64)).map UInt64.ofNat }

end Snapshot

end

open Ron (ofNat ofFloat ofOption)

/-- The tree of a value, from which its kind can be told. -/
def Value.toRon : Value → Ron
  | .bool b => .name (Ron.keyword (if b then "true" else "false"))
  | .number x => ofFloat x
  | .string s => .text s

/-- The tree of a table. -/
def Table.toRon {α : Type} (tree : α → Ron) (t : Table α) : Ron :=
  .table (t.entries.map fun e => (.text e.1, tree e.2))

/-- The tree of an entity. -/
def Entity.toRon (e : Entity) : Ron :=
  .record none [("id", ofNat e.id.number), ("type", .text e.kind),
    ("properties", e.properties.toRon Value.toRon)]

/-- The tree of the record of a rule. -/
def FireRecord.toRon (r : FireRecord) : Ron :=
  .record none [("fires", ofNat r.fires), ("last_fired", ofOption ofNat r.last)]

/-- The tree of a clock. -/
def Clock.toRon (c : Clock) : Ron :=
  .record none [("tick", ofNat c.tick), ("seconds", ofNat c.seconds)]

namespace Snapshot

/-- The tree of a snapshot. -/
def toRon (s : Snapshot) : Ron :=
  .record none [
    ("format_version", ofNat s.formatVersion),
    ("game_id", .text s.gameId),
    ("game_version", .text s.gameVersion),
    ("state", s.state.toRon Value.toRon),
    ("entities", .list (s.entities.map Entity.toRon)),
    ("next_entity_id", ofNat s.nextEntity),
    ("phase", ofOption .text s.phase),
    ("rule_counters", s.records.toRon FireRecord.toRon),
    ("project_counters", s.uses.toRon ofNat),
    ("clock", s.clock.toRon),
    ("rng", ofOption (fun word => ofNat word.toNat) s.random)]

/-- The text of a snapshot. -/
def text (s : Snapshot) : String := s.toRon.write

/-- A snapshot as bytes. -/
def encode (s : Snapshot) : ByteArray := s.text.toUTF8

/-- The snapshot that bytes hold. -/
def decode? (bytes : ByteArray) : Option Snapshot := do
  ofDatum? (← Ron.document? {} (← String.fromUTF8? bytes))

end Snapshot

end IdleGame
