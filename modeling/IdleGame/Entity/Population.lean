import IdleGame.Entity

/-!
# Populations

The live entities of a game, in the order of their ids, with an index of the ids of each kind. Ids
are handed out in increasing order and stay taken after an entity is gone.

## Main definitions

* `Population` - live entities, index and next id
* `Population.spawn`, `Population.remove`, `Population.modify` - changes
* `Population.query` - the entities that pass a test
* `Population.ofKind`, `Population.idsOfKind`, `Population.count` - the entities of a kind
* `Population.restore` - a population from a list of entities
-/

namespace IdleGame

/-- Puts an id into an increasing list of ids, once. -/
def insertId (id : EntityId) : List EntityId → List EntityId
  | [] => [id]
  | i :: is =>
    if id.number < i.number then id :: i :: is
    else if id.number = i.number then i :: is
    else i :: insertId id is

/-- Puts an entity into a list of entities with increasing ids, in place of one with its id. -/
def insertEntity (e : Entity) : List Entity → List Entity
  | [] => [e]
  | f :: fs =>
    if e.id.number < f.id.number then e :: f :: fs
    else if e.id.number = f.id.number then e :: fs
    else f :: insertEntity e fs

/-- The live entities of a game. -/
structure Population where
  /-- The entities, by increasing id. -/
  members : List Entity
  /-- The ids of the entities of each kind, increasing. -/
  index : Table (List EntityId)
  /-- The number that the next entity gets. -/
  next : Nat
deriving DecidableEq

namespace Population

/-- Nobody there yet. -/
def empty : Population := ⟨[], Table.empty, 0⟩

instance : Inhabited Population := ⟨empty⟩

/-- The ids of the entities of a kind, increasing. -/
def idsOfKind (p : Population) (kind : String) : List EntityId := (p.index.get? kind).getD []

/-- The number of entities of a kind. -/
def count (p : Population) (kind : String) : Nat := (p.idsOfKind kind).length

/-- The entity with an id. -/
def get? (p : Population) (id : EntityId) : Option Entity := p.members.find? (·.id = id)

/-- Whether an id belongs to a live entity. -/
def contains (p : Population) (id : EntityId) : Bool := (p.get? id).isSome

/-- The entities that pass a test, by increasing id. -/
def query (p : Population) (test : Entity → Bool) : List Entity := p.members.filter test

/-- The entities of a kind, by increasing id. -/
def ofKind (p : Population) (kind : String) : List Entity := (p.idsOfKind kind).filterMap p.get?

/-- Puts an entity among the members and its id into the index. -/
def enter (p : Population) (e : Entity) : Population :=
  { p with
    members := insertEntity e p.members
    index := p.index.insert e.kind (insertId e.id (p.idsOfKind e.kind)) }

/-- A new entity, with the id that it gets. -/
def spawn (p : Population) (kind : String) (properties : Values) : EntityId × Population :=
  (⟨p.next⟩, { p.enter ⟨⟨p.next⟩, kind, properties⟩ with next := p.next + 1 })

/-- The population without an entity, which is returned if it was there. -/
def remove (p : Population) (id : EntityId) : Option Entity × Population :=
  match p.get? id with
  | none => (none, p)
  | some e =>
    (some e, { p with
      members := p.members.filter (·.id ≠ id)
      index := match p.index.get? e.kind with
        | some ids => p.index.insert e.kind (ids.filter (· ≠ id))
        | none => p.index })

/-- Changes the entity with an id, if it is there. The change keeps id and kind. -/
def modify (p : Population) (id : EntityId) (f : Entity → Entity) : Population :=
  { p with members := p.members.map fun e => if e.id = id then f e else e }

/-- Writes properties of an entity, if it is there. -/
def patch (p : Population) (id : EntityId) (properties : Values) : Population :=
  p.modify id (·.patch properties)

/-- Drops every entity; their ids stay taken. -/
def clear (p : Population) : Population := ⟨[], Table.empty, p.next⟩

/-- A population of the given entities, whose next id is at least `next` and above all of
theirs. -/
def restore (entities : List Entity) (next : Nat) : Population :=
  { entities.foldl enter empty with
    next := entities.foldl (fun n e => max n (e.id.number + 1)) next }

end Population

end IdleGame
