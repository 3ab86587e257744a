import IdleGame.Game
import IdleGame.Clock
import IdleGame.Entity
import IdleGame.Project.Purchase
import IdleGame.Rule.Schedule

/-!
# Snapshots

A snapshot holds all that is needed to go on with a game later: the variables, the entities with
their ids, the current phase, what has been counted about rules and projects, the clock and the
position of the random source.

## Main definitions

* `Snapshot` - a saved game
* `Snapshot.stamp`, `Snapshot.isCompatible` - which game a snapshot is of
* `Snapshot.isSame` - whether two snapshots hold equal data
-/

namespace IdleGame

/-- A saved game. -/
structure Snapshot where
  /-- The version of the form of snapshots. -/
  formatVersion : Nat
  gameId : String
  gameVersion : String
  state : Values
  entities : List Entity
  /-- The number of the next entity. -/
  nextEntity : Nat
  phase : Option String
  records : FireRecords
  uses : Uses
  clock : Clock
  /-- The position of the random source, if it has one. -/
  random : Option UInt64
deriving DecidableEq

namespace Snapshot

/-- The current version of the form of snapshots. -/
def currentFormat : Nat := 1

/-- A game id, a game version and a format version in one text. -/
def stampOf (gameId gameVersion : String) (formatVersion : Nat) : String :=
  gameId ++ "@" ++ gameVersion ++ "#" ++ String.ofList (digitsOf formatVersion)

/-- The stamp of a snapshot. -/
def stamp (s : Snapshot) : String := stampOf s.gameId s.gameVersion s.formatVersion

/-- The stamp that snapshots of a game have now. -/
def expectedStamp (g : Game) : String := stampOf g.identity.id g.identity.version currentFormat

/-- Whether a snapshot belongs to a game as it is now. -/
def isCompatible (s : Snapshot) (g : Game) : Bool := expectedStamp g = s.stamp

end Snapshot

/-- Whether two values are the same, where what is not a number is never the same as anything. -/
def Value.isSame : Value → Value → Bool
  | .bool a, .bool b => a = b
  | .number a, .number b => a == b
  | .string a, .string b => a = b
  | _, _ => false

/-- Whether two tables have the same names with the same values, in whatever order. -/
def Table.isSame {α : Type} (same : α → α → Bool) (s t : Table α) : Bool :=
  s.entries.length = t.entries.length &&
    s.entries.all fun e => (t.get? e.1).any (same e.2)

/-- Whether two entities hold equal data. -/
def Entity.isSame (a b : Entity) : Bool :=
  a.id = b.id && a.kind = b.kind && a.properties.isSame Value.isSame b.properties

/-- Whether two snapshots hold equal data. -/
def Snapshot.isSame (a b : Snapshot) : Bool :=
  a.formatVersion = b.formatVersion && a.gameId = b.gameId && a.gameVersion = b.gameVersion &&
    a.state.isSame Value.isSame b.state && a.entities.length = b.entities.length &&
    (a.entities.zip b.entities).all (fun (e, f) => e.isSame f) && a.nextEntity = b.nextEntity &&
    a.phase = b.phase && a.records.isSame (fun r s => decide (r = s)) b.records &&
    a.uses.isSame (fun m n => decide (m = n)) b.uses && a.clock = b.clock && a.random = b.random

end IdleGame
