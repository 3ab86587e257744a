import IdleGame.Phase.Current
import IdleGame.Project.Purchase
import IdleGame.Rule.Schedule
import IdleGame.Snapshot

/-!
# Sessions

A session is a game being played: the world, what is counted about rules and projects, the current
phase, the events that wait for the program that runs the game, and the store of saved games.

## Main definitions

* `Session` - a game being played
* `Session.ofGame`, `Session.reset` - the beginning of a game
* `Session.set`, `Session.spawn`, `Session.remove`, `Session.modify` - changes from outside the
  rules
* `Session.canAfford`, `Session.isAvailable`, `Session.available` - questions about projects
-/

namespace IdleGame

/-- A game being played. -/
structure Session (ρ σ : Type) where
  game : Game
  world : World ρ
  records : FireRecords
  phase : Option String
  uses : Uses
  store : σ
  /-- Events that have not been taken yet. -/
  events : List GameEvent
  running : Bool
  /-- The completed seconds at the last automatic save, load or reset. -/
  lastAutosave : Nat

namespace Session

variable {ρ σ : Type}

/-- The beginning of a game. -/
def ofGame (game : Game) (random : ρ) (store : σ) : Session ρ σ where
  game
  world := World.ofGame game random
  records := Table.empty
  phase := none
  uses := Table.empty
  store
  events := []
  running := false
  lastAutosave := 0

/-- The session back at the beginning of its game. It goes on running if it was, the random source
stays where it is, ids of entities stay taken, and saved games stay saved. -/
def reset (s : Session ρ σ) : Session ρ σ :=
  { s with
    world := s.world.reset s.game
    records := Table.empty
    phase := none
    uses := Table.empty
    events := []
    lastAutosave := 0 }

/-- Lets time pass from now on. -/
def start (s : Session ρ σ) : Session ρ σ := { s with running := true }

/-- Lets no time pass from now on. -/
def stop (s : Session ρ σ) : Session ρ σ := { s with running := false }

/-- The declared kinds, and parameters for actions. -/
def surroundings (s : Session ρ σ) (params : Values) : Surroundings := ⟨s.game.kinds, params⟩

/-- The value of a variable. -/
def get? (s : Session ρ σ) (id : String) : Option Value := s.world.state.get? id

/-- The value of a variable as it is shown to players. -/
def format? (s : Session ρ σ) (id : String) : Except Fault (Option String) :=
  (s.get? id).mapM (s.game.format id)

/-- Writes a variable from outside the rules, turned into the declared kind. -/
def set (s : Session ρ σ) (id : String) (v : Value) : Session ρ σ :=
  { s with world := s.world.write id ((s.surroundings Table.empty).coerce id v) }

/-- The session with its entities changed. -/
def onPopulation (s : Session ρ σ) (population : Population) : Session ρ σ :=
  { s with world := { s.world with population } }

/-- Creates an entity. -/
def spawn (s : Session ρ σ) (kind : String) (properties : Values) : EntityId × Session ρ σ :=
  let (id, population) := s.world.population.spawn kind properties
  (id, s.onPopulation population)

/-- Removes an entity, and tells whether it was there. -/
def remove (s : Session ρ σ) (id : EntityId) : Bool × Session ρ σ :=
  let (removed, population) := s.world.population.remove id
  (removed.isSome, s.onPopulation population)

/-- Writes properties of an entity, and tells whether it is there. -/
def modify (s : Session ρ σ) (id : EntityId) (properties : Values) : Bool × Session ρ σ :=
  (s.world.population.contains id, s.onPopulation (s.world.population.patch id properties))

/-- The waiting events, which wait no longer. -/
def takeEvents (s : Session ρ σ) : List GameEvent × Session ρ σ :=
  (s.events, { s with events := [] })

/-- The messages, which are dropped from the log. -/
def takeMessages (s : Session ρ σ) : List Message × Session ρ σ :=
  let (messages, log) := s.world.log.drain
  (messages, { s with world := { s.world with log } })

section

variable [RandomSource ρ]

/-- Asks a question about a project on a copy of the random source. An unknown project has none. -/
def ask (s : Session ρ σ) (id : String) (question : Project → Draws ρ Bool) : Except Fault Bool :=
  match s.game.project? id with
  | some p => s.world.peek (question p)
  | none => .ok false

/-- Whether a project can be paid for. -/
def canAfford (s : Session ρ σ) (id : String) : Except Fault Bool :=
  s.ask id fun p => p.canAfford s.world

/-- Whether a project is unlocked and not used up. -/
def isAvailable (s : Session ρ σ) (id : String) : Except Fault Bool :=
  s.ask id fun p => p.isAvailable s.uses (s.world.view Table.empty none)

/-- The projects that pass a test, asked one after the other. -/
def filterProjects (test : Project → Draws ρ Bool) : List Project → Draws ρ (List Project)
  | [] => pure []
  | p :: ps => do
    let passes ← test p
    let rest ← filterProjects test ps
    return if passes then p :: rest else rest

/-- The projects that are unlocked and not used up, in the order of their declaration. -/
def available (s : Session ρ σ) : Except Fault (List Project) :=
  s.world.peek <| filterProjects
    (fun p => p.isAvailable s.uses (s.world.view Table.empty none)) s.game.projects

end

end Session

end IdleGame
