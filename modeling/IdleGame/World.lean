import IdleGame.Clock
import IdleGame.Entity.Population
import IdleGame.Expr.Eval
import IdleGame.Game

/-!
# Worlds

A world is everything of a game that changes by its rules: variables, entities, messages, the clock
and the random source.

## Main definitions

* `World` - the changing part of a game
* `World.ofGame`, `World.reset` - the world at the start of a game
* `World.view` - what expressions read
* `World.draw` - a computation on the world's random source
* `World.peek` - a computation on a copy of it
-/

namespace IdleGame

/-- The changing part of a game. -/
structure World (ρ : Type) where
  state : Values
  population : Population
  log : MessageLog
  clock : Clock
  random : ρ

namespace World

variable {ρ α : Type}

/-- The world at the start of a game. -/
def ofGame (g : Game) (random : ρ) : World ρ :=
  ⟨g.initialState, Population.empty, MessageLog.ofCapacity g.config.maxMessages, Clock.start,
    random⟩

/-- The world back at the start of a game. The random source stays where it is, and ids of entities
stay taken. -/
def reset (w : World ρ) (g : Game) : World ρ :=
  { w with
    state := g.initialState
    population := w.population.clear
    log := w.log.clear
    clock := Clock.start }

/-- What expressions read, given the parameters and the target at hand. -/
def view (w : World ρ) (params : Values) (target : Option EntityId) : View where
  readVariable := w.state.get?
  readParameter := params.get?
  readProperty name := (target.bind w.population.get?).bind (·.get? name)
  population := w.population.count

/-- A variable as a number, zero if there is none. -/
def number (w : World ρ) (id : String) : Float :=
  ((w.state.get? id).map Value.toNumber).getD 0.0

/-- The world with a variable written. -/
def write (w : World ρ) (id : String) (v : Value) : World ρ :=
  { w with state := w.state.insert id v }

/-- Runs a computation on the random source of the world. -/
def draw (w : World ρ) (x : Draws ρ α) : Except Fault (α × World ρ) :=
  match x w.random with
  | (.ok a, random) => .ok (a, { w with random })
  | (.error e, _) => .error e

/-- Runs a computation on a copy of the random source, so that the world stays as it is. -/
def peek (w : World ρ) (x : Draws ρ α) : Except Fault α := (x w.random).1

end World

end IdleGame
