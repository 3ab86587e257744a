import IdleGame.Phase
import IdleGame.Project
import IdleGame.Rule

/-!
# Game definitions

A definition holds everything that is authored about a game. It does not change while the game is
played.

## Main definitions

* `Sections` - declarations, phases, rules, projects and functions
* `Game` - an authored game
* `Game.initialState`, `Game.kinds` - the declared variables with initial values and kinds
-/

namespace IdleGame

/-- Which game it is. -/
structure Identity where
  id : String
  name : String
  version : String := "1"
deriving DecidableEq, Repr

/-- How a game is run. -/
structure Config where
  /-- The number of ticks of a second. -/
  ticksPerSecond : Nat := 10
  /-- Seconds between automatic saves; none with zero. -/
  autosaveInterval : Nat := 30
  /-- The capacity of the message log. -/
  maxMessages : Nat := 50
  /-- The seed of the built-in generator. -/
  seed : UInt64 := 12345
deriving DecidableEq, Repr

/-- The declaration of a state variable. -/
structure VarDecl where
  id : String
  kind : VarKind := .number
  initial : Option Value := none
  /-- The number of places shown to players. -/
  precision : Option Nat := none
deriving DecidableEq

namespace VarDecl

/-- The value at the start of a game, turned into the declared kind. -/
def initialValue (d : VarDecl) : Value :=
  match d.initial with
  | some v => v.coerce d.kind
  | none => d.kind.zero

end VarDecl

/-- The sections of a game, which can be spread over several files. -/
structure Sections where
  declarations : List VarDecl := []
  phases : List Phase := []
  rules : List Rule := []
  projects : List Project := []
  /-- Action lists that a player can call by name. -/
  functions : Table (List Action) := Table.empty

/-- An authored game. -/
structure Game extends Sections where
  identity : Identity
  config : Config := {}

namespace Game

/-- The state at the start of a game. -/
def initialState (g : Game) : Values :=
  Table.ofList (g.declarations.map fun d => (d.id, d.initialValue))

/-- The kinds of the declared variables. -/
def kinds (g : Game) : Table VarKind := Table.ofList (g.declarations.map fun d => (d.id, d.kind))

/-- The first declaration of a variable. -/
def declaration? (g : Game) (id : String) : Option VarDecl := g.declarations.find? (·.id = id)

/-- The first rule with an id. -/
def rule? (g : Game) (id : String) : Option Rule := g.rules.find? (·.id = id)

/-- The first phase with an id. -/
def phase? (g : Game) (id : String) : Option Phase := g.phases.find? (·.id = id)

/-- The first project with an id. -/
def project? (g : Game) (id : String) : Option Project := g.projects.find? (·.id = id)

/-- The actions of a function. -/
def function? (g : Game) (name : String) : Option (List Action) := g.functions.get? name

/-- A value as it is shown to players: numbers with the places declared for the variable. -/
def format (g : Game) (id : String) (v : Value) : Except Fault String :=
  v.displayWith ((g.declaration? id).bind VarDecl.precision)

end Game

end IdleGame
