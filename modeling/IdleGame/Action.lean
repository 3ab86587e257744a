import IdleGame.Expr
import IdleGame.Message

/-!
# Actions

Actions are authored as data and change the game. An action list runs in order, and every action
sees what those before it have done.

## Main definitions

* `Action` - a change of the game
* `Choice` - a weighted branch of a random action
* `Action.tag` - the name that an action is authored with
* `Action.nodes` - an action and all the actions in it, depth first
-/

namespace IdleGame

mutual

/-- A change of the game. -/
inductive Action where
  /-- Writes a variable. -/
  | set (target : String) (value : Expr)
  /-- Adds to a variable. -/
  | add (target : String) (value : Expr)
  /-- Scales a variable. -/
  | multiply (target : String) (value : Expr)
  /-- Runs one of two lists. -/
  | branch (condition : Expr) (yes no : List Action)
  /-- Runs one of several lists, chosen at random. -/
  | random (choices : List Choice)
  /-- Writes to the message log. -/
  | message (template : String) (kind : MessageKind)
  /-- Delivers an event to the program that runs the game. -/
  | emit (event : String) (data : List (String × Expr))
  /-- Queues an event for the rules that listen for it. -/
  | trigger (event : String) (params : List (String × Expr))
  /-- Creates an entity. -/
  | spawn (kind : String) (properties : List (String × Expr))
  /-- Runs a list once for each entity of a kind that passes a filter, with it as the target. -/
  | forEach (kind : String) (filter : Option Expr) (body : List Action)
  /-- Writes a property of the target. -/
  | setProp (property : String) (value : Expr)
  /-- Adds to a property of the target. -/
  | addProp (property : String) (value : Expr)
  /-- Removes the target. -/
  | despawn

/-- A branch of a random action. -/
inductive Choice where
  | mk (weight : Float) (actions : List Action)

end

namespace Choice

/-- How likely the branch is, in proportion to the others. -/
def weight : Choice → Float
  | mk w _ => w

/-- What the branch does. -/
def actions : Choice → List Action
  | mk _ as => as

end Choice

namespace Action

instance : Inhabited Action := ⟨despawn⟩

/-- The name that an action is authored with. -/
def tag : Action → String
  | set .. => "set"
  | add .. => "add"
  | multiply .. => "multiply"
  | branch .. => "if"
  | random _ => "random"
  | message .. => "message"
  | emit .. => "emit"
  | trigger .. => "trigger"
  | spawn .. => "spawn"
  | forEach .. => "for_each"
  | setProp .. => "set_prop"
  | addProp .. => "add_prop"
  | despawn => "despawn"

mutual

/-- The action and all actions in it, an action before its parts. -/
def nodes : Action → List Action
  | a@(.branch _ yes no) => a :: (nodesOfAll yes ++ nodesOfAll no)
  | a@(.random choices) => a :: nodesOfChoices choices
  | a@(.forEach _ _ body) => a :: nodesOfAll body
  | a@(.set ..) | a@(.add ..) | a@(.multiply ..) | a@(.message ..) | a@(.emit ..)
  | a@(.trigger ..) | a@(.spawn ..) | a@(.setProp ..) | a@(.addProp ..) | a@.despawn => [a]

/-- The nodes of each action of a list in turn. -/
def nodesOfAll : List Action → List Action
  | [] => []
  | a :: as => nodes a ++ nodesOfAll as

/-- The nodes of the actions of each choice in turn. -/
def nodesOfChoices : List Choice → List Action
  | [] => []
  | .mk _ as :: cs => nodesOfAll as ++ nodesOfChoices cs

end

end Action

end IdleGame
