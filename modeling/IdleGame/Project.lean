import IdleGame.Action

/-!
# Projects

A project is bought with resources, once or several times, and then has its effects.

## Main definitions

* `Cost` - an amount of a resource
* `Project` - an authored project
* `Project.limit?` - how often it can be bought
-/

namespace IdleGame

/-- What a purchase takes from a resource. -/
structure Cost where
  /-- The variable that is paid from. -/
  resource : String
  amount : Expr

/-- An authored project. -/
structure Project where
  id : String
  name : String := ""
  description : String := ""
  /-- The project is locked until this holds. -/
  trigger : Expr := .always
  costs : List Cost := []
  effects : List Action := []
  repeatable : Bool := false
  /-- How often a repeatable project can be bought. -/
  maxUses : Option Nat := none

namespace Project

/-- How often the project can be bought, unless without limit. -/
def limit? (p : Project) : Option Nat := if p.repeatable then p.maxUses else some 1

/-- Whether a number of purchases uses the project up. -/
def isExhausted (p : Project) (uses : Nat) : Bool := p.limit?.any (decide <| · ≤ uses)

end Project

end IdleGame
