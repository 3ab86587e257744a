import IdleGame.Action

/-!
# Phases

A game is in at most one phase: the first whose trigger holds.

## Main definitions

* `Phase` - an authored phase
-/

namespace IdleGame

/-- An authored phase. -/
structure Phase where
  id : String
  name : String := ""
  trigger : Expr
  /-- What happens when the phase is entered. -/
  onEnter : List Action := []

end IdleGame
