/-!
# Faults

A fault is a request that has no answer. It ends what the game was doing.
-/

namespace IdleGame

/-- What can stop a game. -/
inductive Fault where
  /-- A number was to be clamped between bounds of which one is not a number. -/
  | unorderedBounds
  /-- A number was to be shown with more places than can be counted in sixteen bits. -/
  | tooManyPlaces
deriving DecidableEq, Repr

end IdleGame
