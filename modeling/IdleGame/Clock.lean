/-!
# The clock

Ticks are the finest unit of game time. A second is a fixed number of ticks, and the tick that
completes it closes it.

## Main definitions

* `Clock` - the completed ticks and seconds
* `Clock.closing?` - the second that the current tick closes
* `Clock.advance` - moves past the current tick
* `Clock.Fits` - what a clock shows can be held in a snapshot
-/

namespace IdleGame

/-- Game time. -/
structure Clock where
  /-- How many ticks have been completed, which is also the number of the current tick. -/
  tick : Nat
  /-- How many seconds have been completed. -/
  seconds : Nat
deriving DecidableEq, Repr, Inhabited

namespace Clock

/-- The beginning of a game. -/
def start : Clock := ⟨0, 0⟩

/-- The largest number of ticks or seconds that a snapshot can hold. -/
def maxCount : Nat := Nat.pow 2 64 - 1

/-- The ticks and the seconds of a clock can be held in a snapshot. -/
structure Fits (c : Clock) : Prop where
  tick : c.tick ≤ maxCount
  seconds : c.seconds ≤ maxCount

/-- The second that the current tick closes, at a rate of ticks a second where none counts as
one. -/
def closing? (rate : Nat) (c : Clock) : Option Nat :=
  if (c.tick + 1) % max rate 1 = 0 then some c.seconds else none

/-- The clock after the current tick. -/
def advance (rate : Nat) (c : Clock) : Clock :=
  ⟨c.tick + 1, if (c.closing? rate).isSome then c.seconds + 1 else c.seconds⟩

@[simp] theorem tick_advance (rate : Nat) (c : Clock) : (c.advance rate).tick = c.tick + 1 := rfl

end Clock

end IdleGame
