import IdleGame.Action.Run
import IdleGame.Project

/-!
# Purchases

A project can be bought when it is unlocked, not used up and affordable. All of this is found out
before anything changes, on a copy of the random source that is kept only if the purchase goes
through.

## Main definitions

* `Uses` - how often each project has been bought
* `Uses.count` - counts a further use
* `Project.isAvailable`, `Project.totals`, `Project.canAfford` - the questions asked before
* `Project.purchase` - buys a project
-/

namespace IdleGame

/-- How often each project has been bought. -/
abbrev Uses := Table Nat

namespace Uses

/-- The largest count that can be kept. -/
def maxCount : Nat := Nat.pow 2 32 - 1

/-- How often a project has been bought. -/
def of (uses : Uses) (id : String) : Nat := (uses.get? id).getD 0

/-- The counts with a further use of a project. Behind the largest count the numbers start anew. -/
def count (uses : Uses) (id : String) : Uses :=
  uses.insert id ((uses.of id + 1) % (maxCount + 1))

end Uses

namespace Project

variable {ρ : Type} [RandomSource ρ]

/-- Whether a project is unlocked and not used up. -/
def isAvailable (p : Project) (uses : Uses) (view : View) : Draws ρ Bool :=
  if p.isExhausted (uses.of p.id) then pure false else p.trigger.test view

/-- Adds the amounts of costs to totals by resource. -/
def addCosts (view : View) : List Cost → Table Float → Draws ρ (Table Float)
  | [], totals => pure totals
  | c :: cs, totals => do
    let amount ← c.amount.toNumber view
    addCosts view cs (totals.insert c.resource ((totals.get? c.resource).getD 0.0 + amount))

/-- What a purchase costs, by resource. -/
def totals (p : Project) (view : View) : Draws ρ (Table Float) :=
  addCosts view p.costs Table.empty

/-- Whether every resource covers its total. -/
def covers (w : World ρ) (totals : Table Float) : Bool :=
  totals.entries.all fun (resource, amount) => amount ≤ w.number resource

/-- Whether the world can pay for the project, asked from outside of all actions. -/
def canAfford (p : Project) (w : World ρ) : Draws ρ Bool := do
  return covers w (← p.totals (w.view Table.empty none))

/-- The totals to pay, if the project is available and affordable. -/
def price? (p : Project) (params : Values) (uses : Uses) (w : World ρ) :
    Draws ρ (Option (Table Float)) := do
  let view := w.view params none
  if ← p.isAvailable uses view then
    let totals ← p.totals view
    -- Costs of the same resource have to be covered together, so the totals are compared.
    return if covers w totals then some totals else none
  else return none

/-- The world after paying. -/
def pay (w : World ρ) (totals : Table Float) : World ρ :=
  totals.entries.foldl (fun w (resource, amount) =>
    w.write resource (.number (w.number resource - amount))) w

/-- Buys a project, if that is possible: pays, runs its effects and counts the purchase. -/
def purchase (p : Project) (env : Surroundings) (uses : Uses) (s : Scope ρ) :
    Except Fault (Option (Uses × Scope ρ)) := do
  let (price, world) ← s.world.draw (p.price? env.params uses s.world)
  match price with
  | none => return none
  | some totals =>
    let s ← Action.runAll env none p.effects { s with world := pay world totals }
    return some (uses.count p.id, s)

end Project

end IdleGame
