import IdleGame.Action.Run
import IdleGame.Phase

/-!
# The current phase

## Main definitions

* `Phase.firstHolding` - the first phase whose trigger holds
* `Phase.update` - makes that phase the current one, and runs its entry actions if it was not
-/

namespace IdleGame.Phase

variable {ρ : Type} [RandomSource ρ]

/-- The first phase whose trigger holds. Triggers after it are not evaluated. -/
def firstHolding (env : Surroundings) : List Phase → Scope ρ →
    Except Fault (Option Phase × Scope ρ)
  | [], s => return (none, s)
  | p :: ps, s => do
    let (v, s) ← s.eval env none p.trigger
    if v.isTruthy then return (some p, s) else firstHolding env ps s

/-- The result of an update: the id of the current phase, the id of the phase that was just
entered, and the scope. -/
structure Update (ρ : Type) where
  current : Option String
  entered : Option String
  scope : Scope ρ

/-- Makes the first phase whose trigger holds the current one. If it was not, its entry actions
run. -/
def update (env : Surroundings) (phases : List Phase) (current : Option String) (s : Scope ρ) :
    Except Fault (Update ρ) := do
  let (candidate, s) ← firstHolding env phases s
  -- Staying in a phase is no entry, and neither is having none as before.
  if candidate.map Phase.id = current then return ⟨current, none, s⟩
  else
    match candidate with
    | some p =>
      let s ← Action.runAll env none p.onEnter s
      return ⟨some p.id, some p.id, s⟩
    | none => return ⟨none, none, s⟩

end IdleGame.Phase
