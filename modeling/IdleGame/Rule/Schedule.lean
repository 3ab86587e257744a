import IdleGame.Action.Run
import IdleGame.Rule

/-!
# Passes over the rules

A pass considers the rules of its timing in the order of their declaration. A rule that is ready and
whose condition holds fires: its actions run to the end before the next rule is looked at, and its
record is updated.

## Main definitions

* `FireRecords` - the records of all rules that have fired
* `Pass.run` - one pass
-/

namespace IdleGame

/-- The records of the rules that have fired. -/
abbrev FireRecords := Table FireRecord

namespace FireRecords

/-- The record of a rule. -/
def of (records : FireRecords) (id : String) : FireRecord := (records.get? id).getD .fresh

end FireRecords

namespace Pass

variable {ρ : Type} [RandomSource ρ]

/-- The state of a pass: the records, the scope, and the ids of the rules that have fired. -/
structure Progress (ρ : Type) where
  records : FireRecords
  scope : Scope ρ
  fired : List String := []

/-- Considers one rule. -/
def consider (pass : Pass) (env : Surroundings) (r : Rule) (p : Progress ρ) :
    Except Fault (Progress ρ) := do
  let record := FireRecords.of p.records r.id
  if r.isAdmitted pass && r.isReady record pass.now then
    let (holds, scope) ← p.scope.eval env none r.condition
    -- The condition has drawn from the random source, whether it holds or not.
    if holds.isTruthy then
      let scope ← Action.runAll env none r.actions scope
      return ⟨p.records.insert r.id (record.fire pass.now), scope, p.fired ++ [r.id]⟩
    else return { p with scope }
  else return p

/-- Considers the rules in order. -/
def run (pass : Pass) (env : Surroundings) (rules : List Rule) (p : Progress ρ) :
    Except Fault (Progress ρ) :=
  rules.foldlM (fun p r => pass.consider env r p) p

end Pass

end IdleGame
