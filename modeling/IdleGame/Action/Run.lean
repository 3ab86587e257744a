import IdleGame.Random.Weighted
import IdleGame.Message.Template
import IdleGame.World

/-!
# Running actions

Actions run on a world and leave effects for others to handle: events for the program that runs the
game, triggers for event rules, and the ids of entities created and removed.

## Main definitions

* `Effects` - what actions leave behind besides the changed world
* `Scope` - a world with the effects so far
* `Surroundings` - the declared kinds and the parameters that actions run with
* `Action.run`, `Action.runAll` - runs an action, a list of actions
-/

namespace IdleGame

/-- What actions leave behind besides the changed world, in order. -/
structure Effects where
  events : List GameEvent := []
  /-- Names of queued events with their parameters. -/
  triggers : List (String × Values) := []
  spawned : List EntityId := []
  despawned : List EntityId := []
deriving DecidableEq

namespace Effects

/-- No effects. -/
def none : Effects := {}

/-- The effects of one run and then of another. -/
def append (a b : Effects) : Effects :=
  ⟨a.events ++ b.events, a.triggers ++ b.triggers, a.spawned ++ b.spawned,
    a.despawned ++ b.despawned⟩

instance : Append Effects := ⟨append⟩

end Effects

/-- A world in the middle of a run of actions, and the effects so far. -/
structure Scope (ρ : Type) where
  world : World ρ
  effects : Effects := Effects.none

/-- What actions run with besides the world. -/
structure Surroundings where
  /-- The kinds of the declared variables. -/
  kinds : Table VarKind
  params : Values := Table.empty

namespace Scope

variable {ρ α : Type} [RandomSource ρ]

/-- Runs a computation on the world's random source. -/
def draw (s : Scope ρ) (x : Draws ρ α) : Except Fault (α × Scope ρ) := do
  let (a, world) ← s.world.draw x
  return (a, { s with world })

/-- The value of an expression in the world as it is. -/
def eval (env : Surroundings) (target : Option EntityId) (e : Expr) (s : Scope ρ) :
    Except Fault (Value × Scope ρ) :=
  s.draw (e.eval (s.world.view env.params target))

/-- The values of expressions, one after the other. -/
def evalEach (env : Surroundings) (target : Option EntityId) : List Expr → Scope ρ →
    Except Fault (List Value × Scope ρ)
  | [], s => return ([], s)
  | e :: es, s => do
    let (v, s) ← s.eval env target e
    let (vs, s) ← evalEach env target es s
    return (v :: vs, s)

/-- The values of named expressions in the world as it is; a repeated name keeps its last one. -/
def evalEntries (env : Surroundings) (target : Option EntityId) (es : List (String × Expr))
    (s : Scope ρ) : Except Fault (Values × Scope ρ) := do
  let (vs, s) ← s.draw (Expr.evalEntries (s.world.view env.params target) es)
  return (Table.ofList vs, s)

/-- The scope with the world changed. -/
def onWorld (s : Scope ρ) (f : World ρ → World ρ) : Scope ρ := { s with world := f s.world }

end Scope

namespace Surroundings

/-- A value to be written to a variable, turned into the declared kind. -/
def coerce (env : Surroundings) (id : String) (v : Value) : Value :=
  match env.kinds.get? id with
  | some kind => v.coerce kind
  | none => v

end Surroundings

/-- The index that the world's random source chooses by weights, if one is positive. Otherwise
nothing is drawn. -/
def Weighted.draw {ρ : Type} [RandomSource ρ] (weights : List Float) : Draws ρ (Option Nat) :=
  if Weighted.isChoosable 0.0 weights then do
    return Weighted.choose? 0.0 weights (← Draws.next)
  else pure none

namespace Action

variable {ρ : Type} [RandomSource ρ]

mutual

/-- Runs an action. -/
def run (env : Surroundings) (target : Option EntityId) : Action → Scope ρ →
    Except Fault (Scope ρ)
  | .set id e, s => do
    let (v, s) ← s.eval env target e
    return s.onWorld (·.write id (env.coerce id v))
  | .add id e, s => do
    let (v, s) ← s.eval env target e
    return s.onWorld fun w => w.write id (.number (w.number id + v.toNumber))
  | .multiply id e, s => do
    let (v, s) ← s.eval env target e
    return s.onWorld fun w => w.write id (.number (w.number id * v.toNumber))
  | .branch condition yes no, s => do
    let (v, s) ← s.eval env target condition
    if v.isTruthy then runAll env target yes s else runAll env target no s
  | .random choices, s => do
    let (chosen, s) ← s.draw (Weighted.draw (choices.map Choice.weight))
    match chosen with
    | some i => runChosen env target choices i s
    | none => return s
  | .message template kind, s =>
    return s.onWorld fun w =>
      { w with log := w.log.push ⟨Template.fill w.state template, kind, w.clock.tick⟩ }
  | .emit event data, s => do
    let (data, s) ← s.evalEntries env target data
    return { s with effects := s.effects ++ { events := [⟨event, data⟩] } }
  | .trigger event params, s => do
    let (params, s) ← s.evalEntries env target params
    return { s with effects := s.effects ++ { triggers := [(event, params)] } }
  | .spawn kind properties, s => do
    let (properties, s) ← s.evalEntries env target properties
    -- The id is taken after the properties are known; they cannot refer to it.
    let (id, population) := s.world.population.spawn kind properties
    return ⟨{ s.world with population }, s.effects ++ { spawned := [id] }⟩
  | .forEach kind filter body, s =>
    -- The ids are those at the start: entities that the body creates are not visited.
    (s.world.population.idsOfKind kind).foldlM (fun s id => do
      -- The body may have removed entities that are still to come.
      if s.world.population.contains id then
        let (passes, s) ← match filter with
          | some f => do
            let (v, s) ← s.eval env (some id) f
            pure (v.isTruthy, s)
          | none => pure (true, s)
        if passes then runAll env (some id) body s else return s
      else return s) s
  | .setProp property e, s =>
    match target with
    | some id => do
      let (v, s) ← s.eval env target e
      return s.onWorld fun w =>
        { w with population := w.population.modify id (·.set property v) }
    | none => return s
  | .addProp property e, s =>
    match target with
    | some id => do
      let (v, s) ← s.eval env target e
      return s.onWorld fun w =>
        { w with population := w.population.modify id fun entity =>
            entity.set property (.number (entity.number property + v.toNumber)) }
    | none => return s
  | .despawn, s =>
    match target with
    | some id =>
      match s.world.population.remove id with
      | (some _, population) =>
        return ⟨{ s.world with population }, s.effects ++ { despawned := [id] }⟩
      | (none, _) => return s
    | none => return s

/-- Runs the actions of a list in order. -/
def runAll (env : Surroundings) (target : Option EntityId) : List Action → Scope ρ →
    Except Fault (Scope ρ)
  | [], s => return s
  | a :: as, s => do runAll env target as (← run env target a s)

/-- Runs the actions of the choice at an index. -/
def runChosen (env : Surroundings) (target : Option EntityId) : List Choice → Nat → Scope ρ →
    Except Fault (Scope ρ)
  | [], _, s => return s
  | .mk _ as :: _, 0, s => runAll env target as s
  | .mk _ _ :: cs, i + 1, s => runChosen env target cs i s

end

end Action

end IdleGame
