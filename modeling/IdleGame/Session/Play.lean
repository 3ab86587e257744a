import IdleGame.Session.Save

/-!
# Playing a session

Whatever runs actions ends by settling: events go to the program that runs the game, and queued
triggers are handed to the event rules, first in first out, until none is left or the limit of one
call is reached.

## Main definitions

* `Session.settle` - handles the effects of actions
* `Session.tick`, `Session.ticks`, `Session.catchUp` - lets time pass
* `Session.perform`, `Session.trigger`, `Session.purchase` - what a player does
-/

namespace IdleGame

/-- What happened in a tick. -/
structure TickSummary where
  tick : Nat
  /-- The ids of the rules that fired, in order. -/
  fired : List String
  /-- The second that the tick closed. -/
  second : Option Nat
  /-- The id of the phase that was entered. -/
  entered : Option String
deriving DecidableEq, Repr

namespace Session

variable {ρ σ : Type} [RandomSource ρ]

/-- How many triggers are handled in one call. -/
def triggerLimit : Nat := 64

/-- The session after a run of actions. Events wait; triggers and entities are up to the caller. -/
def afterRun (s : Session ρ σ) (scope : Scope ρ) : Session ρ σ :=
  { s with world := scope.world, events := s.events ++ scope.effects.events }

/-- Hands an event to the rules that listen for it. -/
def deliver (s : Session ρ σ) (event : String) (params : Values) :
    Except Fault (Pass.Progress ρ) :=
  (Pass.event event s.world.clock.tick).run (s.surroundings params) s.game.rules
    ⟨s.records, ⟨s.world, Effects.none⟩, []⟩

/-- Handles queued triggers, at most `limit` of them, and returns the ids of the rules that fired.
Triggers that are queued meanwhile come last. -/
def handleTriggers : Nat → List (String × Values) → Session ρ σ →
    Except Fault (List String × Session ρ σ)
  | 0, _, s => return ([], s)
  | _ + 1, [], s => return ([], s)
  | limit + 1, (event, params) :: queue, s => do
    let progress ← s.deliver event params
    let s := { s.afterRun progress.scope with records := progress.records }
    -- What this event has triggered waits behind what was triggered before it.
    let (fired, s) ← handleTriggers limit (queue ++ progress.scope.effects.triggers) s
    return (progress.fired ++ fired, s)

/-- Takes over the world that actions have left behind, and handles their effects. Returns the ids
of the rules that fired. -/
def settle (s : Session ρ σ) (scope : Scope ρ) : Except Fault (List String × Session ρ σ) :=
  handleTriggers triggerLimit scope.effects.triggers (s.afterRun scope)

/-- The world with no effects so far. -/
def scope (s : Session ρ σ) : Scope ρ := ⟨s.world, Effects.none⟩

/-- Performs a function of the game, and tells whether there is one with that name. -/
def perform (s : Session ρ σ) (name : String) (params : Values) :
    Except Fault (Bool × Session ρ σ) := do
  match s.game.function? name with
  | none => return (false, s)
  | some actions =>
    let scope ← Action.runAll (s.surroundings params) none actions s.scope
    let (_, s) ← s.settle scope
    return (true, s)

/-- Triggers an event, and returns the ids of the rules that fired. -/
def trigger (s : Session ρ σ) (event : String) (params : Values) :
    Except Fault (List String × Session ρ σ) :=
  handleTriggers triggerLimit [(event, params)] s

/-- Buys a project, and tells whether that was possible. -/
def purchase (s : Session ρ σ) (id : String) : Except Fault (Bool × Session ρ σ) := do
  match s.game.project? id with
  | none => return (false, s)
  | some p =>
    match ← p.purchase (s.surroundings Table.empty) s.uses s.scope with
    | none => return (false, s)
    | some (uses, scope) =>
      let (_, s) ← { s with uses }.settle scope
      return (true, s)

/-- The second that the current tick closes. -/
def closing? (s : Session ρ σ) : Option Nat := s.world.clock.closing? s.game.config.ticksPerSecond

/-- Runs the passes of a tick and then looks for the current phase. -/
def runPasses (s : Session ρ σ) : Except Fault (Pass.Progress ρ × Phase.Update ρ) := do
  let env := s.surroundings Table.empty
  let progress ←
    (Pass.tick s.world.clock.tick).run env s.game.rules ⟨s.records, s.scope, []⟩
  -- Rules of seconds see what the rules of the tick have done.
  let progress ← match s.closing? with
    | some second => (Pass.second second).run env s.game.rules progress
    | none => pure progress
  let update ← Phase.update env s.game.phases s.phase progress.scope
  return (progress, update)

/-- The session with the current tick completed. -/
def advanceClock (s : Session ρ σ) : Session ρ σ :=
  { s with world := { s.world with
      clock := s.world.clock.advance s.game.config.ticksPerSecond } }

variable [SaveStore σ]

/-- Runs a tick: rules of ticks, rules of seconds when a second closes, the phase, and then the
triggers that were queued. A tick that closes a second ends with the automatic save, if it is
due. -/
def step (s : Session ρ σ) : Except Fault (TickSummary × Session ρ σ) := do
  let second := s.closing?
  let (progress, update) ← s.runPasses
  let (fired, after) ←
    { s with records := progress.records, phase := update.current }.settle update.scope
  -- The summary and the triggers belong to the tick that was current, so time moves on last.
  let after := after.advanceClock
  return (⟨s.world.clock.tick, progress.fired ++ fired, second, update.entered⟩,
    if second.isSome then after.autosave else after)

/-- Runs a tick if the session is running. -/
def tick (s : Session ρ σ) : Except Fault (Option TickSummary × Session ρ σ) := do
  if s.running then
    let (summary, s) ← s.step
    return (some summary, s)
  else return (none, s)

/-- Lets several ticks pass, and returns what happened in each. -/
def ticks : Nat → Session ρ σ → Except Fault (List (Option TickSummary) × Session ρ σ)
  | 0, s => return ([], s)
  | n + 1, s => do
    let (summary, s) ← s.tick
    let (summaries, s) ← ticks n s
    return (summary :: summaries, s)

/-- Runs ticks one after the other. -/
def steps : Nat → Session ρ σ → Except Fault (Session ρ σ)
  | 0, s => return s
  | n + 1, s => do steps n (← s.step).2

/-- Runs ticks if the session is running, and returns how many were run. -/
def catchUp (s : Session ρ σ) (ticks : Nat) : Except Fault (Nat × Session ρ σ) := do
  if s.running then return (ticks, ← steps ticks s) else return (0, s)

end Session

end IdleGame
