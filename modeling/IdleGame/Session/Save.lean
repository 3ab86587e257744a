import IdleGame.Session
import IdleGame.Store

/-!
# Saving and loading sessions

## Main definitions

* `Session.snapshot`, `Session.restore` - between sessions and snapshots
* `Session.save`, `Session.load`, `Session.clearSave` - slots in the store of the session
-/

namespace IdleGame.Session

variable {ρ σ : Type} [RandomSource ρ]

/-- All that is needed to go on later. -/
def snapshot (s : Session ρ σ) : Snapshot where
  formatVersion := Snapshot.currentFormat
  gameId := s.game.identity.id
  gameVersion := s.game.identity.version
  state := s.world.state
  entities := s.world.population.members
  nextEntity := s.world.population.next
  phase := s.phase
  records := s.records
  uses := s.uses
  clock := s.world.clock
  random := RandomSource.position? s.world.random

/-- Goes on from a snapshot. Declared variables that it lacks have their initial values, and ids of
entities that were handed out before stay taken. -/
def restore (s : Session ρ σ) (shot : Snapshot) : Session ρ σ :=
  { s with
    world := {
      state := s.game.initialState.extend shot.state.entries
      population :=
        -- No id may be handed out twice, neither one of the snapshot nor one of this session.
        Population.restore shot.entities (max shot.nextEntity s.world.population.next)
      log := s.world.log.clear
      clock := shot.clock
      random := match shot.random with
        | some position => RandomSource.restore s.world.random position
        | none => s.world.random }
    records := shot.records
    phase := shot.phase
    uses := shot.uses
    events := []
    -- The next automatic save is a full interval away.
    lastAutosave := shot.clock.seconds }

variable [SaveStore σ]

/-- Writes a slot. The game itself stays as it is, also after an error. -/
def save (s : Session ρ σ) (slot : String) : Except StoreError Unit × Session ρ σ :=
  let (result, store) := Slot.save s.store s.game.identity.id slot s.snapshot
  (result, { s with store })

/-- The snapshot in a slot, if there is one that belongs to the game. -/
def stored (s : Session ρ σ) (slot : String) : Except LoadError (Option Snapshot) := do
  match ← Slot.load s.store s.game.identity.id slot with
  | some shot =>
    shot.checkCompatible s.game
    return some shot
  | none => return none

/-- Goes on from a slot, and tells whether that was possible. If not, the game is reset. -/
def load (s : Session ρ σ) (slot : String) : Bool × Session ρ σ :=
  match s.stored slot with
  | .ok (some shot) => (true, s.restore shot)
  | .ok none => (false, s.reset)
  | .error _ => (false, s.reset)

/-- Whether a slot is taken. -/
def hasSave (s : Session ρ σ) (slot : String) : Bool :=
  Slot.isTaken s.store s.game.identity.id slot

/-- Empties a slot. -/
def clearSave (s : Session ρ σ) (slot : String) : Except StoreError Unit × Session ρ σ :=
  let (result, store) := Slot.clear s.store s.game.identity.id slot
  (result, { s with store })

/-- Whether an automatic save is due. -/
def isAutosaveDue (s : Session ρ σ) : Bool :=
  s.game.config.autosaveInterval ≠ 0 &&
    s.game.config.autosaveInterval ≤ s.world.clock.seconds - s.lastAutosave

/-- Saves if that is due. An error is not repeated before the next time. -/
def autosave (s : Session ρ σ) : Session ρ σ :=
  if s.isAutosaveDue then
    ({ s with lastAutosave := s.world.clock.seconds }.save Slot.main).2
  else s

end IdleGame.Session
