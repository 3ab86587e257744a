import IdleGame.Session.Play

/-!
# Operations on sessions

A session is driven from outside by a fixed set of calls. They are listed here as data, so that
statements can range over all runs of a session.

## Main definitions

* `Query` - a question about the game being played
* `Move` - a call that plays the game
* `Operation` - any call, those for messages, events and saved games included
* `Operation.isInGame` - whether a call is not one of those
* `Session.answer`, `Session.play`, `Session.apply` - what a call answers and leaves behind
* `Session.applyAll` - calls one after the other, with the answers and the snapshots in between
-/

namespace IdleGame

/-- A question about the game being played. -/
inductive Query where
  | state
  | value (id : String)
  | entity (id : EntityId)
  | entities
  | ofKind (kind : String)
  | count (kind : String)
  | phase
  | clock
  | isRunning
  | canAfford (id : String)
  | isAvailable (id : String)
  | available
  | uses (id : String)
  | fires (id : String)
  | snapshot

/-- A call that plays the game. -/
inductive Move where
  | start
  | stop
  | tick
  | catchUp (ticks : Nat)
  | perform (name : String) (params : Values)
  | trigger (event : String) (params : Values)
  | purchase (id : String)
  | set (id : String) (v : Value)
  | spawn (kind : String) (properties : Values)
  | modify (id : EntityId) (properties : Values)
  | remove (id : EntityId)
  | reset

/-- Any call of a session. -/
inductive Operation where
  | play (move : Move)
  | ask (query : Query)
  | messages
  | takeMessages
  | takeEvents
  | save (slot : String)
  | load (slot : String)
  | hasSave (slot : String)
  | clearSave (slot : String)

/-- Whether a call plays the game or asks about it. Other calls are about messages, events and
saved games. -/
def Operation.isInGame : Operation → Bool
  | .play _ | .ask _ => true
  | _ => false

/-- What a call answers. -/
inductive Answer where
  | done
  | holds (b : Bool)
  | count (n : Nat)
  | summary (summary : Option TickSummary)
  | fired (ids : List String)
  | created (id : EntityId)
  | values (vs : Values)
  | value (v : Option Value)
  | entity (e : Option Entity)
  | entities (es : List Entity)
  | phase (id : Option String)
  | clock (c : Clock)
  | projects (ps : List Project)
  | messages (ms : List Message)
  | events (es : List GameEvent)
  | snapshot (shot : Snapshot)
  | stored (result : Except StoreError Unit)

namespace Session

variable {ρ σ : Type} [RandomSource ρ]

/-- The answer to a question. Questions about projects draw from a copy of the random source. -/
def answer (s : Session ρ σ) : Query → Except Fault Answer
  | .state => .ok (.values s.world.state)
  | .value id => .ok (.value (s.get? id))
  | .entity id => .ok (.entity (s.world.population.get? id))
  | .entities => .ok (.entities s.world.population.members)
  | .ofKind kind => .ok (.entities (s.world.population.ofKind kind))
  | .count kind => .ok (.count (s.world.population.count kind))
  | .phase => .ok (.phase s.phase)
  | .clock => .ok (.clock s.world.clock)
  | .isRunning => .ok (.holds s.running)
  | .canAfford id => return .holds (← s.canAfford id)
  | .isAvailable id => return .holds (← s.isAvailable id)
  | .available => return .projects (← s.available)
  | .uses id => .ok (.count (s.uses.of id))
  | .fires id => .ok (.count (FireRecords.of s.records id).fires)
  | .snapshot => .ok (.snapshot s.snapshot)

variable [SaveStore σ]

/-- Plays the game. -/
def play (s : Session ρ σ) : Move → Except Fault (Answer × Session ρ σ)
  | .start => .ok (.done, s.start)
  | .stop => .ok (.done, s.stop)
  | .tick => do
    let (summary, s) ← s.tick
    return (.summary summary, s)
  | .catchUp ticks => do
    let (n, s) ← s.catchUp ticks
    return (.count n, s)
  | .perform name params => do
    let (known, s) ← s.perform name params
    return (.holds known, s)
  | .trigger event params => do
    let (fired, s) ← s.trigger event params
    return (.fired fired, s)
  | .purchase id => do
    let (bought, s) ← s.purchase id
    return (.holds bought, s)
  | .set id v => .ok (.done, s.set id v)
  | .spawn kind properties =>
    let (id, s) := s.spawn kind properties
    .ok (.created id, s)
  | .modify id properties =>
    let (live, s) := s.modify id properties
    .ok (.holds live, s)
  | .remove id =>
    let (live, s) := s.remove id
    .ok (.holds live, s)
  | .reset => .ok (.done, s.reset)

/-- Serves a call. -/
def apply (s : Session ρ σ) : Operation → Except Fault (Answer × Session ρ σ)
  | .play move => s.play move
  | .ask query => return (← s.answer query, s)
  | .messages => .ok (.messages s.world.log.messages, s)
  | .takeMessages =>
    let (messages, s) := s.takeMessages
    .ok (.messages messages, s)
  | .takeEvents =>
    let (events, s) := s.takeEvents
    .ok (.events events, s)
  | .save slot =>
    let (result, s) := s.save slot
    .ok (.stored result, s)
  | .load slot =>
    let (loaded, s) := s.load slot
    .ok (.holds loaded, s)
  | .hasSave slot => .ok (.holds (s.hasSave slot), s)
  | .clearSave slot =>
    let (result, s) := s.clearSave slot
    .ok (.stored result, s)

/-- Serves calls one after the other. After every call the answer and the snapshot are noted. -/
def applyAll : List Operation → Session ρ σ →
    Except Fault (List (Answer × Snapshot) × Session ρ σ)
  | [], s => .ok ([], s)
  | op :: ops, s => do
    let (a, s) ← s.apply op
    let (noted, t) ← applyAll ops s
    return ((a, s.snapshot) :: noted, t)

end Session

end IdleGame
