import IdleGame.Action

/-!
# Rules

A rule is an action list behind a condition, considered at ticks, at seconds or at named events.

## Main definitions

* `Timing` - when a rule is considered
* `Rule` - an authored rule
* `FireRecord` - what is kept of the fires of a rule
* `Pass` - one round over the rules
* `Rule.isAdmitted`, `Rule.isReady` - whether a pass considers a rule, and whether its cap and its
  cooldown let it fire
-/

namespace IdleGame

/-- When a rule is considered. -/
inductive Timing where
  | tick
  | second
  | event
deriving DecidableEq, Repr, Inhabited

namespace Timing

/-- The name that a timing is authored with. -/
def name : Timing → String
  | tick => "tick"
  | second => "second"
  | event => "event"

/-- The timing authored with a name. -/
def ofName? (name : String) : Option Timing := [tick, second, event].find? (·.name = name)

end Timing

/-- An authored rule. -/
structure Rule where
  id : String
  timing : Timing := .tick
  /-- The event that an event rule listens for. -/
  event : Option String := none
  condition : Expr := .always
  actions : List Action := []
  /-- The least distance between two fires, in ticks or, for second rules, in seconds. -/
  cooldown : Option Nat := none
  /-- How often the rule may fire. -/
  maxFires : Option Nat := none

/-- How often a rule has fired, and when it did last. -/
structure FireRecord where
  fires : Nat
  last : Option Nat
deriving DecidableEq, Repr

namespace FireRecord

/-- The record of a rule that has never fired. -/
def fresh : FireRecord := ⟨0, none⟩

/-- The largest count that is kept. -/
def maxCount : Nat := Nat.pow 2 32 - 1

/-- The record after another fire. -/
def fire (r : FireRecord) (now : Nat) : FireRecord := ⟨min (r.fires + 1) maxCount, some now⟩

end FireRecord

/-- One round over the rules. -/
inductive Pass where
  | tick (tick : Nat)
  /-- The second that is being closed. -/
  | second (second : Nat)
  | event (name : String) (tick : Nat)
deriving DecidableEq, Repr

namespace Pass

/-- The time of a pass, in the unit of its rules. -/
def now : Pass → Nat
  | tick t => t
  | second s => s
  | event _ t => t

end Pass

namespace Rule

/-- Whether a pass considers the rule. -/
def isAdmitted (r : Rule) : Pass → Bool
  | .tick _ => r.timing = .tick
  | .second _ => r.timing = .second
  | .event name _ => r.timing = .event && r.event = some name

/-- Whether the cap on fires and the cooldown let the rule fire. -/
def isReady (r : Rule) (record : FireRecord) (now : Nat) : Bool :=
  r.maxFires.all (decide <| record.fires < ·) &&
    match r.cooldown, record.last with
    | some cooldown, some last => cooldown ≤ now - last
    | _, _ => true

end Rule

end IdleGame
