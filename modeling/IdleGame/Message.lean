import IdleGame.Value

/-!
# Messages and events for the player

## Main definitions

* `Message` - a line for the player
* `MessageLog` - the newest messages, up to a capacity
* `GameEvent` - a named event for the program that runs the game
-/

namespace IdleGame

/-- How a message is to be shown. -/
inductive MessageKind where
  | info
  | success
  | warning
  | error
deriving DecidableEq, Repr, Inhabited

namespace MessageKind

/-- The name that a kind is authored with. -/
def name : MessageKind → String
  | info => "info"
  | success => "success"
  | warning => "warning"
  | error => "error"

/-- The kind authored with a name. -/
def ofName? (name : String) : Option MessageKind :=
  [info, success, warning, error].find? (·.name = name)

end MessageKind

/-- A message to show. -/
structure Message where
  text : String
  kind : MessageKind
  /-- The tick at which it was written. -/
  tick : Nat
deriving DecidableEq, Repr

/-- The newest messages, oldest first. -/
structure MessageLog where
  messages : List Message
  capacity : Nat
deriving DecidableEq, Repr

namespace MessageLog

/-- A log without messages. -/
def ofCapacity (capacity : Nat) : MessageLog := ⟨[], capacity⟩

/-- Adds a message and drops the oldest that find no room. -/
def push (log : MessageLog) (m : Message) : MessageLog :=
  if log.capacity = 0 then log
  else { log with messages := log.messages.drop (log.messages.length + 1 - log.capacity) ++ [m] }

/-- The log without its messages. -/
def clear (log : MessageLog) : MessageLog := { log with messages := [] }

/-- The messages, and the log without them. -/
def drain (log : MessageLog) : List Message × MessageLog := (log.messages, log.clear)

end MessageLog

/-- Something that happened, for the program that runs the game. -/
structure GameEvent where
  name : String
  data : Values
deriving DecidableEq

end IdleGame
