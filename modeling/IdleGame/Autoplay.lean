import IdleGame.Session.Play

/-!
# A scripted player

The scripted player of the game about paper clips makes clips by hand, moves the price with the
demand, restocks wire and buys what it can afford. What happens is told line by line.

## Main definitions

* `Autoplay` - computations of the player, which keep the told lines also after a fault
* `Autoplay.playSecond` - one second of play
-/

namespace IdleGame

/-- A session being played, and the lines told so far. -/
structure Playthrough (ρ σ : Type) where
  session : Session ρ σ
  lines : Array String

/-- A computation of the player. -/
abbrev Autoplay (ρ σ : Type) := ExceptT Fault (StateM (Playthrough ρ σ))

namespace Autoplay

variable {ρ σ α : Type}

/-- Tells a line. -/
def tell (line : String) : Autoplay ρ σ Unit :=
  modify fun p => { p with lines := p.lines.push line }

/-- The session as it is. -/
def session : Autoplay ρ σ (Session ρ σ) := do return (← get).session

/-- Asks the session something that can fail. -/
def ask (question : Session ρ σ → Except Fault α) : Autoplay ρ σ α := do
  match question (← session) with
  | .ok a => return a
  | .error e => throw e

/-- Does something with the session. -/
def act (action : Session ρ σ → Except Fault (α × Session ρ σ)) : Autoplay ρ σ α := do
  match action (← session) with
  | .ok (a, session) => do
    modify fun p => { p with session }
    return a
  | .error e => throw e

/-- Does something with the session that cannot fail. -/
def change (action : Session ρ σ → α × Session ρ σ) : Autoplay ρ σ α := act fun s => .ok (action s)

/-- A variable as a number. -/
def number (id : String) : Autoplay ρ σ Float := do return (← session).world.number id

/-- The completed seconds. -/
def elapsed : Autoplay ρ σ Nat := do return (← session).world.clock.seconds

/-- Something done several times. -/
def times : Nat → Autoplay ρ σ Unit → Autoplay ρ σ Unit
  | 0, _ => pure ()
  | n + 1, x => do
    x
    times n x

/-- A text with blanks in front of it to make it at least `width` long. -/
def padLeft (width : Nat) (text : String) : String :=
  String.ofList (List.replicate (width - text.length) ' ') ++ text

/-- A text with blanks behind it to make it at least `width` long. -/
def padRight (width : Nat) (text : String) : String :=
  text ++ String.ofList (List.replicate (width - text.length) ' ')

/-- A natural number as text. -/
def decimal (n : Nat) : String := String.ofList (digitsOf n)

/-- The time in front of a line. -/
def stamp (seconds : Nat) : String := "[" ++ padLeft 4 (decimal seconds) ++ "s] "

/-- Tells a line with the time in front. -/
def tellNow (line : String) : Autoplay ρ σ Unit := do tell (stamp (← elapsed) ++ line)

variable [RandomSource ρ]

/-- Performs a function of the game without parameters. -/
def perform (name : String) : Autoplay ρ σ Unit := do
  let _ ← act (·.perform name Table.empty)

/-- Moves the price with the ratio of unsold clips to the demand. -/
def adjustPrice : Autoplay ρ σ Unit := do
  let demand ← number "demand"
  let unsold ← number "unsold"
  if demand * 30.0 < unsold then perform "lower_price"
  else if unsold < demand * 5.0 then perform "raise_price"

/-- Buys wire when little is left. -/
def restock : Autoplay ρ σ Unit := do
  if (← number "wire") < 200.0 then
    if ← act (·.purchase "wire_spool") then tellNow "bought wire"

/-- Buys projects one after the other, as long as the funds cover the next wire. -/
def buyProjects : List String → Autoplay ρ σ Unit
  | [] => pure ()
  | id :: ids => do
    if (← number "funds") - (← number "wire_cost") < 0.0 then return
    if ← ask (·.canAfford id) then
      if ← act (·.purchase id) then tellNow ("bought " ++ id)
    buyProjects ids

/-- One second of play. -/
def playSecond (clicks : Nat) : Autoplay ρ σ Unit := do
  times clicks (perform "make_clip")
  adjustPrice
  restock
  let wanted ← ask (·.available)
  buyProjects ((wanted.map Project.id).filter (· ≠ "wire_spool"))

end Autoplay

end IdleGame
