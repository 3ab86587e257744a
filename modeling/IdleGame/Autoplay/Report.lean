import IdleGame.Autoplay
import IdleGame.Text.Escape

/-!
# What the scripted player tells

## Main definitions

* `Autoplay.tellPhase`, `Autoplay.tellMessages`, `Autoplay.tellEvents` - what happened in a tick
* `Autoplay.tellStatus`, `Autoplay.tellProjects` - how the game stands
-/

namespace IdleGame.Autoplay

variable {ρ σ : Type}

/-- Tells that a phase was entered. -/
def tellPhase (summary : TickSummary) : Autoplay ρ σ Unit := do
  match summary.entered with
  | some id =>
    let name := (((← session).game.phase? id).map Phase.name).getD id
    tellNow ("--- " ++ name ++ " ---")
  | none => pure ()

/-- The mark in front of a message. -/
def marker : MessageKind → String
  | .info => " "
  | .success => "+"
  | .warning => "!"
  | .error => "x"

/-- Tells the messages, which are dropped from the log. -/
def tellMessages : Autoplay ρ σ Unit := do
  (← change (·.takeMessages)).forM fun m => tell ("  " ++ marker m.kind ++ " " ++ m.text)

/-- A text between quotes. -/
def quote (text : String) : String := String.ofList (Text.quoted ['"'] text.toList)

/-- A value with its kind. -/
def showValue : Value → String
  | .bool b => "Bool(" ++ (if b then "true" else "false") ++ ")"
  | .number x => "Number(" ++ Layout.data.write x ++ ")"
  | .string s => "String(" ++ quote s ++ ")"

/-- The data of an event. -/
def showData (data : Values) : String :=
  let entries := data.entries.map fun (name, v) => quote name ++ ": " ++ showValue v
  "\x7b" ++ ", ".intercalate entries ++ "\x7d"

/-- Tells the events, which wait no longer. -/
def tellEvents : Autoplay ρ σ Unit := do
  (← change (·.takeEvents)).forM fun e => tell ("  * event " ++ e.name ++ " " ++ showData e.data)

/-- Tells how production and sales stand. -/
def tellStatus : Autoplay ρ σ Unit := do
  let shown (id : String) : Autoplay ρ σ String := do return (← ask (·.format? id)).getD "-"
  tellNow ("clips " ++ (← shown "clips") ++ " | unsold " ++ (← shown "unsold") ++ " | wire " ++
    (← shown "wire") ++ " | funds $" ++ (← shown "funds") ++ " | price $" ++ (← shown "price") ++
    " | autoclippers " ++ (← shown "autoclippers") ++ " | shipments " ++
    decimal ((← session).world.population.count "shipment"))

/-- Tells which projects were bought, and the stage. -/
def tellProjects : Autoplay ρ σ Unit := do
  let s ← session
  tell "Projects:"
  s.game.projects.forM fun p => do
    let uses := s.uses.of p.id
    if 0 < uses then tell ("  " ++ padRight 24 p.name ++ " x" ++ decimal uses)
  match s.get? "stage" with
  | some (.string stage) => tell ("Stage: " ++ stage)
  | _ => pure ()

end IdleGame.Autoplay
