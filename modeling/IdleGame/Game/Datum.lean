import IdleGame.Action.Datum
import IdleGame.Game

/-!
# Authored games

## Main definitions

* `Rule.ofDatum?`, `Phase.ofDatum?`, `Project.ofDatum?` and the like - the parts of a game
* `Game.ofDatum?` - a game
* `Fragment`, `Fragment.ofDatum?` - a file of a game, in which every part may be missing
-/

namespace IdleGame

variable {δ : Type} [Datum δ]

/-- The kind of a variable. -/
def VarKind.ofDatum? : δ → Option VarKind := Datum.tag? ofName?

/-- The timing of a rule. -/
def Timing.ofDatum? : δ → Option Timing := Datum.tag? ofName?

/-- A rule. -/
def Rule.ofDatum? (d : δ) : Option Rule := do
  let fields ← Datum.record? "Rule" [⟨"id", []⟩, ⟨"timing", []⟩, ⟨"event", []⟩, ⟨"condition", []⟩,
    ⟨"actions", []⟩, ⟨"cooldown", []⟩, ⟨"max_fires", ["maxFires"]⟩] d
  return {
    id := ← fields.required? "id" Datum.string?
    timing := ← fields.withDefault? "timing" .tick Timing.ofDatum?
    event := ← fields.optional? "event" Datum.string?
    condition := ← fields.withDefault? "condition" .always Expr.ofDatum?
    actions := ← fields.withDefault? "actions" [] Action.listOfDatum?
    cooldown := ← fields.optional? "cooldown" (Datum.nat? 64)
    maxFires := ← fields.optional? "max_fires" (Datum.nat? 32) }

/-- A phase. -/
def Phase.ofDatum? (d : δ) : Option Phase := do
  let fields ← Datum.record? "Phase" [⟨"id", []⟩, ⟨"name", []⟩, ⟨"trigger", []⟩,
    ⟨"on_enter", ["onEnter"]⟩] d
  return {
    id := ← fields.required? "id" Datum.string?
    name := ← fields.withDefault? "name" "" Datum.string?
    trigger := ← fields.required? "trigger" Expr.ofDatum?
    onEnter := ← fields.withDefault? "on_enter" [] Action.listOfDatum? }

/-- What a purchase takes from a resource. -/
def Cost.ofDatum? (d : δ) : Option Cost := do
  let fields ← Datum.record? "Cost" [⟨"resource", []⟩, ⟨"amount", []⟩] d
  return {
    resource := ← fields.required? "resource" Datum.string?
    amount := ← fields.required? "amount" Expr.ofDatum? }

/-- A project. -/
def Project.ofDatum? (d : δ) : Option Project := do
  let fields ← Datum.record? "Project" [⟨"id", []⟩, ⟨"name", []⟩, ⟨"description", []⟩,
    ⟨"trigger", []⟩, ⟨"costs", []⟩, ⟨"effects", []⟩, ⟨"repeatable", []⟩,
    ⟨"max_uses", ["maxUses"]⟩] d
  return {
    id := ← fields.required? "id" Datum.string?
    name := ← fields.withDefault? "name" "" Datum.string?
    description := ← fields.withDefault? "description" "" Datum.string?
    trigger := ← fields.withDefault? "trigger" .always Expr.ofDatum?
    costs := ← fields.withDefault? "costs" [] (Datum.listOf? Cost.ofDatum?)
    effects := ← fields.withDefault? "effects" [] Action.listOfDatum?
    repeatable := ← fields.withDefault? "repeatable" false Datum.bool?
    maxUses := ← fields.optional? "max_uses" (Datum.nat? 32) }

/-- Which game it is. -/
def Identity.ofDatum? (d : δ) : Option Identity := do
  let fields ← Datum.record? "Meta" [⟨"id", []⟩, ⟨"name", []⟩, ⟨"version", []⟩] d
  return {
    id := ← fields.required? "id" Datum.string?
    name := ← fields.required? "name" Datum.string?
    version := ← fields.withDefault? "version" "1" Datum.string? }

/-- How a game is run. -/
def Config.ofDatum? (d : δ) : Option Config := do
  let fields ← Datum.record? "GameConfig" [⟨"ticks_per_second", ["tick_rate", "tickRate"]⟩,
    ⟨"autosave_interval", ["autosaveInterval"]⟩, ⟨"max_messages", ["maxMessages"]⟩,
    ⟨"seed", []⟩] d
  let default : Config := {}
  return {
    ticksPerSecond :=
      ← fields.withDefault? "ticks_per_second" default.ticksPerSecond (Datum.nat? 32)
    autosaveInterval :=
      ← fields.withDefault? "autosave_interval" default.autosaveInterval (Datum.nat? 64)
    maxMessages := ← fields.withDefault? "max_messages" default.maxMessages (Datum.nat? 64)
    seed := ← fields.withDefault? "seed" default.seed fun d =>
      (Datum.nat? 64 d).map UInt64.ofNat }

/-- The declaration of a state variable. -/
def VarDecl.ofDatum? (d : δ) : Option VarDecl := do
  let fields ← Datum.record? "VarDecl" [⟨"id", []⟩, ⟨"type", []⟩, ⟨"initial", []⟩,
    ⟨"precision", []⟩] d
  return {
    id := ← fields.required? "id" Datum.string?
    kind := ← fields.withDefault? "type" .number VarKind.ofDatum?
    initial := ← fields.optional? "initial" Datum.value?
    precision := ← fields.optional? "precision" (Datum.nat? 32) }

/-- The fields of a game. -/
def Game.fields : List Field :=
  [⟨"meta", []⟩, ⟨"config", []⟩, ⟨"state", []⟩, ⟨"phases", []⟩, ⟨"rules", []⟩, ⟨"projects", []⟩,
    ⟨"functions", []⟩]

/-- The sections among the fields of a game. A missing section is empty. -/
def Sections.ofFields? (fields : Fields δ) : Option Sections := do
  return {
    declarations := ← fields.withDefault? "state" [] (Datum.listOf? VarDecl.ofDatum?)
    phases := ← fields.withDefault? "phases" [] (Datum.listOf? Phase.ofDatum?)
    rules := ← fields.withDefault? "rules" [] (Datum.listOf? Rule.ofDatum?)
    projects := ← fields.withDefault? "projects" [] (Datum.listOf? Project.ofDatum?)
    functions :=
      ← fields.withDefault? "functions" Table.empty (Datum.tableOf? Action.listOfDatum?) }

/-- A game. -/
def Game.ofDatum? (d : δ) : Option Game := do
  let fields ← Datum.record? "GameDefinition" Game.fields d
  let sections ← Sections.ofFields? fields
  return { sections with
    identity := ← fields.required? "meta" Identity.ofDatum?
    config := ← fields.withDefault? "config" {} Config.ofDatum? }

/-- What one file says about a game. -/
structure Fragment extends Sections where
  identity : Option Identity
  config : Option Config

/-- What one file says about a game. -/
def Fragment.ofDatum? (d : δ) : Option Fragment := do
  let fields ← Datum.record? "DefinitionFile" Game.fields d
  let sections ← Sections.ofFields? fields
  return { sections with
    identity := ← fields.optional? "meta" Identity.ofDatum?
    config := ← fields.optional? "config" Config.ofDatum? }

end IdleGame
