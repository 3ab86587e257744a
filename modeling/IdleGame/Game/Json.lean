import IdleGame.Action.Json
import IdleGame.Game

/-!
# Games in JSON

A game is written with all of its fields. Reading it again gives the same game as long as it has no
number that JSON lacks.

## Main definitions

* `Rule.toJson`, `Phase.toJson`, `Project.toJson` and the like - the parts of a game
* `Game.toJson` - the JSON that a game is authored as
-/

namespace IdleGame

/-- A rule. -/
def Rule.toJson (r : Rule) : Json :=
  .record [("id", .text r.id), ("timing", .text r.timing.name), ("event", .ofOption .text r.event),
    ("condition", r.condition.toJson), ("actions", Action.listToJson r.actions),
    ("cooldown", .ofOption .ofNat r.cooldown), ("max_fires", .ofOption .ofNat r.maxFires)]

/-- A phase. -/
def Phase.toJson (p : Phase) : Json :=
  .record [("id", .text p.id), ("name", .text p.name), ("trigger", p.trigger.toJson),
    ("on_enter", Action.listToJson p.onEnter)]

/-- What a purchase takes from a resource. -/
def Cost.toJson (c : Cost) : Json :=
  .record [("resource", .text c.resource), ("amount", c.amount.toJson)]

/-- A project. -/
def Project.toJson (p : Project) : Json :=
  .record [("id", .text p.id), ("name", .text p.name), ("description", .text p.description),
    ("trigger", p.trigger.toJson), ("costs", .ofList Cost.toJson p.costs),
    ("effects", Action.listToJson p.effects), ("repeatable", .bool p.repeatable),
    ("max_uses", .ofOption .ofNat p.maxUses)]

/-- Which game it is. -/
def Identity.toJson (i : Identity) : Json :=
  .record [("id", .text i.id), ("name", .text i.name), ("version", .text i.version)]

/-- How a game is run. -/
def Config.toJson (c : Config) : Json :=
  .record [("ticks_per_second", .ofNat c.ticksPerSecond),
    ("autosave_interval", .ofNat c.autosaveInterval), ("max_messages", .ofNat c.maxMessages),
    ("seed", .ofNat c.seed.toNat)]

/-- The declaration of a state variable. -/
def VarDecl.toJson (d : VarDecl) : Json :=
  .record [("id", .text d.id), ("type", .text d.kind.name),
    ("initial", .ofOption Value.toJson d.initial), ("precision", .ofOption .ofNat d.precision)]

/-- A game. -/
def Game.toJson (g : Game) : Json :=
  .record [("meta", g.identity.toJson), ("config", g.config.toJson),
    ("state", .ofList VarDecl.toJson g.declarations), ("phases", .ofList Phase.toJson g.phases),
    ("rules", .ofList Rule.toJson g.rules), ("projects", .ofList Project.toJson g.projects),
    ("functions", .record (g.functions.entries.map fun (name, as) => (name, Action.listToJson as)))]

end IdleGame
