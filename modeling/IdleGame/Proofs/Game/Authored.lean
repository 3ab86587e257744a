import IdleGame.Game
import IdleGame.Proofs.Action.Change

/-!
# What is authored in a game

Expressions and actions stand in many places of a game. All that is evaluated and done while it is
played is one of those.

## Main definitions

* `Game.Lists` - the action lists of a game
* `Game.Authors` - the expressions of a game, wherever they stand
* `Game.Writes` - the variables that a game may write, and with which values
* `Game.Reads` - what a game may evaluate, starting from a world

## Main results

* `Game.Lists.changes` - running an action list of a game changes a world as the game may
* `Game.Lists.reads` - what an action list evaluates is authored in the game
-/

namespace IdleGame

variable {ρ : Type} [RandomSource ρ]

namespace Game

/-- The action lists of a game. -/
inductive Lists (g : Game) : List Action → Prop
  | rule {r : Rule} (h : r ∈ g.rules) : Lists g r.actions
  | entry {p : Phase} (h : p ∈ g.phases) : Lists g p.onEnter
  | effects {p : Project} (h : p ∈ g.projects) : Lists g p.effects
  | function {name as} (h : g.function? name = some as) : Lists g as

/-- The expressions of a game, wherever they stand. -/
inductive Authors (g : Game) : Expr → Prop
  | condition {r : Rule} (h : r ∈ g.rules) : Authors g r.condition
  | phase {p : Phase} (h : p ∈ g.phases) : Authors g p.trigger
  | project {p : Project} (h : p ∈ g.projects) : Authors g p.trigger
  | amount {p : Project} {c : Cost} (h : p ∈ g.projects) (hc : c ∈ p.costs) : Authors g c.amount
  | action {as b e} (h : g.Lists as) (hb : b ∈ Action.nodesOfAll as) (he : e ∈ b.exprs) :
      Authors g e

/-- The variables that a game may write, and with which values: by an action that names the
variable, or by taking a cost from it. -/
inductive Writes (g : Game) : String → Value → Prop
  | action {as params id v} (h : g.Lists as)
      (hw : Action.WritesWithin ⟨g.kinds, params⟩ as id v) : Writes g id v
  | payment {p : Project} {c : Cost} {x : Float} (h : p ∈ g.projects) (hc : c ∈ p.costs) :
      Writes g c.resource (.number x)

/-- What a game may evaluate starting from a world: its own expressions, in a world that it has
changed. -/
def Reads (g : Game) (w : World ρ) (ev : Evaluation ρ) : Prop :=
  ∃ w' params target, w.Changes g.Writes w' ∧ ev.view = w'.view params target ∧ g.Authors ev.expr

variable {g : Game} {w w' : World ρ} {ev : Evaluation ρ}

theorem Reads.after (h : g.Reads w' ev) (hchanges : w.Changes g.Writes w') : g.Reads w ev := by
  obtain ⟨w'', params, target, hchanges', hread⟩ := h
  exact ⟨w'', params, target, hchanges.trans hchanges', hread⟩

theorem Authors.reads {params : Values} {target : Option EntityId} {e : Expr} {r : ρ}
    (h : g.Authors e) : g.Reads w ⟨w.view params target, e, r⟩ :=
  ⟨w, params, target, .refl _, rfl, h⟩

variable {env : Surroundings} {target : Option EntityId} {as : List Action} {s s' : Scope ρ}

/-- Running an action list of a game changes a world as the game may. -/
theorem Lists.changes (has : g.Lists as) (hkinds : env.kinds = g.kinds)
    (h : Action.runAll env target as s = .ok s') : s.world.Changes g.Writes s'.world := by
  obtain ⟨kinds, params⟩ := env
  obtain rfl : kinds = g.kinds := hkinds
  exact (Action.runAll_changes h).mono fun _ _ => .action has

/-- What an action list of a game evaluates is authored in the game. -/
theorem Lists.reads (has : g.Lists as) (hkinds : env.kinds = g.kinds)
    (h : Action.Evaluates env target as s ev) : g.Reads s.world ev := by
  obtain ⟨w', t, hchanges, hview, b, hb, hexpr⟩ := h.reads
  obtain ⟨kinds, params⟩ := env
  obtain rfl : kinds = g.kinds := hkinds
  exact ⟨w', params, t, hchanges.mono fun _ _ => .action has, hview, .action has hb hexpr⟩

end Game

end IdleGame
