import IdleGame.Proofs.Expr.Nodes
import IdleGame.Proofs.Game.Declaration
import IdleGame.Proofs.Game.Issue

/-!
# Well-formed games

What an author has to keep to can be said without the search for issues: ids are distinct, names
refer to what is declared, at whatever depth they stand, numbers are added to numbers, and what is
authored has an effect. The search finds no issue exactly in these games.

## Main definitions

* `Game.Covers` - an expression reads only declared variables
* `Action.Fits` - what an action is about is there
* `Game.Proper` - all that stands in a list of actions is right
* `Game.WellFormed` - a game is right throughout

## Main results

* `Game.actionsIssues_eq_nil_iff_proper` - the search finds nothing in a list that is right
* `Game.issues_eq_nil_iff_wellFormed` - and nothing in a game that is
-/

namespace IdleGame

namespace Game

/-- An expression reads only declared variables. -/
def Covers (g : Game) (e : Expr) : Prop := ∀ id, e.Names id → g.Declares id

/-- Some rule listens for an event. -/
def ListensFor (g : Game) (event : String) : Prop :=
  ∃ r ∈ g.rules, r.timing = .event ∧ r.event = some event

end Game

/-- What an action writes, chooses from or triggers is there. Actions within it and its expressions
are left out. -/
def Action.Fits (g : Game) : Action → Prop
  | .set id _ => g.Declares id
  | .add id _ | .multiply id _ => g.DeclaresNumber id
  | .random choices => choices ≠ [] ∧ ∀ c ∈ choices, ¬ c.weight ≤ 0.0
  | .trigger event _ => g.ListensFor event
  | .branch .. | .message .. | .emit .. | .spawn .. | .forEach .. | .setProp .. | .addProp ..
  | .despawn => True

namespace Game

/-- Every action that stands in a list, at any depth, fits the game, and its expressions read only
declared variables. -/
def Proper (g : Game) (as : List Action) : Prop :=
  ∀ a : Action, a.StandsIn as → a.Fits g ∧ ∀ e ∈ a.exprs, g.Covers e

/-- A game in which everything that is authored is right. -/
structure WellFormed (g : Game) : Prop where
  declarations : (g.declarations.map VarDecl.id).Nodup
  rules : (g.rules.map Rule.id).Nodup
  phases : (g.phases.map Phase.id).Nodup
  projects : (g.projects.map Project.id).Nodup
  /-- Event rules name an event, and no other rules do. -/
  events : ∀ r ∈ g.rules, r.event.isSome ↔ r.timing = .event
  cooldowns : ∀ r ∈ g.rules, r.cooldown ≠ some 0
  conditions : ∀ r ∈ g.rules, g.Covers r.condition
  triggers : ∀ p ∈ g.phases, g.Covers p.trigger
  locks : ∀ p ∈ g.projects, g.Covers p.trigger
  /-- Costs are paid from numbers. -/
  costs : ∀ p ∈ g.projects, ∀ c ∈ p.costs, g.DeclaresNumber c.resource ∧ g.Covers c.amount
  /-- Only what can be bought again has a number of uses. -/
  uses : ∀ p ∈ g.projects, p.maxUses.isSome → p.repeatable
  actions : ∀ as, g.Lists as → g.Proper as

variable {g : Game} {as : List Action} {a : Action} {e : Expr} {role id : String}

theorem events_contains_iff {event : String} :
    g.declared.events.contains event ↔ g.ListensFor event := by
  rw [List.contains_iff_mem, declared, List.mem_filterMap]
  simp only [List.mem_filter, decide_eq_true_eq, and_assoc]
  rfl

theorem eventIssues_eq_nil_iff {r : Rule} :
    eventIssues r = [] ↔ (r.event.isSome ↔ r.timing = .event) := by
  unfold eventIssues
  rcases r.timing <;> rcases r.event <;> simp

theorem lists_of_mem_functions {entry : String × List Action} (h : entry ∈ g.functions.entries) :
    g.Lists entry.2 :=
  .function (Table.get?_eq_some_iff.mpr h)

section

variable (hnodup : (g.declarations.map VarDecl.id).Nodup)

include hnodup

theorem variableIssues_eq_nil_iff_declares :
    g.declared.variableIssues id = [] ↔ g.Declares id := by
  rw [Declared.variableIssues_eq_nil_iff, declares_iff hnodup]
  rfl

theorem numberIssues_eq_nil_iff_declaresNumber :
    g.declared.numberIssues role id = [] ↔ g.DeclaresNumber id := by
  rw [Declared.numberIssues_eq_nil_iff, declaresNumber_iff hnodup]
  rfl

theorem exprIssues_eq_nil_iff_covers : g.declared.exprIssues e = [] ↔ g.Covers e := by
  have hdeclares (id : String) : id ∈ g.declared.kinds.keys ↔ g.Declares id :=
    (declares_iff hnodup).symm
  simp only [Declared.exprIssues_eq_nil_iff, Expr.mem_nodes_iff_standsIn, hdeclares]
  constructor
  · rintro h id (hid | hid)
    · exact h _ hid id rfl
    · exact h _ hid id rfl
  · intro h n hn id hid
    cases n with
    | ref =>
      obtain rfl := Option.some.inj hid
      exact h _ (.inl hn)
    | flag =>
      obtain rfl := Option.some.inj hid
      exact h _ (.inr hn)
    | _ => cases hid

theorem nodeIssues_eq_nil_iff :
    g.declared.nodeIssues a = [] ↔ a.Fits g ∧ ∀ e ∈ a.exprs, g.Covers e := by
  have hcovers (e : Expr) := exprIssues_eq_nil_iff_covers (e := e) hnodup
  have hentries (es : List (String × Expr)) :
      g.declared.entriesIssues es = [] ↔ ∀ e ∈ es.map Prod.snd, g.Covers e := by
    simp only [Declared.entriesIssues_eq_nil_iff, hcovers]
  cases a with
  | set id e =>
    simp [Declared.nodeIssues, Action.Fits, Action.exprs, hcovers,
      variableIssues_eq_nil_iff_declares hnodup]
  | add id e | multiply id e =>
    simp [Declared.nodeIssues, Action.Fits, Action.exprs, hcovers,
      numberIssues_eq_nil_iff_declaresNumber hnodup]
  | random choices =>
    rcases choices with _ | ⟨c, cs⟩
    · simp [Declared.nodeIssues, Action.Fits]
    · simp [Declared.nodeIssues, Action.Fits, Action.exprs, Declared.weightIssues]
  | trigger event params =>
    rw [Declared.nodeIssues, List.append_eq_nil_iff, hentries, Action.Fits,
      ← events_contains_iff]
    simp [Action.exprs]
  | forEach kind filter body =>
    rcases filter with _ | f
    · simp [Declared.nodeIssues, Action.Fits, Action.exprs]
    · simp [Declared.nodeIssues, Action.Fits, Action.exprs, hcovers]
  | emit | spawn => simp [Declared.nodeIssues, Action.Fits, Action.exprs, hentries]
  | _ => simp [Declared.nodeIssues, Action.Fits, Action.exprs, hcovers]

/-- The search finds nothing in a list of actions exactly when all that stands in it is right. -/
theorem actionsIssues_eq_nil_iff_proper :
    g.declared.actionsIssues as = [] ↔ g.Proper as := by
  rw [Declared.actionsIssues_eq_nil_iff]
  simp only [Action.mem_nodesOfAll_iff_standsIn, nodeIssues_eq_nil_iff hnodup]
  rfl

theorem ruleIssues_eq_nil_iff {r : Rule} :
    ruleIssues g.declared r = [] ↔
      (r.event.isSome ↔ r.timing = .event) ∧ r.cooldown ≠ some 0 ∧ g.Covers r.condition ∧
        g.Proper r.actions := by
  rw [ruleIssues, List.append_eq_nil_iff, List.append_eq_nil_iff, List.append_eq_nil_iff,
    eventIssues_eq_nil_iff, exprIssues_eq_nil_iff_covers hnodup,
    actionsIssues_eq_nil_iff_proper hnodup, and_assoc, and_assoc]
  simp

theorem phaseIssues_eq_nil_iff {p : Phase} :
    phaseIssues g.declared p = [] ↔ g.Covers p.trigger ∧ g.Proper p.onEnter := by
  rw [phaseIssues, List.append_eq_nil_iff, exprIssues_eq_nil_iff_covers hnodup,
    actionsIssues_eq_nil_iff_proper hnodup]

theorem projectIssues_eq_nil_iff {p : Project} :
    projectIssues g.declared p = [] ↔
      g.Covers p.trigger ∧
        (∀ c ∈ p.costs, g.DeclaresNumber c.resource ∧ g.Covers c.amount) ∧
        (p.maxUses.isSome → p.repeatable) ∧ g.Proper p.effects := by
  rw [projectIssues, List.append_eq_nil_iff, List.append_eq_nil_iff, List.append_eq_nil_iff,
    exprIssues_eq_nil_iff_covers hnodup, List.flatMap_eq_nil_iff,
    actionsIssues_eq_nil_iff_proper hnodup, and_assoc, and_assoc]
  simp only [List.append_eq_nil_iff, numberIssues_eq_nil_iff_declaresNumber hnodup,
    exprIssues_eq_nil_iff_covers hnodup]
  rcases p.repeatable <;> simp

end

/-- The search finds no issue in a game exactly when the game is well formed. -/
theorem issues_eq_nil_iff_wellFormed : g.issues = [] ↔ g.WellFormed := by
  rw [issues_eq_nil_iff]
  constructor
  · rintro ⟨hvars, hrules, hphases, hprojects, hrule, hphase, hproject, hfunction⟩
    simp only [ruleIssues_eq_nil_iff hvars] at hrule
    simp only [phaseIssues_eq_nil_iff hvars] at hphase
    simp only [projectIssues_eq_nil_iff hvars] at hproject
    simp only [actionsIssues_eq_nil_iff_proper hvars] at hfunction
    refine ⟨hvars, hrules, hphases, hprojects, fun r hr => (hrule r hr).1,
      fun r hr => (hrule r hr).2.1, fun r hr => (hrule r hr).2.2.1, fun p hp => (hphase p hp).1,
      fun p hp => (hproject p hp).1, fun p hp => (hproject p hp).2.1,
      fun p hp => (hproject p hp).2.2.1, fun as has => ?_⟩
    cases has with
    | rule hr => exact (hrule _ hr).2.2.2
    | entry hp => exact (hphase _ hp).2
    | effects hp => exact (hproject _ hp).2.2.2
    | function hf => exact hfunction _ (Table.get?_eq_some_iff.mp hf)
  · intro h
    have hvars := h.declarations
    simp only [ruleIssues_eq_nil_iff hvars, phaseIssues_eq_nil_iff hvars,
      projectIssues_eq_nil_iff hvars, actionsIssues_eq_nil_iff_proper hvars]
    exact ⟨hvars, h.rules, h.phases, h.projects,
      fun r hr => ⟨h.events r hr, h.cooldowns r hr, h.conditions r hr, h.actions _ (.rule hr)⟩,
      fun p hp => ⟨h.triggers p hp, h.actions _ (.entry hp)⟩,
      fun p hp => ⟨h.locks p hp, h.costs p hp, h.uses p hp, h.actions _ (.effects hp)⟩,
      fun entry hentry => h.actions _ (lists_of_mem_functions hentry)⟩

end Game

end IdleGame
