import IdleGame.Proofs.Action.Mute
import IdleGame.Proofs.Phase.Update
import IdleGame.Proofs.Project.Purchase
import IdleGame.Proofs.Rule.Pass
import IdleGame.Proofs.Table

/-!
# Games without messages

The messages of a game are removed from its rules, phases, projects and functions. Passes over the
rules, updates of the phase and purchases do in the game that is left what they do in the game, but
for the messages that they write.

## Main definitions

* `Game.mute` - a game without messages, and with room for some number of them

## Main results

* `Game.not_isMessage_of_lists_mute` - no message is left in any list of the game
* `Pass.run_mute`, `Phase.update_mute`, `Project.purchase_mute` - what is left does the same
-/

namespace IdleGame

open Outcome

variable {ρ : Type} {capacity : Nat}

/-- The rule without messages. -/
def Rule.mute (r : Rule) : Rule := { r with actions := Action.muteAll r.actions }

/-- The phase without messages. -/
def Phase.mute (p : Phase) : Phase := { p with onEnter := Action.muteAll p.onEnter }

/-- The project without messages. -/
def Project.mute (p : Project) : Project := { p with effects := Action.muteAll p.effects }

namespace Game

/-- The game without messages, and with room for some number of them. -/
def mute (capacity : Nat) (g : Game) : Game :=
  { g with
    phases := g.phases.map Phase.mute
    rules := g.rules.map Rule.mute
    projects := g.projects.map Project.mute
    functions := g.functions.map Action.muteAll
    config := { g.config with maxMessages := capacity } }

variable {g : Game} {as : List Action}

theorem project?_mute (id : String) :
    (g.mute capacity).project? id = (g.project? id).map Project.mute :=
  List.find?_map

theorem function?_mute (name : String) :
    (g.mute capacity).function? name = (g.function? name).map Action.muteAll :=
  Table.get?_map _

/-- The lists of the game without messages are what is left of the lists of the game. -/
theorem Lists.of_mute (h : (g.mute capacity).Lists as) :
    ∃ bs, g.Lists bs ∧ as = Action.muteAll bs := by
  cases h with
  | rule h =>
    obtain ⟨r, hr, rfl⟩ := List.mem_map.mp h
    exact ⟨r.actions, .rule hr, rfl⟩
  | entry h =>
    obtain ⟨p, hp, rfl⟩ := List.mem_map.mp h
    exact ⟨p.onEnter, .entry hp, rfl⟩
  | effects h =>
    obtain ⟨p, hp, rfl⟩ := List.mem_map.mp h
    exact ⟨p.effects, .effects hp, rfl⟩
  | function h =>
    rw [function?_mute] at h
    obtain ⟨bs, hbs, rfl⟩ := Option.map_eq_some_iff.mp h
    exact ⟨bs, .function hbs, rfl⟩

/-- No message stands in any list of the game without messages. -/
theorem not_isMessage_of_lists_mute (h : (g.mute capacity).Lists as) {b : Action}
    (hb : b ∈ Action.nodesOfAll as) : ¬ b.isMessage := by
  obtain ⟨bs, -, rfl⟩ := h.of_mute
  exact Action.not_isMessage_of_mem_muteAll hb

end Game

namespace Pass

/-- The state of a pass with an empty message log of some capacity. -/
def Progress.mute (capacity : Nat) (p : Progress ρ) : Progress ρ :=
  { p with scope := p.scope.mute capacity }

variable [RandomSource ρ] {pass : Pass} {env : Surroundings} {p : Progress ρ}

theorem consider_mute (r : Rule) :
    pass.consider env r.mute (p.mute capacity) =
      Progress.mute capacity <$> pass.consider env r p := by
  by_cases h : pass.Considers r p
  · have h' : pass.Considers r.mute (p.mute capacity) := h
    rw [consider_considered h, consider_considered h']
    refine bind_hom (Scope.eval_mute r.condition) fun (v, s) => ?_
    simp only [Prod.map_apply, id_eq]
    by_cases hv : v.isTruthy
    · rw [if_pos hv, if_pos hv]
      exact bind_hom (Action.runAll_muteAll r.actions) fun _ => rfl
    · rw [if_neg hv, if_neg hv]
      rfl
  · have h' : ¬ pass.Considers r.mute (p.mute capacity) := h
    rw [consider_skipped h, consider_skipped h']
    rfl

/-- A pass over the rules without messages fires the same rules. -/
theorem run_mute (rules : List Rule) :
    pass.run env (rules.map Rule.mute) (p.mute capacity) =
      Progress.mute capacity <$> pass.run env rules p := by
  unfold run
  rw [List.foldlM_map]
  exact foldlM_hom (fun _ => consider_mute) rules p

end Pass

namespace Phase

/-- The result of an update with an empty message log of some capacity. -/
def Update.mute (capacity : Nat) (u : Update ρ) : Update ρ :=
  { u with scope := u.scope.mute capacity }

variable [RandomSource ρ] {env : Surroundings} {s : Scope ρ}

theorem firstHolding_mute (phases : List Phase) :
    firstHolding env (phases.map mute) (s.mute capacity) =
      Prod.map (Option.map mute) (Scope.mute capacity) <$> firstHolding env phases s := by
  induction phases generalizing s with
  | nil => rfl
  | cons p ps ih =>
    rw [List.map_cons, firstHolding, firstHolding]
    refine bind_hom (Scope.eval_mute p.trigger) fun result => ?_
    obtain ⟨v, s'⟩ := result
    simp only [Prod.map_apply, id_eq]
    by_cases hv : v.isTruthy
    · rw [if_pos hv, if_pos hv]
      rfl
    · rw [if_neg hv, if_neg hv]
      exact ih

theorem entered?_mute (candidate : Option Phase) (current : Option String) :
    entered? (candidate.map mute) current = (entered? candidate current).map mute := by
  have hids : (candidate.map mute).map Phase.id = candidate.map Phase.id := by
    rw [Option.map_map]
    rfl
  unfold entered?
  rw [hids]
  split <;> rfl

/-- An update among the phases without messages enters the same phase. -/
theorem update_mute (phases : List Phase) (current : Option String) :
    update env (phases.map mute) current (s.mute capacity) =
      Update.mute capacity <$> update env phases current s := by
  rw [update_eq, update_eq]
  refine bind_hom (firstHolding_mute phases) fun (candidate, s') => ?_
  simp only [Prod.map_apply]
  rw [entered?_mute]
  rcases entered? candidate current with _ | p
  · rcases candidate with _ | p <;> rfl
  · exact bind_hom (Action.runAll_muteAll p.onEnter) fun _ => rfl

end Phase

namespace Project

variable {p : Project} {uses : Uses} {w : World ρ}

/-- Payments leave the messages alone. -/
theorem pay_mute (totals : Table Float) :
    pay (w.mute capacity) totals = (pay w totals).mute capacity :=
  List.foldl_hom (World.mute capacity) fun _ _ => rfl

variable [RandomSource ρ] {env : Surroundings} {s : Scope ρ}

/-- A project without messages is bought when the project is, at the same price. -/
theorem purchase_mute :
    p.mute.purchase env uses (s.mute capacity) =
      Option.map (Prod.map (fun uses => uses) (Scope.mute capacity)) <$> p.purchase env uses s := by
  have hprice : (p.mute.price? env.params uses (s.mute capacity).world :
      Draws ρ (Option (Table Float))) = p.price? env.params uses s.world := rfl
  unfold purchase
  rw [hprice]
  refine bind_hom (World.draw_mute _) fun (price, w) => ?_
  rcases price with _ | totals
  · rfl
  · simp only [Prod.map_apply, id_eq, pay_mute]
    exact bind_hom (Action.runAll_muteAll (s := { s with world := pay w totals }) p.effects)
      fun _ => rfl

end Project

end IdleGame
