import IdleGame.Proofs.Action.Evaluation
import IdleGame.Proofs.Outcome

/-!
# Changes that runs do not see

A change of scopes that touches neither what expressions read, nor the entities, nor the random
source is not seen by an action that finds something out, and so not by the way that it takes
through the lists within.

## Main definitions

* `Scope.Unseen` - a change of scopes that is not seen by expressions, draws and loops

## Main results

* `Scope.Unseen.eval`, `Scope.Unseen.evalEntries` - such a change passes through evaluations
* `Action.run_branch_unseen`, `Action.run_random_unseen`, `Action.run_forEach_unseen` - it passes
  through actions when it passes through the lists within
-/

namespace IdleGame

variable {ρ : Type}

/-- A change of scopes that expressions, draws and loops over entities do not see. -/
structure Scope.Unseen (g : Scope ρ → Scope ρ) : Prop where
  view : ∀ s params target, (g s).world.view params target = s.world.view params target
  population : ∀ s, (g s).world.population = s.world.population
  draw : ∀ {α : Type} (x : Draws ρ α) s, (g s).draw x = Prod.map id g <$> s.draw x

variable [RandomSource ρ] {g : Scope ρ → Scope ρ} {env : Surroundings}
  {target : Option EntityId} {s : Scope ρ}

namespace Scope.Unseen

theorem eval (hg : Unseen g) (e : Expr) :
    (g s).eval env target e = Prod.map id g <$> s.eval env target e := by
  rw [Scope.eval, hg.view]
  exact hg.draw _ s

theorem evalEntries (hg : Unseen g) (es : List (String × Expr)) :
    (g s).evalEntries env target es = Prod.map id g <$> s.evalEntries env target es := by
  rw [Scope.evalEntries, hg.view]
  exact Outcome.bind_hom (hg.draw _ s) fun _ => rfl

end Scope.Unseen

namespace Action

/-- One list of actions does behind a change what another one does without it. -/
def Follows (g : Scope ρ → Scope ρ) (env : Surroundings) (as as' : List Action) : Prop :=
  ∀ target s, runAll env target as' (g s) = g <$> runAll env target as s

variable {condition : Expr} {yes no yes' no' body body' : List Action} {choices : List Choice}
  {t : List Action → List Action} {kind : String} {filter : Option Expr}

theorem run_branch_unseen (hg : Scope.Unseen g) (hyes : Follows g env yes yes')
    (hno : Follows g env no no') :
    run env target (.branch condition yes' no') (g s) =
      g <$> run env target (.branch condition yes no) s := by
  rw [run_branch, run_branch]
  refine Outcome.bind_hom (hg.eval condition) fun (v, s') => ?_
  simp only [Prod.map_apply, id_eq]
  split
  · exact hyes target s'
  · exact hno target s'

/-- The weights are the same, so the same number is drawn and chooses the same. -/
theorem run_random_unseen (hg : Scope.Unseen g)
    (hchoices : ∀ c ∈ choices, Follows g env c.actions (t c.actions)) :
    run env target (.random (choices.map fun c => .mk c.weight (t c.actions))) (g s) =
      g <$> run env target (.random choices) s := by
  have hweights : (choices.map fun c => Choice.mk c.weight (t c.actions)).map Choice.weight =
      choices.map Choice.weight := by
    rw [List.map_map]
    rfl
  rw [run, run, hweights]
  refine Outcome.bind_hom (hg.draw _ s) fun result => ?_
  obtain ⟨_ | i, s'⟩ := result
  · rfl
  · simp only [Prod.map_apply, id_eq]
    rw [runChosen_eq, runChosen_eq, List.getElem?_map]
    rcases hc : choices[i]? with _ | c
    · rfl
    · exact hchoices c (List.mem_of_getElem? hc) target s'

theorem visit_unseen (hg : Scope.Unseen g) (hbody : Follows g env body body') (s : Scope ρ)
    (id : EntityId) :
    visit env filter body' (g s) id = g <$> visit env filter body s id := by
  have hlive : (g s).world.population.contains id = s.world.population.contains id := by
    rw [hg.population]
  by_cases h : s.world.population.contains id
  · rcases filter with _ | f
    · rw [visit_unfiltered h, visit_unfiltered (hlive.trans h)]
      exact hbody (some id) s
    · rw [visit_filtered h, visit_filtered (hlive.trans h)]
      refine Outcome.bind_hom (hg.eval f) fun (v, s') => ?_
      simp only [Prod.map_apply, id_eq]
      split
      · exact hbody (some id) s'
      · rfl
  · rw [visit_gone h, visit_gone (hlive ▸ h)]
    rfl

theorem run_forEach_unseen (hg : Scope.Unseen g) (hbody : Follows g env body body') :
    run env target (.forEach kind filter body') (g s) =
      g <$> run env target (.forEach kind filter body) s := by
  rw [run_forEach, run_forEach, hg.population]
  exact Outcome.foldlM_hom (visit_unseen hg hbody) _ s

end Action

end IdleGame
