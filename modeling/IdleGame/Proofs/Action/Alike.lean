import IdleGame.Proofs.Action.Evaluation
import IdleGame.Proofs.World.Alike

/-!
# Actions in worlds that are alike

## Main definitions

* `Scope.Alike` - scopes whose worlds are alike, with the same effects

## Main results

* `Action.runAll_agree` - a run of actions agrees in scopes that are alike
-/

namespace IdleGame

open Outcome

variable {ρ α : Type}

namespace Scope

/-- Scopes whose worlds are alike, with the same effects. -/
structure Alike (old : List Message) (s t : Scope ρ) : Prop where
  world : s.world.Alike old t.world
  effects : s.effects = t.effects

variable {old : List Message} {s t : Scope ρ}

theorem Alike.draw (h : s.Alike old t) (x : Draws ρ α) :
    Agree (SameWith (Alike old)) (s.draw x) (t.draw x) :=
  (h.world.draw x).bind fun _ _ hw => .ok ⟨hw.1, hw.2, h.effects⟩

variable [RandomSource ρ]

theorem Alike.eval (h : s.Alike old t) (env : Surroundings) (target : Option EntityId) (e : Expr) :
    Agree (SameWith (Alike old)) (s.eval env target e) (t.eval env target e) := by
  unfold Scope.eval
  rw [h.world.view_eq]
  exact h.draw _

theorem Alike.evalEntries (h : s.Alike old t) (env : Surroundings) (target : Option EntityId)
    (es : List (String × Expr)) :
    Agree (SameWith (Alike old)) (s.evalEntries env target es) (t.evalEntries env target es) := by
  unfold Scope.evalEntries
  rw [h.world.view_eq]
  exact (h.draw _).bind fun _ _ hs => .ok ⟨congrArg Table.ofList hs.1, hs.2⟩

end Scope

namespace Action

variable [RandomSource ρ] {env : Surroundings} {target : Option EntityId} {a : Action}
  {as body : List Action} {old : List Message} {s t : Scope ρ}

theorem visit_agree {filter : Option Expr} {id : EntityId}
    (hbody : ∀ s t : Scope ρ, s.Alike old t →
      Agree (Scope.Alike old) (runAll env (some id) body s) (runAll env (some id) body t))
    (h : s.Alike old t) :
    Agree (Scope.Alike old) (visit env filter body s id) (visit env filter body t id) := by
  have hcontains := h.world.population.contains id
  by_cases hlive : s.world.population.contains id
  · rcases filter with _ | g
    · rw [visit_unfiltered hlive, visit_unfiltered (hcontains ▸ hlive)]
      exact hbody s t h
    · rw [visit_filtered hlive, visit_filtered (hcontains ▸ hlive)]
      refine (h.eval env (some id) g).bind ?_
      rintro ⟨v, s'⟩ ⟨_, t'⟩ ⟨rfl, hs⟩
      dsimp only
      split
      · exact hbody s' t' hs
      · exact .ok hs
  · rw [visit_gone hlive, visit_gone (hcontains ▸ hlive)]
    exact .ok h

/-- An action agrees in scopes that are alike when the lists within do. -/
theorem run_agree_of_bodies
    (hbodies : ∀ body ∈ a.bodies, ∀ target (s t : Scope ρ), s.Alike old t →
      Agree (Scope.Alike old) (runAll env target body s) (runAll env target body t))
    (h : s.Alike old t) : Agree (Scope.Alike old) (run env target a s) (run env target a t) := by
  cases a with
  | set id e =>
    rw [run, run]
    refine (h.eval env target e).bind ?_
    rintro ⟨v, s'⟩ ⟨_, t'⟩ ⟨rfl, hs⟩
    exact .ok ⟨hs.world.write _ _, hs.effects⟩
  | add id e | multiply id e =>
    rw [run, run]
    refine (h.eval env target e).bind ?_
    rintro ⟨v, s'⟩ ⟨_, t'⟩ ⟨rfl, hs⟩
    have hs : s'.Alike old t' := hs
    refine .ok ⟨?_, hs.effects⟩
    change (s'.world.write id _).Alike old (t'.world.write id _)
    rw [hs.world.number]
    exact hs.world.write _ _
  | branch condition yes no =>
    rw [run_branch, run_branch]
    refine (h.eval env target condition).bind ?_
    rintro ⟨v, s'⟩ ⟨_, t'⟩ ⟨rfl, hs⟩
    refine hbodies _ ?_ target s' t' hs
    cases v.isTruthy <;> simp [bodies]
  | random choices =>
    rw [run, run]
    refine (h.draw _).bind ?_
    rintro ⟨_ | i, s'⟩ ⟨_, t'⟩ ⟨rfl, hs⟩
    · exact .ok hs
    · simp only [runChosen_eq]
      rcases hc : choices[i]? with _ | c
      · exact .ok hs
      · exact hbodies _ (List.mem_map_of_mem (List.mem_of_getElem? hc)) target s' t' hs
  | message template kind =>
    rw [run, run]
    refine .ok ⟨h.world.withLog ?_, h.effects⟩
    rw [h.world.state, h.world.clock]
    exact h.world.log.push _
  | emit event data =>
    rw [run, run]
    refine (h.evalEntries env target data).bind ?_
    rintro ⟨vs, s'⟩ ⟨_, t'⟩ ⟨rfl, hs⟩
    exact .ok ⟨hs.world, congrArg (· ++ _) hs.effects⟩
  | trigger event params =>
    rw [run, run]
    refine (h.evalEntries env target params).bind ?_
    rintro ⟨vs, s'⟩ ⟨_, t'⟩ ⟨rfl, hs⟩
    exact .ok ⟨hs.world, congrArg (· ++ _) hs.effects⟩
  | spawn kind properties =>
    rw [run, run]
    refine (h.evalEntries env target properties).bind ?_
    rintro ⟨vs, s'⟩ ⟨_, t'⟩ ⟨rfl, hs⟩
    have hs : s'.Alike old t' := hs
    have hpopulation := (hs.world.population.spawn kind vs).2
    refine .ok ⟨hs.world.withPopulation hpopulation, ?_⟩
    -- The event names the new entity, whose id is the next one in both.
    change s'.effects ++ _ = t'.effects ++ _
    rw [hs.effects, hs.world.population.next]
  | forEach kind filter body =>
    rw [run_forEach, run_forEach, h.world.population.idsOfKind]
    exact Agree.foldlM h fun id s t hs =>
      visit_agree (hbodies body (List.mem_singleton_self _) (some id)) hs
  | setProp property e | addProp property e =>
    rcases target with _ | id
    · rw [run, run]
      exact .ok h
    · rw [run, run]
      refine (h.eval env (some id) e).bind ?_
      rintro ⟨v, s'⟩ ⟨_, t'⟩ ⟨rfl, hs⟩
      exact .ok ⟨hs.world.withPopulation (hs.world.population.modify id _), hs.effects⟩
  | despawn =>
    rcases target with _ | id
    · rw [run, run]
      exact .ok h
    · rw [run, run]
      obtain ⟨hremoved, hpopulation⟩ := h.world.population.remove id
      -- Both runs branch on what has been removed, which is the same.
      generalize s.world.population.remove id = x at hremoved hpopulation
      generalize t.world.population.remove id = y at hremoved hpopulation
      obtain ⟨removed, p⟩ := x
      obtain ⟨_, q⟩ := y
      obtain rfl := hremoved
      rcases removed with _ | e
      · exact .ok h
      · exact .ok ⟨h.world.withPopulation hpopulation, congrArg (· ++ _) h.effects⟩

/-- A run of actions agrees in scopes that are alike. -/
theorem runAll_agree (h : s.Alike old t) :
    Agree (Scope.Alike old) (runAll env target as s) (runAll env target as t) := by
  induction as using list_induction generalizing target s t with
  | nil => exact .ok h
  | cons a as ihbodies ih =>
    rw [runAll, runAll]
    exact (run_agree_of_bodies (fun body hbody _ _ _ => ihbodies body hbody) h).bind fun _ _ => ih

end Action

end IdleGame
