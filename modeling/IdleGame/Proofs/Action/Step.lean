import IdleGame.Proofs.Action.Deed
import IdleGame.Proofs.Expr.Composition

/-!
# What an action does, and what a run preserves

An action first finds something out: its operands, a condition or a choice. Only the random source
moves by that. Then a plain action does one thing, to its target if it has to do with entities, and
any other goes on with one of the lists within. So a property of scopes that survives what is found
out and what is done survives a run of any list, whatever is nested in it.

## Main definitions

* `Action.IsSilent` - an action that itself draws no random number
* `Action.looped?` - the kind that an action itself loops over
* `Scope.Prepares` - a scope after an action has found out what it needs
* `Scope.Acts` - a scope after a plain action has done its one thing

## Main results

* `Action.run_plain` - a plain action prepares, and then it acts
* `Action.runAll_preserves` - what both preserve is preserved by a run
-/

namespace IdleGame

variable {ρ α : Type}

/-- An action that itself draws no random number: it makes no random choice, and there is no random
number in its expressions. -/
structure Action.IsSilent (a : Action) : Prop where
  choices : ∀ choices, a ≠ .random choices
  exprs : ∀ e ∈ a.exprs, Expr.random ∉ e.nodes

/-- The kind that an action itself loops over. -/
def Action.looped? : Action → Option String
  | .forEach kind _ _ => some kind
  | .set .. | .add .. | .multiply .. | .branch .. | .random .. | .message .. | .emit ..
  | .trigger .. | .spawn .. | .setProp .. | .addProp .. | .despawn => none

namespace Scope

/-- An action finds out what it needs. At most the random source moves by that, and it stays where
it is if the action is silent. -/
inductive Prepares (a : Action) (s : Scope ρ) : Scope ρ → Prop
  | moved (r : ρ) (h : a.IsSilent → r = s.world.random) :
      Prepares a s { s with world := { s.world with random := r } }

/-- A plain action does its one thing. Entities are changed and removed only if they are the
target. -/
inductive Acts (target : Option EntityId) : Scope ρ → Scope ρ → Prop
  | idle {s} : Acts target s s
  | written {s} (id : String) (v : Value) :
      Acts target s { s with world := s.world.write id v }
  | logged {s} (m : Message) :
      Acts target s { s with world := { s.world with log := s.world.log.push m } }
  | reported {s} (events : List GameEvent) (triggers : List (String × Values)) :
      Acts target s { s with effects := s.effects ++ { events, triggers } }
  | spawned {s} (kind : String) (properties : Values) :
      Acts target s
        ⟨{ s.world with population := (s.world.population.spawn kind properties).2 },
          s.effects ++ { spawned := [⟨s.world.population.next⟩] }⟩
  | modified {s id f} (htarget : target = some id) (hid : ∀ e : Entity, (f e).id = e.id) :
      Acts target s
        { s with world := { s.world with population := s.world.population.modify id f } }
  | removed {s id e} (htarget : target = some id) (hget : s.world.population.get? id = some e) :
      Acts target s
        ⟨{ s.world with population := (s.world.population.remove id).2 },
          s.effects ++ { despawned := [id] }⟩

variable {a : Action} {s s' : Scope ρ} {env : Surroundings} {target : Option EntityId}

theorem Prepares.refl (a : Action) (s : Scope ρ) : s.Prepares a s :=
  .moved s.world.random fun _ => rfl

/-- A computation on the random source that draws nothing if the action is silent. -/
theorem draw_prepares {x : Draws ρ α} {v : α} (hx : a.IsSilent → x.Silent)
    (h : s.draw x = .ok (v, s')) : s.Prepares a s' := by
  obtain ⟨⟨v', w⟩, hw, h⟩ := Outcome.bind_eq_ok_iff.mp h
  obtain ⟨-, rfl⟩ := Prod.mk.inj (Except.ok.inj h)
  obtain ⟨r, hr, rfl⟩ := World.draw_eq_ok_iff.mp hw
  refine .moved r fun hsilent => ?_
  have hsource := (hx hsilent).source_eq (r := s.world.random)
  rw [hr] at hsource
  exact hsource

variable [RandomSource ρ]

theorem eval_prepares {e : Expr} {v : Value} (he : e ∈ a.exprs)
    (h : s.eval env target e = .ok (v, s')) : s.Prepares a s' :=
  draw_prepares (fun hsilent => Expr.silent_eval _ (hsilent.exprs e he)) h

theorem silent_evalEntries {view : View} {es : List (String × Expr)}
    (h : ∀ e ∈ es.map Prod.snd, Expr.random ∉ e.nodes) :
    (Expr.evalEntries view es : Draws ρ (List (String × Value))).Silent := by
  induction es with
  | nil => exact Draws.composes_silent.pure _
  | cons e es ih =>
    rw [List.map_cons, List.forall_mem_cons] at h
    rw [Expr.evalEntries]
    exact Draws.composes_silent.bind (Expr.silent_eval view h.1) fun _ =>
      Draws.composes_silent.map (ih h.2)

theorem evalEntries_prepares {es : List (String × Expr)} {vs : Values}
    (hes : a.exprs = es.map Prod.snd) (h : s.evalEntries env target es = .ok (vs, s')) :
    s.Prepares a s' := by
  obtain ⟨⟨vs', s₁⟩, hs, h⟩ := Outcome.bind_eq_ok_iff.mp h
  obtain ⟨-, rfl⟩ := Prod.mk.inj (Except.ok.inj h)
  exact draw_prepares (fun hsilent => silent_evalEntries (hes ▸ hsilent.exprs)) hs

end Scope

namespace Action

variable [RandomSource ρ] {env : Surroundings} {target : Option EntityId} {a : Action}
  {as body : List Action} {s s' : Scope ρ}

/-- A plain action finds out what it needs, and then it does its one thing. -/
theorem run_plain (hplain : a.isPlain) (h : run env target a s = .ok s') :
    ∃ s₁, s.Prepares a s₁ ∧ s₁.Acts target s' := by
  cases a with
  | branch | random | forEach => cases hplain
  | set id e | add id e | multiply id e =>
    rw [run] at h
    obtain ⟨⟨v, s₁⟩, hv, h⟩ := Outcome.bind_eq_ok_iff.mp h
    obtain rfl := Except.ok.inj h
    exact ⟨s₁, Scope.eval_prepares (List.mem_singleton_self e) hv, .written id _⟩
  | message template kind =>
    rw [run] at h
    obtain rfl := Except.ok.inj h
    exact ⟨s, .refl _ s, .logged _⟩
  | emit event data =>
    rw [run] at h
    obtain ⟨⟨vs, s₁⟩, hvs, h⟩ := Outcome.bind_eq_ok_iff.mp h
    obtain rfl := Except.ok.inj h
    exact ⟨s₁, Scope.evalEntries_prepares rfl hvs, .reported [⟨event, vs⟩] []⟩
  | trigger event params =>
    rw [run] at h
    obtain ⟨⟨vs, s₁⟩, hvs, h⟩ := Outcome.bind_eq_ok_iff.mp h
    obtain rfl := Except.ok.inj h
    exact ⟨s₁, Scope.evalEntries_prepares rfl hvs, .reported [] [(event, vs)]⟩
  | spawn kind properties =>
    rw [run] at h
    obtain ⟨⟨vs, s₁⟩, hvs, h⟩ := Outcome.bind_eq_ok_iff.mp h
    obtain rfl := Except.ok.inj h
    exact ⟨s₁, Scope.evalEntries_prepares rfl hvs, .spawned kind vs⟩
  | setProp property e | addProp property e =>
    rcases target with _ | id
    · rw [run] at h
      obtain rfl := Except.ok.inj h
      exact ⟨s, .refl _ s, .idle⟩
    · rw [run] at h
      obtain ⟨⟨v, s₁⟩, hv, h⟩ := Outcome.bind_eq_ok_iff.mp h
      obtain rfl := Except.ok.inj h
      exact ⟨s₁, Scope.eval_prepares (List.mem_singleton_self e) hv, .modified rfl fun _ => rfl⟩
  | despawn =>
    refine ⟨s, .refl _ s, ?_⟩
    rcases target with _ | id
    · rw [run] at h
      obtain rfl := Except.ok.inj h
      exact .idle
    · rw [run] at h
      -- A target that has gone already is not removed again.
      rcases hget : s.world.population.get? id with _ | e
      · simp only [Population.remove, hget] at h
        obtain rfl := Except.ok.inj h
        exact .idle
      · have hremoved : s.Acts (some id) _ := .removed rfl hget
        simp only [Population.remove, hget] at h hremoved
        obtain rfl := Except.ok.inj h
        exact hremoved

section Preserve

variable {motive : Scope ρ → Prop} {T : Option EntityId → Prop}

/-- What is preserved by finding out whether an entity passes a filter, and by the body, is
preserved by a round of a loop. -/
theorem visit_preserves {kind : String} {filter : Option Expr} {id : EntityId}
    (hprepares : ∀ s s' : Scope ρ, motive s → s.Prepares (.forEach kind filter body) s' →
      motive s')
    (hbody : ∀ s s' : Scope ρ, motive s → runAll env (some id) body s = .ok s' → motive s')
    (hs : motive s) (h : visit env filter body s id = .ok s') : motive s' := by
  by_cases hlive : s.world.population.contains id
  · rcases filter with _ | g
    · rw [visit_unfiltered hlive] at h
      exact hbody s s' hs h
    · rw [visit_filtered hlive] at h
      obtain ⟨⟨v, s₁⟩, hv, h⟩ := Outcome.bind_eq_ok_iff.mp h
      have hs₁ := hprepares s s₁ hs (Scope.eval_prepares (List.mem_singleton_self g) hv)
      dsimp only at h
      split at h
      · exact hbody s₁ s' hs₁ h
      · obtain rfl := Except.ok.inj h
        exact hs₁
  · rw [visit_gone hlive] at h
    obtain rfl := Except.ok.inj h
    exact hs

/-- What is preserved by an action itself and by the lists within it is preserved by the action. -/
theorem run_preserves_of_bodies
    (hprepares : ∀ s s' : Scope ρ, motive s → s.Prepares a s' → motive s')
    (hacts : ∀ target, T target → ∀ s s' : Scope ρ, motive s → s.Acts target s' → motive s')
    (htargets : ∀ kind, a.looped? = some kind → ∀ s : Scope ρ, motive s →
      ∀ id ∈ s.world.population.idsOfKind kind, T (some id))
    (hbodies : ∀ body ∈ a.bodies, ∀ target, T target → ∀ s s' : Scope ρ, motive s →
      runAll env target body s = .ok s' → motive s')
    (htarget : T target) (hs : motive s) (h : run env target a s = .ok s') : motive s' := by
  by_cases hplain : a.isPlain
  · obtain ⟨s₁, hprepared, hacted⟩ := run_plain hplain h
    exact hacts target htarget s₁ s' (hprepares s s₁ hs hprepared) hacted
  · cases a with
    | branch condition yes no =>
      rw [run_branch] at h
      obtain ⟨⟨v, s₁⟩, hv, h⟩ := Outcome.bind_eq_ok_iff.mp h
      have hs₁ := hprepares s s₁ hs (Scope.eval_prepares (List.mem_singleton_self condition) hv)
      refine hbodies _ ?_ target htarget s₁ s' hs₁ h
      cases v.isTruthy <;> simp [bodies]
    | random choices =>
      rw [run] at h
      obtain ⟨⟨chosen, s₁⟩, hdraw, h⟩ := Outcome.bind_eq_ok_iff.mp h
      have hs₁ := hprepares s s₁ hs
        (Scope.draw_prepares (fun hsilent => (hsilent.choices choices rfl).elim) hdraw)
      rcases chosen with _ | i
      · obtain rfl := Except.ok.inj h
        exact hs₁
      · simp only [runChosen_eq] at h
        rcases hc : choices[i]? with _ | c
        · rw [hc] at h
          obtain rfl := Except.ok.inj h
          exact hs₁
        · rw [hc] at h
          exact hbodies _ (List.mem_map_of_mem (List.mem_of_getElem? hc)) target htarget s₁ s' hs₁ h
    | forEach kind filter body =>
      rw [run_forEach] at h
      refine Outcome.foldlM_preserves_of_mem (fun s₁ id hid s₂ hs₁ h => ?_) hs h
      have htarget := htargets kind rfl s hs id hid
      exact visit_preserves hprepares (hbodies body (List.mem_singleton_self _) (some id) htarget)
        hs₁ h
    | _ => exact (hplain rfl).elim

/-- A run of a list preserves what its actions, at any depth, preserve by preparing and by acting
on the targets that they come to. -/
theorem runAll_preserves
    (hprepares : ∀ b ∈ nodesOfAll as, ∀ s s' : Scope ρ, motive s → s.Prepares b s' → motive s')
    (hacts : ∀ target, T target → ∀ s s' : Scope ρ, motive s → s.Acts target s' → motive s')
    (htargets : ∀ b ∈ nodesOfAll as, ∀ kind, b.looped? = some kind → ∀ s : Scope ρ, motive s →
      ∀ id ∈ s.world.population.idsOfKind kind, T (some id))
    (htarget : T target) (hs : motive s) (h : runAll env target as s = .ok s') : motive s' := by
  induction as using list_induction generalizing target s s' with
  | nil =>
    obtain rfl := Except.ok.inj h
    exact hs
  | cons a as ihbodies ih =>
    rw [runAll] at h
    obtain ⟨s₁, hfirst, h⟩ := Outcome.bind_eq_ok_iff.mp h
    have hs₁ : motive s₁ := by
      refine run_preserves_of_bodies (hprepares a mem_nodesOfAll_head) hacts
        (htargets a mem_nodesOfAll_head) (fun body hbody target htarget s s' hs h => ?_) htarget hs
        hfirst
      -- The nodes of a list within are nodes of the whole list.
      have hsub : nodesOfAll body ⊆ nodesOfAll (a :: as) := nodesOfAll_subset_of_mem_bodies hbody
      exact ihbodies body hbody (fun b hb => hprepares b (hsub hb))
        (fun b hb => htargets b (hsub hb)) htarget hs h
    exact ih (fun b hb => hprepares b (nodesOfAll_subset_cons hb))
      (fun b hb => htargets b (nodesOfAll_subset_cons hb)) htarget hs₁ h

end Preserve

end Action

end IdleGame
