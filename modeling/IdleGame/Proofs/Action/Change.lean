import IdleGame.Proofs.Action.Evaluation
import IdleGame.Proofs.World.Change

/-!
# What actions change

A run of actions is a sequence of changes of the world, in which variables are written only by the
actions that name them: what is set has the declared kind, and what is added to or scaled becomes a
number. Every evaluation on the way reads a world between two such changes.

## Main definitions

* `Action.Writes` - the variables that an action itself may write, and with which values
* `Action.WritesWithin` - the same for a list with all actions within
* `Action.Reads` - the worlds that a list may read, and what it may evaluate there

## Main results

* `Action.runAll_changes` - a run of actions is a sequence of changes
* `Action.Evaluates.reads` - what actions evaluate, and the world that it reads
-/

namespace IdleGame

variable {ρ α : Type} [RandomSource ρ] {W : String → Value → Prop}

namespace Scope

variable {s s' : Scope ρ} {env : Surroundings} {target : Option EntityId}

theorem draw_changes {x : Draws ρ α} (hx : x.Steady) {a : α} (h : s.draw x = .ok (a, s')) :
    s.world.Changes W s'.world := by
  obtain ⟨⟨a', w⟩, hw, h⟩ := Outcome.bind_eq_ok_iff.mp h
  obtain ⟨-, rfl⟩ := Prod.mk.inj (Except.ok.inj h)
  exact World.draw_changes hx hw

theorem eval_changes {e : Expr} {v : Value} (h : s.eval env target e = .ok (v, s')) :
    s.world.Changes W s'.world :=
  draw_changes (Expr.steady_eval _ e) h

/-- A value is found, and then one change is made. -/
theorem eval_change {e : Expr} {v : Value} {w : World ρ} (h : s.eval env target e = .ok (v, s'))
    (hchange : s'.world.Change W w) : s.world.Changes W w :=
  (eval_changes h).trans hchange.changes

theorem evalEntries_changes {es : List (String × Expr)} {vs : Values}
    (h : s.evalEntries env target es = .ok (vs, s')) : s.world.Changes W s'.world := by
  obtain ⟨⟨vs', s₁⟩, hs, h⟩ := Outcome.bind_eq_ok_iff.mp h
  obtain ⟨-, rfl⟩ := Prod.mk.inj (Except.ok.inj h)
  exact draw_changes (Expr.steady_evalEntries _ es) hs

end Scope

theorem Weighted.steady_draw (weights : List Float) :
    (Weighted.draw weights : Draws ρ (Option Nat)).Steady :=
  (Draws.steady_next.map).ite (Draws.steady_pure _)

namespace Action

/-- The variables that an action itself may write, and with which values. -/
inductive Writes (env : Surroundings) : Action → String → Value → Prop
  | set {id e v} : Writes env (.set id e) id (env.coerce id v)
  | add {id e x} : Writes env (.add id e) id (.number x)
  | multiply {id e x} : Writes env (.multiply id e) id (.number x)

/-- What the actions of a list and those within may write. -/
def WritesWithin (env : Surroundings) (as : List Action) (id : String) (v : Value) : Prop :=
  ∃ b ∈ nodesOfAll as, b.Writes env id v

variable {env : Surroundings} {target target' : Option EntityId} {a : Action}
  {as body : List Action} {s s' : Scope ρ} {ev : Evaluation ρ}

/-- Changes by the actions of a list are changes by those of a list that includes them. -/
theorem changes_of_subset {w w' : World ρ} (h : w.Changes (WritesWithin env body) w')
    (hsub : nodesOfAll body ⊆ nodesOfAll as) : w.Changes (WritesWithin env as) w' :=
  h.mono fun _ _ ⟨b, hb, hwrites⟩ => ⟨b, hsub hb, hwrites⟩

theorem visit_changes {filter : Option Expr} {id : EntityId}
    (hbody : ∀ s s' : Scope ρ, runAll env (some id) body s = .ok s' → s.world.Changes W s'.world)
    (h : visit env filter body s id = .ok s') : s.world.Changes W s'.world := by
  by_cases hlive : s.world.population.contains id
  · rcases filter with _ | g
    · rw [visit_unfiltered hlive] at h
      exact hbody _ _ h
    · rw [visit_filtered hlive] at h
      obtain ⟨⟨v, s₁⟩, hv, h⟩ := Outcome.bind_eq_ok_iff.mp h
      have hdrawn := Scope.eval_changes (W := W) hv
      dsimp only at h
      split at h
      · exact hdrawn.trans (hbody _ _ h)
      · obtain rfl := Except.ok.inj h
        exact hdrawn
  · rw [visit_gone hlive] at h
    obtain rfl := Except.ok.inj h
    exact .refl _

theorem foldlM_visit_changes {filter : Option Expr} {ids : List EntityId}
    (hbody : ∀ id (s s' : Scope ρ), runAll env (some id) body s = .ok s' →
      s.world.Changes W s'.world)
    (h : ids.foldlM (visit env filter body) s = .ok s') : s.world.Changes W s'.world :=
  Outcome.foldlM_preserves (motive := fun s₁ => s.world.Changes W s₁.world)
    (fun _ id _ hs h => hs.trans (visit_changes (hbody id) h)) (.refl _) h

/-- An action changes the world as its lists within do, besides its own write. -/
theorem run_changes_of_bodies (hown : ∀ id v, a.Writes env id v → W id v)
    (hbodies : ∀ body ∈ a.bodies, ∀ target (s s' : Scope ρ), runAll env target body s = .ok s' →
      s.world.Changes W s'.world)
    (h : run env target a s = .ok s') : s.world.Changes W s'.world := by
  cases a with
  | set id e =>
    rw [run] at h
    obtain ⟨⟨v, s₁⟩, hv, h⟩ := Outcome.bind_eq_ok_iff.mp h
    obtain rfl := Except.ok.inj h
    exact Scope.eval_change hv (.written (hown _ _ .set))
  | add id e =>
    rw [run] at h
    obtain ⟨⟨v, s₁⟩, hv, h⟩ := Outcome.bind_eq_ok_iff.mp h
    obtain rfl := Except.ok.inj h
    exact Scope.eval_change hv (.written (hown _ _ .add))
  | multiply id e =>
    rw [run] at h
    obtain ⟨⟨v, s₁⟩, hv, h⟩ := Outcome.bind_eq_ok_iff.mp h
    obtain rfl := Except.ok.inj h
    exact Scope.eval_change hv (.written (hown _ _ .multiply))
  | branch condition yes no =>
    rw [run_branch] at h
    obtain ⟨⟨v, s₁⟩, hv, h⟩ := Outcome.bind_eq_ok_iff.mp h
    refine (Scope.eval_changes hv).trans (hbodies _ ?_ _ _ _ h)
    cases v.isTruthy <;> simp [bodies]
  | random choices =>
    rw [run] at h
    obtain ⟨⟨chosen, s₁⟩, hdraw, h⟩ := Outcome.bind_eq_ok_iff.mp h
    have hdrawn := Scope.draw_changes (W := W) (Weighted.steady_draw _) hdraw
    -- With nothing chosen only the draw is left.
    rcases chosen with _ | i
    · obtain rfl := Except.ok.inj h
      exact hdrawn
    · simp only [runChosen_eq] at h
      rcases hc : choices[i]? with _ | c
      · rw [hc] at h
        obtain rfl := Except.ok.inj h
        exact hdrawn
      · rw [hc] at h
        exact hdrawn.trans
          (hbodies _ (List.mem_map_of_mem (List.mem_of_getElem? hc)) _ _ _ h)
  | message template kind =>
    rw [run] at h
    obtain rfl := Except.ok.inj h
    exact World.Change.logged.changes
  | emit | trigger =>
    rw [run] at h
    obtain ⟨⟨vs, s₁⟩, hvs, h⟩ := Outcome.bind_eq_ok_iff.mp h
    have hdrawn := Scope.evalEntries_changes (W := W) hvs
    obtain rfl := Except.ok.inj h
    exact hdrawn
  | spawn kind properties =>
    rw [run] at h
    obtain ⟨⟨vs, s₁⟩, hvs, h⟩ := Outcome.bind_eq_ok_iff.mp h
    obtain rfl := Except.ok.inj h
    exact (Scope.evalEntries_changes hvs).trans World.Change.spawned.changes
  | forEach kind filter body =>
    rw [run_forEach] at h
    exact foldlM_visit_changes
      (fun id s s' => hbodies body (List.mem_singleton_self _) (some id) s s') h
  | setProp property e | addProp property e =>
    rcases target with _ | id
    · rw [run] at h
      obtain rfl := Except.ok.inj h
      exact .refl _
    · rw [run] at h
      obtain ⟨⟨v, s₁⟩, hv, h⟩ := Outcome.bind_eq_ok_iff.mp h
      obtain rfl := Except.ok.inj h
      exact Scope.eval_change hv (.modified (fun _ => rfl) (fun _ => rfl))
  | despawn =>
    rcases target with _ | id
    · rw [run] at h
      obtain rfl := Except.ok.inj h
      exact .refl _
    · have hremoved : s.world.Change W { s.world with
          population := (s.world.population.remove id).2 } := .removed
      rw [run] at h
      -- A target that is already gone is no change at all.
      rcases hremove : s.world.population.remove id with ⟨_ | e, population⟩
      · simp only [hremove] at h
        obtain rfl := Except.ok.inj h
        exact .refl _
      · simp only [hremove] at h hremoved
        obtain rfl := Except.ok.inj h
        exact hremoved.changes

/-- A run of actions is a sequence of changes, in which only its own actions write. -/
theorem runAll_changes (h : runAll env target as s = .ok s') :
    s.world.Changes (WritesWithin env as) s'.world := by
  induction as using list_induction generalizing target s s' with
  | nil =>
    obtain rfl := Except.ok.inj h
    exact .refl _
  | cons a as ihbodies ih =>
    rw [runAll] at h
    obtain ⟨s₁, hs, h⟩ := Outcome.bind_eq_ok_iff.mp h
    -- What the lists within an action write counts as written by the whole list.
    have hfirst : s.world.Changes (WritesWithin env (a :: as)) s₁.world := by
      refine run_changes_of_bodies (fun id v hw => ⟨a, mem_nodesOfAll_head, hw⟩) ?_ hs
      intro body hbody target s s' h
      exact changes_of_subset (ihbodies body hbody h) (nodesOfAll_subset_of_mem_bodies hbody)
    exact hfirst.trans (changes_of_subset (ih h) nodesOfAll_subset_cons)

theorem run_changes (h : run env target a s = .ok s') :
    s.world.Changes (WritesWithin env (a :: as)) s'.world :=
  run_changes_of_bodies (fun _ _ hw => ⟨a, mem_nodesOfAll_head, hw⟩)
    (fun _ hbody _ _ _ h =>
      changes_of_subset (runAll_changes h) (nodesOfAll_subset_of_mem_bodies hbody)) h

theorem Admits.changes {id : EntityId} {filter : Option Expr} (h : Admits env id filter s s') :
    s.world.Changes W s'.world := by
  cases h with
  | unfiltered => exact .refl _
  | filtered h => exact Scope.eval_changes h

theorem Visits.changes {kind : String} {filter : Option Expr} {id : EntityId}
    (h : Visits env kind filter body s id s') :
    s.world.Changes (WritesWithin env body) s'.world := by
  obtain ⟨before, after, -, hbefore, -⟩ := h
  exact foldlM_visit_changes (fun _ _ _ => runAll_changes) hbefore

/-- By the time an action goes on with a list within, the world has changed only as that list
changes it. -/
theorem Enters.changes (h : Enters env target a s target' body s') :
    s.world.Changes (WritesWithin env body) s'.world := by
  cases h with
  | branch h => exact Scope.eval_changes h
  | chosen h => exact Scope.draw_changes (Weighted.steady_draw _) h
  | visited h hadmits => exact h.changes.trans hadmits.changes

/-- The worlds that a list of actions may read, and the expressions that it may evaluate there. -/
def Reads (env : Surroundings) (as : List Action) (w : World ρ) (ev : Evaluation ρ) : Prop :=
  ∃ w' target, w.Changes (WritesWithin env as) w' ∧ ev.view = w'.view env.params target ∧
    ∃ b ∈ nodesOfAll as, ev.expr ∈ b.exprs

theorem Reads.of_subset {w : World ρ} (h : Reads env body w ev)
    (hsub : nodesOfAll body ⊆ nodesOfAll as) : Reads env as w ev := by
  obtain ⟨w', t, hchanges, hview, b, hb, hexpr⟩ := h
  exact ⟨w', t, changes_of_subset hchanges hsub, hview, b, hsub hb, hexpr⟩

theorem Reads.after {w w' : World ρ} (h : Reads env as w' ev)
    (hchanges : w.Changes (WritesWithin env as) w') : Reads env as w ev := by
  obtain ⟨w'', t, hchanges', hread⟩ := h
  exact ⟨w'', t, hchanges.trans hchanges', hread⟩

theorem Starts.reads (h : Starts env target a s ev) : Reads env (a :: as) s.world ev := by
  have hexpr := h.expr_mem
  cases h with
  | operand h => exact ⟨_, target, .refl _, h.view_eq, a, mem_nodesOfAll_head, hexpr⟩
  | filter h =>
    refine ⟨_, _, changes_of_subset h.changes ?_, rfl, _, mem_nodesOfAll_head, hexpr⟩
    exact nodesOfAll_subset_of_mem_bodies (List.mem_singleton_self _)

/-- What actions evaluate are expressions of theirs, in a world that they have changed so far. -/
theorem Evaluates.reads (h : Evaluates env target as s ev) : Reads env as s.world ev := by
  induction h with
  | starts h => exact h.reads
  | within h _ ih =>
    exact (ih.after h.changes).of_subset (nodesOfAll_subset_of_mem_bodies h.mem_bodies)
  | later h _ ih => exact (ih.of_subset nodesOfAll_subset_cons).after (run_changes h)

end Action

end IdleGame
