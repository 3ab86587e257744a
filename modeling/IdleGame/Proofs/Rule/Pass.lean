import IdleGame.Proofs.Game.Authored
import IdleGame.Rule.Schedule

/-!
# What a pass over the rules evaluates and changes

## Main definitions

* `Pass.Considers` - whether a rule is looked at
* `Pass.Evaluates` - a pass comes to an evaluation

## Main results

* `Pass.run_error_iff` - a pass faults exactly when it comes to an evaluation that does
* `Pass.run_changes_of_actions` - a pass changes the world as the rules that it admits do
* `Pass.run_changes` - a pass changes the world as the game may
-/

namespace IdleGame.Pass

variable {ρ : Type} [RandomSource ρ]

/-- A pass looks at the condition of a rule. -/
def Considers (pass : Pass) (r : Rule) (p : Progress ρ) : Prop :=
  r.isAdmitted pass && r.isReady (FireRecords.of p.records r.id) pass.now

/-- A pass over rules comes to an evaluation. -/
inductive Evaluates (pass : Pass) (env : Surroundings) :
    List Rule → Progress ρ → Evaluation ρ → Prop
  | condition {r rules p} (h : pass.Considers r p) :
      Evaluates pass env (r :: rules) p (p.scope.evaluation env none r.condition)
  | actions {r rules p v s ev} (h : pass.Considers r p)
      (hv : p.scope.eval env none r.condition = .ok (v, s)) (hholds : v.isTruthy)
      (hev : Action.Evaluates env none r.actions s ev) : Evaluates pass env (r :: rules) p ev
  | later {r rules p p' ev} (h : pass.consider env r p = .ok p')
      (hlater : Evaluates pass env rules p' ev) : Evaluates pass env (r :: rules) p ev

variable {pass : Pass} {env : Surroundings} {r : Rule} {rules : List Rule} {p p' : Progress ρ}
  {ev : Evaluation ρ} {f : Fault} {g : Game}

theorem consider_skipped (h : ¬ pass.Considers r p) : pass.consider env r p = .ok p :=
  if_neg h

theorem consider_considered (h : pass.Considers r p) :
    pass.consider env r p =
      p.scope.eval env none r.condition >>= fun (v, s) =>
        if v.isTruthy then
          Action.runAll env none r.actions s >>= fun s' =>
            .ok ⟨p.records.insert r.id ((FireRecords.of p.records r.id).fire pass.now), s',
              p.fired ++ [r.id]⟩
        else .ok { p with scope := s } :=
  if_pos h

theorem consider_error_iff :
    pass.consider env r p = .error f ↔
      pass.Considers r p ∧
        ((p.scope.evaluation env none r.condition).Faults f ∨
          ∃ v s, p.scope.eval env none r.condition = .ok (v, s) ∧ v.isTruthy ∧
            Action.runAll env none r.actions s = .error f) := by
  by_cases h : pass.Considers r p
  · rw [consider_considered h, Outcome.bind_eq_error_iff, Scope.eval_eq_error_iff]
    simp only [h, true_and]
    constructor
    · rintro (hf | ⟨⟨v, s⟩, hv, hf⟩)
      · exact .inl hf
      · dsimp only at hf
        split at hf
        · rcases Outcome.bind_eq_error_iff.mp hf with hf | ⟨_, _, hf⟩
          · exact .inr ⟨v, s, hv, ‹_›, hf⟩
          · cases hf
        · cases hf
    · rintro (hf | ⟨v, s, hv, hholds, hf⟩)
      · exact .inl hf
      · exact .inr ⟨(v, s), hv, (if_pos hholds).trans (Outcome.bind_eq_error_iff.mpr (.inl hf))⟩
  · rw [consider_skipped h]
    simp [h]

/-- A pass faults exactly when it comes to an evaluation that does. -/
theorem run_error_iff :
    pass.run env rules p = .error f ↔ ∃ ev, pass.Evaluates env rules p ev ∧ ev.Faults f := by
  unfold run
  constructor
  · intro h
    induction rules generalizing p with
    | nil => cases h
    | cons r rules ih =>
      rw [List.foldlM_cons] at h
      rcases Outcome.bind_eq_error_iff.mp h with h | ⟨p', hp, h⟩
      · obtain ⟨hr, hf | ⟨v, s, hv, hholds, hf⟩⟩ := consider_error_iff.mp h
        · exact ⟨_, .condition hr, hf⟩
        · obtain ⟨ev, hev, hf⟩ := Action.runAll_error_iff.mp hf
          exact ⟨ev, .actions hr hv hholds hev, hf⟩
      · obtain ⟨ev, hlater, hf⟩ := ih h
        exact ⟨ev, .later hp hlater, hf⟩
  · rintro ⟨ev, h, hf⟩
    induction h with
    | condition h =>
      rw [List.foldlM_cons, consider_error_iff.mpr ⟨h, .inl hf⟩]
      rfl
    | actions h hv hholds hev =>
      have hactions := Action.runAll_error_iff.mpr ⟨_, hev, hf⟩
      rw [List.foldlM_cons, consider_error_iff.mpr ⟨h, .inr ⟨_, _, hv, hholds, hactions⟩⟩]
      rfl
    | later h _ ih =>
      rw [List.foldlM_cons, h]
      exact ih hf

section

variable {W : String → Value → Prop}

/-- Considering a rule changes the world as its actions do, if the pass admits it. -/
theorem consider_changes_of_actions
    (hactions : r.isAdmitted pass → ∀ s s' : Scope ρ,
      Action.runAll env none r.actions s = .ok s' → s.world.Changes W s'.world)
    (h : pass.consider env r p = .ok p') : p.scope.world.Changes W p'.scope.world := by
  by_cases hconsiders : pass.Considers r p
  · rw [consider_considered hconsiders] at h
    obtain ⟨⟨v, s⟩, hv, h⟩ := Outcome.bind_eq_ok_iff.mp h
    have hdrawn := Scope.eval_changes (W := W) hv
    dsimp only at h
    split at h
    · obtain ⟨s', hs, h⟩ := Outcome.bind_eq_ok_iff.mp h
      obtain rfl := Except.ok.inj h
      exact hdrawn.trans (hactions (Bool.and_eq_true_iff.mp hconsiders).1 s s' hs)
    · obtain rfl := Except.ok.inj h
      exact hdrawn
  · rw [consider_skipped hconsiders] at h
    obtain rfl := Except.ok.inj h
    exact .refl _

/-- A pass changes the world as the actions of the rules do that it admits. -/
theorem run_changes_of_actions
    (hactions : ∀ r ∈ rules, r.isAdmitted pass → ∀ s s' : Scope ρ,
      Action.runAll env none r.actions s = .ok s' → s.world.Changes W s'.world)
    (h : pass.run env rules p = .ok p') : p.scope.world.Changes W p'.scope.world := by
  unfold run at h
  induction rules generalizing p with
  | nil =>
    obtain rfl := Except.ok.inj h
    exact .refl _
  | cons r rules ih =>
    rw [List.foldlM_cons] at h
    obtain ⟨p₁, hp, h⟩ := Outcome.bind_eq_ok_iff.mp h
    rw [List.forall_mem_cons] at hactions
    exact (consider_changes_of_actions hactions.1 hp).trans (ih hactions.2 h)

end

/-- Considering a rule of a game changes the world as the game may. -/
theorem consider_changes (hr : r ∈ g.rules) (hkinds : env.kinds = g.kinds)
    (h : pass.consider env r p = .ok p') :
    p.scope.world.Changes g.Writes p'.scope.world :=
  consider_changes_of_actions (fun _ _ _ hs => (Game.Lists.rule hr).changes hkinds hs) h

/-- A pass over rules of a game changes the world as the game may. -/
theorem run_changes (hrules : rules ⊆ g.rules) (hkinds : env.kinds = g.kinds)
    (h : pass.run env rules p = .ok p') : p.scope.world.Changes g.Writes p'.scope.world :=
  run_changes_of_actions
    (fun _ hr _ _ _ hs => (Game.Lists.rule (hrules hr)).changes hkinds hs) h

/-- What a pass over rules of a game evaluates is authored in the game. -/
theorem Evaluates.reads (h : pass.Evaluates env rules p ev) (hrules : rules ⊆ g.rules)
    (hkinds : env.kinds = g.kinds) : g.Reads p.scope.world ev := by
  induction h with
  | condition => exact (Game.Authors.condition (List.cons_subset.mp hrules).1).reads
  | actions _ hv _ hev =>
    exact ((Game.Lists.rule (List.cons_subset.mp hrules).1).reads hkinds hev).after
      (Scope.eval_changes hv)
  | later h _ ih =>
    rw [List.cons_subset] at hrules
    exact (ih hrules.2).after (consider_changes hrules.1 hkinds h)

end IdleGame.Pass
