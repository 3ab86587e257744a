import IdleGame.Action.Run
import IdleGame.Proofs.Action.Nodes
import IdleGame.Proofs.Expr.Evaluation

/-!
# Which expressions actions evaluate

Running actions evaluates the operands of each in the world as it is by then, and which lists
within are entered depends on what has been evaluated and drawn. A run faults where one of its
evaluations does, for nothing else an action does can fail.

## Main definitions

* `Action.Starts` - an action, started in a scope, evaluates one of its own expressions
* `Action.Enters` - an action, started in a scope, goes on with a list within
* `Action.Evaluates` - a list of actions, started in a scope, comes to an evaluation

## Main results

* `Action.run_error_iff` - where the fault of an action comes from, one level down
* `Action.runAll_error_iff` - a list of actions faults exactly when it comes to an evaluation that
  does
-/

namespace IdleGame

variable {ρ α : Type} [RandomSource ρ]

namespace World

variable {w w' : World ρ} {x : Draws ρ α} {f : Fault}

omit [RandomSource ρ] in
theorem draw_eq_error_iff : w.draw x = .error f ↔ (x w.random).1 = .error f := by
  unfold draw
  rcases x w.random with ⟨_ | a, r⟩ <;> simp

omit [RandomSource ρ] in
theorem draw_eq_ok_iff {a : α} :
    w.draw x = .ok (a, w') ↔ ∃ r, x w.random = (.ok a, r) ∧ w' = { w with random := r } := by
  unfold draw
  rcases x w.random with ⟨_ | a', r⟩
  · simp
  · simp only [Except.ok.injEq, Prod.mk.injEq]
    constructor
    · rintro ⟨rfl, rfl⟩
      exact ⟨r, ⟨rfl, rfl⟩, rfl⟩
    · rintro ⟨_, ⟨rfl, rfl⟩, rfl⟩
      exact ⟨rfl, rfl⟩

end World

namespace Scope

variable {s s' : Scope ρ} {f : Fault}

omit [RandomSource ρ] in
theorem draw_eq_error_iff {x : Draws ρ α} :
    s.draw x = .error f ↔ (x s.world.random).1 = .error f := by
  rw [draw, Outcome.bind_eq_error_iff, World.draw_eq_error_iff]
  simp

/-- An expression about to be evaluated in a scope. -/
def evaluation (env : Surroundings) (target : Option EntityId) (e : Expr) (s : Scope ρ) :
    Evaluation ρ :=
  ⟨s.world.view env.params target, e, s.world.random⟩

theorem eval_eq_error_iff {env : Surroundings} {target : Option EntityId} {e : Expr} :
    s.eval env target e = .error f ↔ (s.evaluation env target e).Faults f :=
  draw_eq_error_iff

theorem evalEntries_eq_error_iff {env : Surroundings} {target : Option EntityId}
    {es : List (String × Expr)} :
    s.evalEntries env target es = .error f ↔
      ∃ ev, Expr.InTurn (s.world.view env.params target) (es.map Prod.snd) s.world.random ev ∧
        ev.Faults f := by
  rw [← Expr.evalEntries_error_iff, evalEntries, Outcome.bind_eq_error_iff, draw_eq_error_iff]
  simp

end Scope

theorem Weighted.draw_not_error {weights : List Float} {r : ρ} {f : Fault} :
    (Weighted.draw weights r).1 ≠ .error f := by
  unfold Weighted.draw
  split
  · rw [Ne, Draws.map_error_iff]
    simp [Draws.next]
  · simp

namespace Action

theorem runChosen_eq {env : Surroundings} {target : Option EntityId} {s : Scope ρ}
    (choices : List Choice) (i : Nat) :
    runChosen env target choices i s =
      match choices[i]? with
      | some c => runAll env target c.actions s
      | none => .ok s := by
  induction choices generalizing i with
  | nil => rfl
  | cons c cs ih =>
    obtain ⟨w, as⟩ := c
    cases i with
    | zero => simp [runChosen, Choice.actions]
    | succ i => simp [runChosen, ih]

theorem run_branch {env : Surroundings} {target : Option EntityId} {condition : Expr}
    {yes no : List Action} {s : Scope ρ} :
    run env target (.branch condition yes no) s =
      s.eval env target condition >>= fun (v, s') =>
        runAll env target (if v.isTruthy then yes else no) s' := by
  rw [run]
  rcases s.eval env target condition with _ | ⟨v, s'⟩
  · rfl
  · simp only [Outcome.ok_bind]
    split <;> rfl

/-- One round of a loop: a live entity that passes the filter is the target of the body. -/
def visit (env : Surroundings) (filter : Option Expr) (body : List Action) (s : Scope ρ)
    (id : EntityId) : Except Fault (Scope ρ) := do
  if s.world.population.contains id then
    let (passes, s) ← match filter with
      | some f => do
        let (v, s) ← s.eval env (some id) f
        pure (v.isTruthy, s)
      | none => pure (true, s)
    if passes then runAll env (some id) body s else return s
  else return s

section

variable {env : Surroundings} {filter : Option Expr} {body : List Action} {s : Scope ρ}
  {id : EntityId}

theorem visit_gone (h : ¬ s.world.population.contains id) :
    visit env filter body s id = .ok s := by
  rw [visit, if_neg h]
  rfl

theorem visit_unfiltered (h : s.world.population.contains id) :
    visit env none body s id = runAll env (some id) body s := by
  rw [visit, if_pos h]
  rfl

theorem visit_filtered {g : Expr} (h : s.world.population.contains id) :
    visit env (some g) body s id =
      s.eval env (some id) g >>= fun (v, s') =>
        if v.isTruthy then runAll env (some id) body s' else .ok s' := by
  rw [visit, if_pos h]
  dsimp only
  rcases s.eval env (some id) g with _ | ⟨v, s'⟩ <;> rfl

end

theorem run_forEach {env : Surroundings} {target : Option EntityId} {kind : String}
    {filter : Option Expr} {body : List Action} {s : Scope ρ} :
    run env target (.forEach kind filter body) s =
      (s.world.population.idsOfKind kind).foldlM (visit env filter body) s := by
  rw [run]
  rfl

/-- The loop has come to an entity that is still there. -/
def Visits (env : Surroundings) (kind : String) (filter : Option Expr) (body : List Action)
    (s : Scope ρ) (id : EntityId) (s' : Scope ρ) : Prop :=
  ∃ before after, s.world.population.idsOfKind kind = before ++ id :: after ∧
    before.foldlM (visit env filter body) s = .ok s' ∧ s'.world.population.contains id

/-- An entity passes a filter, whose evaluation may have drawn. -/
inductive Admits (env : Surroundings) (id : EntityId) : Option Expr → Scope ρ → Scope ρ → Prop
  | unfiltered {s} : Admits env id none s s
  | filtered {g v s s'} (h : s.eval env (some id) g = .ok (v, s')) (hv : v.isTruthy) :
      Admits env id (some g) s s'

/-- The expressions that an action evaluates in turn, when it starts. -/
def operands (target : Option EntityId) : Action → List Expr
  | set _ e | add _ e | multiply _ e => [e]
  | branch condition _ _ => [condition]
  | emit _ data => data.map Prod.snd
  | trigger _ params => params.map Prod.snd
  | spawn _ properties => properties.map Prod.snd
  | setProp _ e | addProp _ e => if target.isSome then [e] else []
  | random _ | message .. | forEach .. | despawn => []

/-- An action, started in a scope, evaluates one of its own expressions. -/
inductive Starts (env : Surroundings) (target : Option EntityId) :
    Action → Scope ρ → Evaluation ρ → Prop
  | operand {a s ev}
      (h : Expr.InTurn (s.world.view env.params target) (a.operands target) s.world.random ev) :
      Starts env target a s ev
  | filter {kind g body s id s'} (h : Visits env kind (some g) body s id s') :
      Starts env target (.forEach kind (some g) body) s (s'.evaluation env (some id) g)

/-- An action, started in a scope, goes on with a list within. -/
inductive Enters (env : Surroundings) (target : Option EntityId) :
    Action → Scope ρ → Option EntityId → List Action → Scope ρ → Prop
  | branch {condition yes no s v s'} (h : s.eval env target condition = .ok (v, s')) :
      Enters env target (.branch condition yes no) s target (if v.isTruthy then yes else no) s'
  | chosen {choices s i s' c} (h : s.draw (Weighted.draw (choices.map Choice.weight)) =
        .ok (some i, s')) (hc : choices[i]? = some c) :
      Enters env target (.random choices) s target c.actions s'
  | visited {kind filter body s id s' s''} (h : Visits env kind filter body s id s')
      (hadmits : Admits env id filter s' s'') :
      Enters env target (.forEach kind filter body) s (some id) body s''

/-- A list of actions, started in a scope, comes to an evaluation. -/
inductive Evaluates (env : Surroundings) :
    Option EntityId → List Action → Scope ρ → Evaluation ρ → Prop
  | starts {target a as s ev} (h : Starts env target a s ev) : Evaluates env target (a :: as) s ev
  | within {target a as s target' body s' ev} (h : Enters env target a s target' body s')
      (hbody : Evaluates env target' body s' ev) : Evaluates env target (a :: as) s ev
  | later {target a as s s' ev} (h : run env target a s = .ok s')
      (hlater : Evaluates env target as s' ev) : Evaluates env target (a :: as) s ev

variable {env : Surroundings} {target target' : Option EntityId} {a : Action}
  {as body : List Action} {s s' : Scope ρ} {ev : Evaluation ρ} {f : Fault}

theorem Enters.mem_bodies (h : Enters env target a s target' body s') : body ∈ a.bodies := by
  cases h with
  | @branch _ _ _ _ v => cases v.isTruthy <;> simp [bodies]
  | @chosen _ _ _ _ c _ hc => exact List.mem_map_of_mem (List.mem_of_getElem? hc)
  | visited => exact List.mem_singleton_self _

theorem Starts.expr_mem (h : Starts env target a s ev) : ev.expr ∈ a.exprs := by
  cases h with
  | operand h =>
    have := h.expr_mem
    cases a <;> simp_all [operands, exprs]
  | filter => simp [exprs, Scope.evaluation]

theorem visit_eq_error_iff {filter : Option Expr} {id : EntityId} :
    visit env filter body s id = .error f ↔
      s.world.population.contains id ∧
        ((∃ g, filter = some g ∧ (s.evaluation env (some id) g).Faults f) ∨
          ∃ s', Admits env id filter s s' ∧ runAll env (some id) body s' = .error f) := by
  by_cases hlive : s.world.population.contains id
  · rcases filter with _ | g
    · rw [visit_unfiltered hlive]
      constructor
      · exact fun h => ⟨hlive, .inr ⟨s, .unfiltered, h⟩⟩
      · rintro ⟨-, ⟨g, hg, -⟩ | ⟨s', hadmits, h⟩⟩
        · cases hg
        · cases hadmits
          exact h
    · rw [visit_filtered hlive, Outcome.bind_eq_error_iff]
      constructor
      · rintro (h | ⟨⟨v, s'⟩, hv, h⟩)
        · exact ⟨hlive, .inl ⟨g, rfl, Scope.eval_eq_error_iff.mp h⟩⟩
        · dsimp only at h
          split at h
          · exact ⟨hlive, .inr ⟨s', .filtered hv ‹_›, h⟩⟩
          · cases h
      · rintro ⟨-, ⟨g', hg, h⟩ | ⟨s', hadmits, h⟩⟩
        · obtain rfl := Option.some.inj hg
          exact .inl (Scope.eval_eq_error_iff.mpr h)
        · cases hadmits with
          | filtered heval hv => exact .inr ⟨_, heval, (if_pos hv).trans h⟩
  · rw [visit_gone hlive]
    simp [hlive]

/-- An evaluation that an action starts stops it at its fault. -/
theorem Starts.run_eq_error (h : Starts env target a s ev) (hf : ev.Faults f) :
    run env target a s = .error f := by
  cases h with
  | operand h =>
    cases a with
    | set | add | multiply | branch =>
      obtain rfl := Expr.inTurn_singleton.mp h
      rw [run, Scope.eval_eq_error_iff.mpr hf]
      rfl
    | emit | trigger | spawn =>
      rw [run, Scope.evalEntries_eq_error_iff.mpr ⟨ev, h, hf⟩]
      rfl
    | setProp | addProp =>
      rcases target with _ | id
      · exact (Expr.not_inTurn_nil h).elim
      · obtain rfl := Expr.inTurn_singleton.mp h
        rw [run, Scope.eval_eq_error_iff.mpr hf]
        rfl
    | random | message | forEach | despawn => exact (Expr.not_inTurn_nil h).elim
  | @filter _ g _ _ id s' h =>
    obtain ⟨before, after, hids, hbefore, hlive⟩ := h
    rw [run_forEach, Outcome.foldlM_eq_error_iff]
    exact ⟨before, id, after, s', hids, hbefore,
      visit_eq_error_iff.mpr ⟨hlive, .inl ⟨g, rfl, hf⟩⟩⟩

/-- A list that an action goes on with stops it at its fault. -/
theorem Enters.run_eq_error (h : Enters env target a s target' body s')
    (hf : runAll env target' body s' = .error f) : run env target a s = .error f := by
  cases h with
  | branch h =>
    rw [run_branch, h]
    exact hf
  | chosen h hc =>
    rw [run, h, Outcome.ok_bind]
    simp only [runChosen_eq, hc]
    exact hf
  | visited h hadmits =>
    obtain ⟨before, after, hids, hbefore, hlive⟩ := h
    rw [run_forEach, Outcome.foldlM_eq_error_iff]
    exact ⟨before, _, after, _, hids, hbefore,
      visit_eq_error_iff.mpr ⟨hlive, .inr ⟨_, hadmits, hf⟩⟩⟩

/-- The fault of an action is one of an evaluation that it starts, or of a list within that it goes
on with. -/
theorem run_error_iff :
    run env target a s = .error f ↔
      (∃ ev, Starts env target a s ev ∧ ev.Faults f) ∨
        ∃ target' body s', Enters env target a s target' body s' ∧
          runAll env target' body s' = .error f := by
  constructor
  · intro h
    cases a with
    | set | add | multiply =>
      rw [run, Outcome.bind_eq_error_iff] at h
      rcases h with h | ⟨_, _, h⟩
      · exact .inl ⟨_, .operand .head, Scope.eval_eq_error_iff.mp h⟩
      · cases h
    | branch =>
      rw [run_branch, Outcome.bind_eq_error_iff] at h
      rcases h with h | ⟨⟨v, s'⟩, hv, h⟩
      · exact .inl ⟨_, .operand .head, Scope.eval_eq_error_iff.mp h⟩
      · exact .inr ⟨_, _, _, .branch hv, h⟩
    | random choices =>
      rw [run, Outcome.bind_eq_error_iff] at h
      rcases h with h | ⟨⟨chosen, s₁⟩, hdraw, h⟩
      · exact (Weighted.draw_not_error (Scope.draw_eq_error_iff.mp h)).elim
      -- Without a positive weight nothing is chosen, and there is no list to go on with.
      · rcases chosen with _ | i
        · cases h
        · simp only [runChosen_eq] at h
          rcases hc : choices[i]? with _ | c
          · simp [hc] at h
          · rw [hc] at h
            exact .inr ⟨_, _, _, .chosen hdraw hc, h⟩
    | message => simp [run] at h
    | despawn =>
      rcases target with _ | id
      · simp [run] at h
      · rw [run] at h
        split at h <;> cases h
    | emit | trigger | spawn =>
      rw [run, Outcome.bind_eq_error_iff] at h
      rcases h with h | ⟨_, _, h⟩
      · obtain ⟨ev, hturn, hf⟩ := Scope.evalEntries_eq_error_iff.mp h
        exact .inl ⟨ev, .operand hturn, hf⟩
      · cases h
    | forEach kind filter body =>
      rw [run_forEach, Outcome.foldlM_eq_error_iff] at h
      obtain ⟨before, id, after, s', hids, hbefore, h⟩ := h
      obtain ⟨hlive, ⟨g, rfl, hf⟩ | ⟨s'', hadmits, h⟩⟩ := visit_eq_error_iff.mp h
      · exact .inl ⟨_, .filter ⟨before, after, hids, hbefore, hlive⟩, hf⟩
      · exact .inr ⟨_, _, _, .visited ⟨before, after, hids, hbefore, hlive⟩ hadmits, h⟩
    | setProp | addProp =>
      rcases target with _ | id
      · simp [run] at h
      · rw [run, Outcome.bind_eq_error_iff] at h
        rcases h with h | ⟨_, _, h⟩
        · exact .inl ⟨_, .operand .head, Scope.eval_eq_error_iff.mp h⟩
        · cases h
  · rintro (⟨ev, h, hf⟩ | ⟨target', body, s', h, hf⟩)
    · exact h.run_eq_error hf
    · exact h.run_eq_error hf

/-- A list of actions faults exactly when it comes to an evaluation that does. -/
theorem runAll_error_iff :
    runAll env target as s = .error f ↔ ∃ ev, Evaluates env target as s ev ∧ ev.Faults f := by
  constructor
  · intro h
    -- The induction has a hypothesis for every list within the first action, and one for the rest.
    induction as using list_induction generalizing target s with
    | nil => simp [runAll] at h
    | cons a as ihbodies ih =>
      rw [runAll, Outcome.bind_eq_error_iff] at h
      rcases h with h | ⟨s', hs, h⟩
      · rcases run_error_iff.mp h with ⟨ev, hstarts, hf⟩ | ⟨target', body, s', henters, h⟩
        · exact ⟨ev, .starts hstarts, hf⟩
        · obtain ⟨ev, hbody, hf⟩ := ihbodies body henters.mem_bodies h
          exact ⟨ev, .within henters hbody, hf⟩
      · obtain ⟨ev, hlater, hf⟩ := ih h
        exact ⟨ev, .later hs hlater, hf⟩
  · rintro ⟨ev, h, hf⟩
    induction h with
    | starts h =>
      rw [runAll, h.run_eq_error hf]
      rfl
    | within h _ ih =>
      rw [runAll, h.run_eq_error (ih hf)]
      rfl
    | later h _ ih =>
      rw [runAll, h]
      exact ih hf

end Action

end IdleGame
