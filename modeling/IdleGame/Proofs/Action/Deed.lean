import IdleGame.Proofs.Action.Evaluation
import IdleGame.Proofs.Entity.Birth

/-!
# What is done when actions run

Actions that only choose which others run do nothing themselves. What a run does is done by the
plain actions that it comes to, one after the other, and each sees the scope that those before it
have left.

## Main definitions

* `Action.isPlain` - whether an action has no lists of actions within
* `Deed` - a plain action that is carried out, and the scope that it finds
* `Deed.emitted`, `Deed.queued`, `Deed.births`, `Deed.logged` - the events, triggers, entities and
  messages that come of it
* `Action.deeds`, `Action.deedsOfAll` - what is done when an action or a list runs
* `Scope.Leads` - deeds, one after the other, lead from one scope to another

## Main results

* `Action.deedsOfAll_leads` - a list of actions leads where its deeds do
* `Action.run_brings` - what comes of an action that runs
* `Scope.Leads.brings` - what comes of deeds, in their order
-/

namespace IdleGame

variable {ρ : Type} [RandomSource ρ]

/-- Whether an action has no lists of actions within. -/
def Action.isPlain : Action → Bool
  | .branch .. | .random _ | .forEach .. => false
  | _ => true

/-- A plain action that is carried out: its surroundings and its target, and the scope that it
finds. -/
structure Deed (ρ : Type) where
  env : Surroundings
  target : Option EntityId
  action : Action
  scope : Scope ρ

namespace Deed

/-- What comes of carrying the action out. -/
def outcome (d : Deed ρ) : Except Fault (Scope ρ) := d.action.run d.env d.target d.scope

/-- The event that is emitted, with its data as they are by then. -/
def emitted (d : Deed ρ) : List GameEvent :=
  match d.action with
  | .emit event data =>
    Outcome.listed (d.scope.evalEntries d.env d.target data) fun (vs, _) => [⟨event, vs⟩]
  | _ => []

/-- The trigger that is queued, with its parameters as they are by then. -/
def queued (d : Deed ρ) : List (String × Values) :=
  match d.action with
  | .trigger event params =>
    Outcome.listed (d.scope.evalEntries d.env d.target params) fun (vs, _) => [(event, vs)]
  | _ => []

/-- The entity that is created. -/
def births (d : Deed ρ) : List Birth :=
  match d.action with
  | .spawn kind properties =>
    Outcome.listed (d.scope.evalEntries d.env d.target properties) fun (vs, s) =>
      [s.world.population.birth kind vs]
  | _ => []

/-- The message that is written, filled from the variables and with the tick as they are by then. -/
def logged (d : Deed ρ) : List Message :=
  match d.action with
  | .message template kind =>
    [⟨Template.fill d.scope.world.state template, kind, d.scope.world.clock.tick⟩]
  | _ => []

variable {env : Surroundings} {target : Option EntityId} {es : List (String × Expr)} {vs : Values}
  {s s' : Scope ρ}

theorem emitted_emit {event : String} (h : s.evalEntries env target es = .ok (vs, s')) :
    emitted ⟨env, target, .emit event es, s⟩ = [⟨event, vs⟩] := by
  simp [emitted, h]

theorem queued_trigger {event : String} (h : s.evalEntries env target es = .ok (vs, s')) :
    queued ⟨env, target, .trigger event es, s⟩ = [(event, vs)] := by
  simp [queued, h]

theorem births_spawn {kind : String} (h : s.evalEntries env target es = .ok (vs, s')) :
    births ⟨env, target, .spawn kind es, s⟩ = [s'.world.population.birth kind vs] := by
  simp [births, h]

end Deed

namespace Action

mutual

/-- What is done when an action runs. -/
def deeds (env : Surroundings) (target : Option EntityId) : Action → Scope ρ → List (Deed ρ)
  | .branch condition yes no, s =>
    Outcome.listed (s.eval env target condition) fun (v, s) =>
      if v.isTruthy then deedsOfAll env target yes s else deedsOfAll env target no s
  | .random choices, s =>
    Outcome.listed (s.draw (Weighted.draw (choices.map Choice.weight))) fun
      | (some i, s) => deedsOfChosen env target choices i s
      | (none, _) => []
  | .forEach kind filter body, s =>
    Outcome.listedRounds (visit env filter body)
      (fun s id =>
        if s.world.population.contains id then
          match filter with
          | some f =>
            Outcome.listed (s.eval env (some id) f) fun (v, s) =>
              if v.isTruthy then deedsOfAll env (some id) body s else []
          | none => deedsOfAll env (some id) body s
        else [])
      (s.world.population.idsOfKind kind) s
  | a, s => [⟨env, target, a, s⟩]

/-- What is done when the actions of a list run in order. -/
def deedsOfAll (env : Surroundings) (target : Option EntityId) : List Action → Scope ρ →
    List (Deed ρ)
  | [], _ => []
  | a :: as, s =>
    deeds env target a s ++ Outcome.listed (run env target a s) (deedsOfAll env target as)

/-- What is done when the actions of the choice at an index run. -/
def deedsOfChosen (env : Surroundings) (target : Option EntityId) : List Choice → Nat → Scope ρ →
    List (Deed ρ)
  | [], _, _ => []
  | .mk _ as :: _, 0, s => deedsOfAll env target as s
  | .mk _ _ :: cs, i + 1, s => deedsOfChosen env target cs i s

end

end Action

namespace Scope

/-- Nothing is done between two scopes, though numbers may be drawn and costs paid. -/
structure Idle (s s' : Scope ρ) : Prop where
  effects : s'.effects = s.effects
  population : s'.world.population = s.world.population
  log : s'.world.log = s.world.log

/-- Deeds, one after the other, lead from one scope to another. Nothing is done in between. -/
inductive Leads : Scope ρ → List (Deed ρ) → Scope ρ → Prop
  | refl {s} : Leads s [] s
  | idle {s s' s'' ds} (h : s.Idle s') (hlater : Leads s' ds s'') : Leads s ds s''
  | deed {d s' s'' ds} (hplain : d.action.isPlain) (hrun : d.outcome = .ok s')
      (hlater : Leads s' ds s'') : Leads d.scope (d :: ds) s''

/-- Between two scopes events are emitted, triggers are queued, entities are born and messages are
written. -/
structure Brings (s : Scope ρ) (events : List GameEvent) (triggers : List (String × Values))
    (births : List Birth) (messages : List Message) (s' : Scope ρ) : Prop where
  events : s'.effects.events = s.effects.events ++ events
  triggers : s'.effects.triggers = s.effects.triggers ++ triggers
  spawned : s'.effects.spawned = s.effects.spawned ++ births.map Birth.id
  grows : s.world.population.Grows births s'.world.population
  log : s'.world.log = messages.foldl MessageLog.push s.world.log

variable {s s' s'' : Scope ρ} {ds ds' : List (Deed ρ)} {env : Surroundings}
  {target : Option EntityId}

omit [RandomSource ρ] in
theorem Idle.refl (s : Scope ρ) : s.Idle s := ⟨rfl, rfl, rfl⟩

omit [RandomSource ρ] in
theorem Idle.trans (h : s.Idle s') (h' : s'.Idle s'') : s.Idle s'' :=
  ⟨h'.effects.trans h.effects, h'.population.trans h.population, h'.log.trans h.log⟩

theorem Leads.append (h : s.Leads ds s') (h' : s'.Leads ds' s'') : s.Leads (ds ++ ds') s'' := by
  induction h with
  | refl => exact h'
  | idle h _ ih => exact .idle h (ih h')
  | deed hplain hrun _ ih => exact .deed hplain hrun (ih h')

theorem Leads.of_idle (h : s.Idle s') : s.Leads [] s' := .idle h .refl

omit [RandomSource ρ] in
theorem draw_idle {α : Type} {x : Draws ρ α} {a : α} (h : s.draw x = .ok (a, s')) :
    s.Idle s' := by
  obtain ⟨⟨a', w⟩, hw, h⟩ := Outcome.bind_eq_ok_iff.mp h
  obtain ⟨-, rfl⟩ := Prod.mk.inj (Except.ok.inj h)
  obtain ⟨r, -, rfl⟩ := World.draw_eq_ok_iff.mp hw
  exact ⟨rfl, rfl, rfl⟩

theorem eval_idle {e : Expr} {v : Value} (h : s.eval env target e = .ok (v, s')) : s.Idle s' :=
  draw_idle h

theorem evalEntries_idle {es : List (String × Expr)} {vs : Values}
    (h : s.evalEntries env target es = .ok (vs, s')) : s.Idle s' := by
  obtain ⟨⟨vs', s₁⟩, hs, h⟩ := Outcome.bind_eq_ok_iff.mp h
  obtain ⟨-, rfl⟩ := Prod.mk.inj (Except.ok.inj h)
  exact draw_idle hs

namespace Brings

variable {events events' : List GameEvent} {triggers triggers' : List (String × Values)}
  {births births' : List Birth} {messages messages' : List Message}

omit [RandomSource ρ] in
/-- While the effects and the log stay the same nothing is brought about if nobody is born. -/
theorem of_grows (heffects : s'.effects = s.effects)
    (hgrows : s.world.population.Grows [] s'.world.population)
    (hlog : s'.world.log = s.world.log) : s.Brings [] [] [] [] s' where
  events := by rw [heffects, List.append_nil]
  triggers := by rw [heffects, List.append_nil]
  spawned := by rw [heffects, List.map_nil, List.append_nil]
  grows := hgrows
  log := hlog

omit [RandomSource ρ] in
theorem of_idle (h : s.Idle s') : s.Brings [] [] [] [] s' :=
  of_grows h.effects (h.population ▸ .refl) h.log

omit [RandomSource ρ] in
theorem append (h : s.Brings events triggers births messages s')
    (h' : s'.Brings events' triggers' births' messages' s'') :
    s.Brings (events ++ events') (triggers ++ triggers') (births ++ births')
      (messages ++ messages') s'' where
  events := by rw [h'.events, h.events, List.append_assoc]
  triggers := by rw [h'.triggers, h.triggers, List.append_assoc]
  spawned := by rw [h'.spawned, h.spawned, List.map_append, List.append_assoc]
  grows := h.grows.append h'.grows
  log := by rw [h'.log, h.log, List.foldl_append]

end Brings

end Scope

namespace Action

variable {env : Surroundings} {target : Option EntityId} {a : Action} {as body : List Action}
  {s s' : Scope ρ}

/-- A plain action that runs brings about what comes of it, and nothing else. -/
theorem run_brings (hplain : a.isPlain) (h : run env target a s = .ok s') :
    s.Brings (Deed.emitted ⟨env, target, a, s⟩) (Deed.queued ⟨env, target, a, s⟩)
      (Deed.births ⟨env, target, a, s⟩) (Deed.logged ⟨env, target, a, s⟩) s' := by
  cases a with
  | branch | random | forEach => cases hplain
  | set id e | add id e | multiply id e =>
    rw [run] at h
    obtain ⟨⟨v, s₁⟩, hv, h⟩ := Outcome.bind_eq_ok_iff.mp h
    obtain rfl := Except.ok.inj h
    have hidle := Scope.eval_idle hv
    exact .of_idle ⟨hidle.effects, hidle.population, hidle.log⟩
  | message template kind =>
    rw [run] at h
    obtain rfl := Except.ok.inj h
    obtain ⟨hevents, htriggers, hspawned, hgrows, -⟩ := Scope.Brings.of_idle (Scope.Idle.refl s)
    exact ⟨hevents, htriggers, hspawned, hgrows, rfl⟩
  | emit event data =>
    rw [run] at h
    obtain ⟨⟨vs, s₁⟩, hvs, h⟩ := Outcome.bind_eq_ok_iff.mp h
    obtain rfl := Except.ok.inj h
    have hidle := Scope.evalEntries_idle hvs
    rw [Deed.emitted_emit hvs]
    exact (Scope.Brings.of_idle hidle).append ⟨rfl, rfl, rfl, .refl, rfl⟩
  | trigger event params =>
    rw [run] at h
    obtain ⟨⟨vs, s₁⟩, hvs, h⟩ := Outcome.bind_eq_ok_iff.mp h
    obtain rfl := Except.ok.inj h
    have hidle := Scope.evalEntries_idle hvs
    rw [Deed.queued_trigger hvs]
    exact (Scope.Brings.of_idle hidle).append ⟨rfl, rfl, rfl, .refl, rfl⟩
  | spawn kind properties =>
    rw [run] at h
    obtain ⟨⟨vs, s₁⟩, hvs, h⟩ := Outcome.bind_eq_ok_iff.mp h
    obtain rfl := Except.ok.inj h
    have hidle := Scope.evalEntries_idle hvs
    rw [Deed.births_spawn hvs]
    exact (Scope.Brings.of_idle hidle).append ⟨rfl, rfl, rfl, .of_birth kind vs, rfl⟩
  | setProp property e | addProp property e =>
    rcases target with _ | id
    · rw [run] at h
      obtain rfl := Except.ok.inj h
      exact .of_idle (.refl s)
    · rw [run] at h
      obtain ⟨⟨v, s₁⟩, hv, h⟩ := Outcome.bind_eq_ok_iff.mp h
      obtain rfl := Except.ok.inj h
      have hidle := Scope.eval_idle hv
      exact (Scope.Brings.of_idle hidle).append (.of_grows rfl (.of_modify fun _ => rfl) rfl)
  | despawn =>
    rcases target with _ | id
    · rw [run] at h
      obtain rfl := Except.ok.inj h
      exact .of_idle (.refl s)
    · have hremoved : s.world.population.Grows [] (s.world.population.remove id).2 := .of_remove
      rw [run] at h
      -- A target that has gone already is not removed again.
      rcases hremove : s.world.population.remove id with ⟨_ | e, population⟩
      · simp only [hremove] at h
        obtain rfl := Except.ok.inj h
        exact .of_idle (.refl s)
      · simp only [hremove] at h hremoved
        obtain rfl := Except.ok.inj h
        exact ⟨rfl, rfl, rfl, hremoved, rfl⟩

/-! ## Runs -/

theorem deeds_plain (h : a.isPlain) : deeds env target a s = [⟨env, target, a, s⟩] := by
  cases a with
  | branch | random | forEach => cases h
  | _ => rfl

theorem deeds_branch {condition : Expr} {yes no : List Action} :
    deeds env target (.branch condition yes no) s =
      Outcome.listed (s.eval env target condition) fun (v, s') =>
        deedsOfAll env target (if v.isTruthy then yes else no) s' := by
  rw [deeds]
  rcases s.eval env target condition with f | ⟨v, s'⟩
  · rfl
  · dsimp only [Outcome.listed_ok]
    split <;> rfl

theorem deedsOfChosen_eq (choices : List Choice) (i : Nat) :
    deedsOfChosen env target choices i s =
      match choices[i]? with
      | some c => deedsOfAll env target c.actions s
      | none => [] := by
  induction choices generalizing i with
  | nil => rfl
  | cons c cs ih =>
    obtain ⟨w, as⟩ := c
    cases i with
    | zero => rfl
    | succ i => exact ih i

/-- What is done in one round of a loop. -/
def visitDeeds (env : Surroundings) (filter : Option Expr) (body : List Action) (s : Scope ρ)
    (id : EntityId) : List (Deed ρ) :=
  if s.world.population.contains id then
    match filter with
    | some f =>
      Outcome.listed (s.eval env (some id) f) fun (v, s) =>
        if v.isTruthy then deedsOfAll env (some id) body s else []
    | none => deedsOfAll env (some id) body s
  else []

theorem deeds_forEach {kind : String} {filter : Option Expr} :
    deeds env target (.forEach kind filter body) s =
      Outcome.listedRounds (visit env filter body) (visitDeeds env filter body)
        (s.world.population.idsOfKind kind) s := by
  rw [deeds]
  refine congrArg (fun g => Outcome.listedRounds _ g _ s) (funext₂ fun s id => ?_)
  rcases filter with _ | f <;> rfl

theorem visitDeeds_leads {filter : Option Expr} {id : EntityId}
    (hbody : ∀ s s' : Scope ρ, runAll env (some id) body s = .ok s' →
      s.Leads (deedsOfAll env (some id) body s) s')
    (h : visit env filter body s id = .ok s') :
    s.Leads (visitDeeds env filter body s id) s' := by
  unfold visitDeeds
  by_cases hlive : s.world.population.contains id
  · rw [if_pos hlive]
    rcases filter with _ | g
    · rw [visit_unfiltered hlive] at h
      exact hbody s s' h
    · rw [visit_filtered hlive] at h
      obtain ⟨⟨v, s₁⟩, hv, h⟩ := Outcome.bind_eq_ok_iff.mp h
      have hidle := Scope.eval_idle hv
      dsimp only at h ⊢
      rw [hv, Outcome.listed_ok]
      by_cases hpasses : v.isTruthy
      · rw [if_pos hpasses] at h ⊢
        exact .idle hidle (hbody s₁ s' h)
      · rw [if_neg hpasses] at h ⊢
        obtain rfl := Except.ok.inj h
        exact .of_idle hidle
  · rw [visit_gone hlive] at h
    obtain rfl := Except.ok.inj h
    rw [if_neg hlive]
    exact .refl

/-- An action leads where its deeds do, if the lists within it do. -/
theorem deeds_leads_of_bodies
    (hbodies : ∀ body ∈ a.bodies, ∀ target (s s' : Scope ρ), runAll env target body s = .ok s' →
      s.Leads (deedsOfAll env target body s) s')
    (h : run env target a s = .ok s') : s.Leads (deeds env target a s) s' := by
  -- A plain action is its own deed. The others only find out which list runs next.
  by_cases hplain : a.isPlain
  · rw [deeds_plain hplain]
    exact .deed (d := ⟨env, target, a, s⟩) hplain h .refl
  · cases a with
    | branch condition yes no =>
      rw [run_branch] at h
      obtain ⟨⟨v, s₁⟩, hv, h⟩ := Outcome.bind_eq_ok_iff.mp h
      rw [deeds_branch, hv, Outcome.listed_ok]
      refine .idle (Scope.eval_idle hv) (hbodies _ ?_ _ _ _ h)
      cases v.isTruthy <;> simp [bodies]
    | random choices =>
      rw [run] at h
      obtain ⟨⟨chosen, s₁⟩, hdraw, h⟩ := Outcome.bind_eq_ok_iff.mp h
      have hidle := Scope.draw_idle hdraw
      rw [deeds, hdraw, Outcome.listed_ok]
      rcases chosen with _ | i
      · obtain rfl := Except.ok.inj h
        exact .of_idle hidle
      · dsimp only at h ⊢
        rw [runChosen_eq] at h
        rw [deedsOfChosen_eq]
        rcases hc : choices[i]? with _ | c
        · rw [hc] at h
          obtain rfl := Except.ok.inj h
          exact .of_idle hidle
        · rw [hc] at h
          have hbody : c.actions ∈ (random choices).bodies :=
            List.mem_map_of_mem (List.mem_of_getElem? hc)
          exact .idle hidle (hbodies _ hbody _ _ _ h)
    | forEach kind filter body =>
      rw [run_forEach] at h
      rw [deeds_forEach]
      refine Outcome.listedRounds_leads (R := Scope.Leads) (fun _ => .refl)
        (fun _ _ _ _ _ h h' => h.append h') (fun s id s' h => ?_) h
      exact visitDeeds_leads (hbodies body (List.mem_singleton_self _) (some id)) h
    | _ => exact (hplain rfl).elim

/-- A list of actions leads where its deeds do. -/
theorem deedsOfAll_leads (h : runAll env target as s = .ok s') :
    s.Leads (deedsOfAll env target as s) s' := by
  induction as using list_induction generalizing target s s' with
  | nil =>
    obtain rfl := Except.ok.inj h
    exact .refl
  | cons a as ihbodies ih =>
    rw [runAll] at h
    obtain ⟨s₁, hs, h⟩ := Outcome.bind_eq_ok_iff.mp h
    rw [deedsOfAll, hs, Outcome.listed_ok]
    -- The induction is on the nesting: it covers the lists within the first action and the rest.
    exact (deeds_leads_of_bodies (fun body hbody _ _ _ => ihbodies body hbody) hs).append (ih h)

end Action

/-- Deeds bring about what comes of each of them, in their order. -/
theorem Scope.Leads.brings {s s' : Scope ρ} {ds : List (Deed ρ)} (h : s.Leads ds s') :
    s.Brings (ds.flatMap Deed.emitted) (ds.flatMap Deed.queued) (ds.flatMap Deed.births)
      (ds.flatMap Deed.logged) s' := by
  induction h with
  | refl => exact .of_idle (.refl _)
  | idle h _ ih => exact (Brings.of_idle h).append ih
  | deed hplain hrun _ ih =>
    simp only [List.flatMap_cons]
    exact (Action.run_brings hplain hrun).append ih

end IdleGame
