import IdleGame.Proofs.Action.Alike
import IdleGame.Proofs.Session.Evaluation

/-!
# Sessions that go on alike

Two sessions of the same game may differ in their stores, in the time of the last automatic save,
and in old messages and events. Nothing that is played or asked tells them apart.

## Main definitions

* `Session.Alike` - sessions that are told apart by nothing that is played or asked

## Main results

* `Session.play_agree`, `Session.answer_eq` - calls agree on sessions that are alike
* `Session.applyAll_agree` - so do calls one after the other
-/

namespace IdleGame

open Outcome

variable {ρ : Type} {old : List Message}

namespace Pass

/-- The state of a pass in scopes that are alike. -/
structure Progress.Alike (old : List Message) (p q : Progress ρ) : Prop where
  records : p.records = q.records
  scope : p.scope.Alike old q.scope
  fired : p.fired = q.fired

variable [RandomSource ρ] {pass : Pass} {env : Surroundings} {r : Rule} {rules : List Rule}
  {p q : Progress ρ}

theorem consider_agree (h : p.Alike old q) :
    Agree (Progress.Alike old) (pass.consider env r p) (pass.consider env r q) := by
  by_cases hp : pass.Considers r p
  · have hq : pass.Considers r q := by
      unfold Considers
      rw [← h.records]
      exact hp
    rw [consider_considered hp, consider_considered hq]
    refine (h.scope.eval env none r.condition).bind ?_
    rintro ⟨v, s⟩ ⟨_, t⟩ ⟨rfl, hs⟩
    dsimp only
    split
    · refine (Action.runAll_agree hs).bind fun s' t' hs' => .ok ⟨?_, hs', ?_⟩
      · rw [h.records]
      · rw [h.fired]
    · exact .ok ⟨h.records, hs, h.fired⟩
  · have hq : ¬ pass.Considers r q := by
      unfold Considers
      rw [← h.records]
      exact hp
    rw [consider_skipped hp, consider_skipped hq]
    exact .ok h

/-- A pass agrees in scopes that are alike. -/
theorem run_agree (h : p.Alike old q) :
    Agree (Progress.Alike old) (pass.run env rules p) (pass.run env rules q) :=
  Agree.foldlM h fun _ _ _ => consider_agree

end Pass

namespace Phase

/-- The result of an update in scopes that are alike. -/
structure Update.Alike (old : List Message) (u v : Update ρ) : Prop where
  current : u.current = v.current
  entered : u.entered = v.entered
  scope : u.scope.Alike old v.scope

variable [RandomSource ρ] {env : Surroundings} {phases : List Phase} {current : Option String}
  {s t : Scope ρ}

theorem firstHolding_agree (h : s.Alike old t) :
    Agree (SameWith (Scope.Alike old)) (firstHolding env phases s) (firstHolding env phases t) := by
  induction phases generalizing s t with
  | nil => exact .ok ⟨rfl, h⟩
  | cons p ps ih =>
    rw [firstHolding, firstHolding]
    refine (h.eval env none p.trigger).bind ?_
    rintro ⟨v, s'⟩ ⟨_, t'⟩ ⟨rfl, hs⟩
    dsimp only
    split
    · exact .ok ⟨rfl, hs⟩
    · exact ih hs

/-- An update of the phase agrees in scopes that are alike. -/
theorem update_agree (h : s.Alike old t) :
    Agree (Update.Alike old) (update env phases current s) (update env phases current t) := by
  rw [update_eq, update_eq]
  refine (firstHolding_agree h).bind ?_
  rintro ⟨candidate, s'⟩ ⟨_, t'⟩ ⟨rfl, hs⟩
  dsimp only
  split
  · exact (Action.runAll_agree hs).bind fun _ _ hs' => .ok ⟨rfl, rfl, hs'⟩
  · exact .ok ⟨rfl, rfl, hs⟩

end Phase

namespace Project

variable {p : Project} {env : Surroundings} {params : Values} {uses : Uses} {w w' : World ρ}
  {s t : Scope ρ}

theorem covers_eq (h : w.Alike old w') (totals : Table Float) :
    covers w totals = covers w' totals := by
  unfold covers
  rw [funext h.number]

theorem pay_alike (h : w.Alike old w') (totals : Table Float) :
    (pay w totals).Alike old (pay w' totals) := by
  unfold pay
  generalize totals.entries = es
  induction es generalizing w w' with
  | nil => exact h
  | cons e es ih =>
    refine ih ?_
    dsimp only
    rw [h.number]
    exact h.write _ _

variable [RandomSource ρ]

theorem canAfford_eq (h : w.Alike old w') :
    (p.canAfford w : Draws ρ Bool) = p.canAfford w' := by
  unfold canAfford
  rw [h.view_eq, funext (covers_eq h)]

theorem price?_eq (h : w.Alike old w') :
    (p.price? params uses w : Draws ρ (Option (Table Float))) = p.price? params uses w' := by
  unfold price?
  rw [h.view_eq, funext (covers_eq h)]

/-- A purchase agrees in scopes that are alike. -/
theorem purchase_agree (h : s.Alike old t) :
    Agree (Option.Rel (SameWith (Scope.Alike old))) (p.purchase env uses s)
      (p.purchase env uses t) := by
  unfold purchase
  rw [price?_eq h.world]
  refine (h.world.draw _).bind ?_
  rintro ⟨_ | totals, w⟩ ⟨_, w'⟩ ⟨rfl, hw⟩
  · exact .ok .none
  · have hpaid : Scope.Alike old { s with world := pay w totals }
        { t with world := pay w' totals } :=
      ⟨pay_alike hw totals, h.effects⟩
    exact (Action.runAll_agree hpaid).bind fun _ _ hs => .ok (.some ⟨rfl, hs⟩)

end Project

namespace Session

variable {σ τ : Type}

/-- Sessions that differ only in their stores, the time of the last automatic save, and old
messages and events. -/
structure Alike (old : List Message) (oldEvents : List GameEvent) (s : Session ρ σ)
    (t : Session ρ τ) : Prop where
  game : s.game = t.game
  world : s.world.Alike old t.world
  records : s.records = t.records
  phase : s.phase = t.phase
  uses : s.uses = t.uses
  running : s.running = t.running
  events : LaterThan oldEvents t.events s.events

variable {oldEvents : List GameEvent} {s : Session ρ σ} {t : Session ρ τ}

theorem Alike.withWorld (h : s.Alike old oldEvents t) {w w' : World ρ} (hw : w.Alike old w') :
    Alike old oldEvents { s with world := w } { t with world := w' } :=
  { h with world := hw }

theorem Alike.afterRun (h : s.Alike old oldEvents t) {a b : Scope ρ} (hab : a.Alike old b) :
    (s.afterRun a).Alike old oldEvents (t.afterRun b) where
  game := h.game
  world := hab.world
  records := h.records
  phase := h.phase
  uses := h.uses
  running := h.running
  events := by
    unfold Session.afterRun
    rw [hab.effects]
    exact h.events.append _

theorem Alike.afterDelivery (h : s.Alike old oldEvents t) {p q : Pass.Progress ρ}
    (hpq : p.Alike old q) : (s.afterDelivery p).Alike old oldEvents (t.afterDelivery q) :=
  { h.afterRun hpq.scope with records := hpq.records }

theorem Alike.scope (h : s.Alike old oldEvents t) : s.scope.Alike old t.scope := ⟨h.world, rfl⟩

theorem Alike.surroundings (h : s.Alike old oldEvents t) (params : Values) :
    s.surroundings params = t.surroundings params := by
  unfold Session.surroundings
  rw [h.game]

theorem Alike.ahead (h : s.Alike old oldEvents t) : s.ahead.Alike old t.ahead :=
  ⟨h.records, h.scope, rfl⟩

theorem Alike.advanceClock (h : s.Alike old oldEvents t) :
    s.advanceClock.Alike old oldEvents t.advanceClock := by
  have hclock : s.world.clock.advance s.game.config.ticksPerSecond =
      t.world.clock.advance t.game.config.ticksPerSecond := by
    rw [h.world.clock, h.game]
  exact h.withWorld ⟨h.world.state, h.world.population, h.world.log, hclock, h.world.random⟩

/-- Automatic saves touch nothing that is compared. -/
theorem Alike.autosave [RandomSource ρ] [SaveStore σ] [SaveStore τ] (h : s.Alike old oldEvents t) :
    s.autosave.Alike old oldEvents t.autosave := by
  unfold Session.autosave
  split <;> split <;>
    exact ⟨h.game, h.world, h.records, h.phase, h.uses, h.running, h.events⟩

/-- Sessions that are alike have equal snapshots. -/
theorem Alike.snapshot_eq [RandomSource ρ] (h : s.Alike old oldEvents t) :
    s.snapshot = t.snapshot := by
  unfold Session.snapshot
  rw [h.game, h.world.state, h.world.population.members, h.world.population.next, h.phase,
    h.records, h.uses, h.world.clock, h.world.random]

variable [RandomSource ρ]

theorem deliver_agree (h : s.Alike old oldEvents t) (event : String) (params : Values) :
    Agree (Pass.Progress.Alike old) (s.deliver event params) (t.deliver event params) := by
  unfold deliver
  rw [h.surroundings, h.game, h.world.clock]
  exact Pass.run_agree h.ahead

/-- Handling triggers agrees on sessions that are alike. -/
theorem handleTriggers_agree {limit : Nat} {queue : List (String × Values)}
    (h : s.Alike old oldEvents t) :
    Agree (SameWith (Alike old oldEvents)) (handleTriggers limit queue s)
      (handleTriggers limit queue t) := by
  induction limit generalizing queue s t with
  | zero => exact .ok ⟨rfl, h⟩
  | succ limit ih =>
    rcases queue with _ | ⟨⟨event, params⟩, queue⟩
    · exact .ok ⟨rfl, h⟩
    · rw [handleTriggers_cons, handleTriggers_cons]
      refine (deliver_agree h event params).bind fun p q hpq => ?_
      rw [hpq.scope.effects, hpq.fired]
      refine (ih (h.afterDelivery hpq)).bind ?_
      rintro ⟨fired, s'⟩ ⟨_, t'⟩ ⟨rfl, hs⟩
      exact .ok ⟨rfl, hs⟩

theorem settle_agree (h : s.Alike old oldEvents t) {a b : Scope ρ} (hab : a.Alike old b) :
    Agree (SameWith (Alike old oldEvents)) (s.settle a) (t.settle b) := by
  unfold settle
  rw [hab.effects]
  exact handleTriggers_agree (h.afterRun hab)

theorem firePasses_agree (h : s.Alike old oldEvents t) :
    Agree (Pass.Progress.Alike old) s.firePasses t.firePasses := by
  unfold firePasses closing?
  rw [h.surroundings, h.game, h.world.clock]
  refine (Pass.run_agree h.ahead).bind fun p q hpq => ?_
  split
  · exact Pass.run_agree hpq
  · exact .ok hpq

theorem runPasses_agree (h : s.Alike old oldEvents t) :
    Agree (fun a b => a.1.Alike old b.1 ∧ a.2.Alike old b.2) s.runPasses t.runPasses := by
  rw [runPasses_eq, runPasses_eq, h.surroundings, h.game, h.phase]
  refine (firePasses_agree h).bind fun p q hpq => ?_
  exact (Phase.update_agree hpq.scope).bind fun u v huv => .ok ⟨hpq, huv⟩

variable [SaveStore σ] [SaveStore τ]

/-- A tick agrees on sessions that are alike, whether it saves in one of them or not. -/
theorem step_agree (h : s.Alike old oldEvents t) :
    Agree (SameWith (Alike old oldEvents)) s.step t.step := by
  have hclosing : s.closing? = t.closing? := by
    unfold closing?
    rw [h.world.clock, h.game]
  rw [step_eq, step_eq, hclosing, h.world.clock]
  refine (runPasses_agree h).bind ?_
  rintro ⟨p, u⟩ ⟨q, v⟩ ⟨hpq, huv⟩
  have hafter : (s.afterPasses p u).Alike old oldEvents (t.afterPasses q v) :=
    { h with records := hpq.records, phase := huv.current }
  refine (settle_agree hafter huv.scope).bind ?_
  rintro ⟨fired, s'⟩ ⟨_, t'⟩ ⟨rfl, hs⟩
  refine .ok ⟨?_, ?_⟩
  · dsimp only
    rw [hpq.fired, huv.entered]
  -- The saves at the end of a second may differ; they are not compared.
  · dsimp only
    split
    · exact hs.advanceClock.autosave
    · exact hs.advanceClock

theorem steps_agree {n : Nat} (h : s.Alike old oldEvents t) :
    Agree (Alike old oldEvents) (steps n s) (steps n t) := by
  induction n generalizing s t with
  | zero => exact .ok h
  | succ n ih =>
    rw [steps, steps]
    exact (step_agree h).bind fun _ _ hstep => ih hstep.2

theorem tick_agree (h : s.Alike old oldEvents t) :
    Agree (SameWith (Alike old oldEvents)) s.tick t.tick := by
  unfold tick
  rw [h.running]
  split
  · exact (step_agree h).bind fun _ _ hstep => .ok ⟨congrArg some hstep.1, hstep.2⟩
  · exact .ok ⟨rfl, h⟩

theorem catchUp_agree {n : Nat} (h : s.Alike old oldEvents t) :
    Agree (SameWith (Alike old oldEvents)) (s.catchUp n) (t.catchUp n) := by
  unfold catchUp
  rw [h.running]
  split
  · exact (steps_agree h).bind fun _ _ hsteps => .ok ⟨rfl, hsteps⟩
  · exact .ok ⟨rfl, h⟩

omit [SaveStore σ] [SaveStore τ] in
theorem perform_agree (h : s.Alike old oldEvents t) (name : String) (params : Values) :
    Agree (SameWith (Alike old oldEvents)) (s.perform name params) (t.perform name params) := by
  unfold perform
  rw [h.game, h.surroundings]
  rcases t.game.function? name with _ | actions
  · exact .ok ⟨rfl, h⟩
  · refine (Action.runAll_agree h.scope).bind fun a b hab => ?_
    exact (settle_agree h hab).bind fun _ _ hs => .ok ⟨rfl, hs.2⟩

omit [SaveStore σ] [SaveStore τ] in
theorem purchase_agree (h : s.Alike old oldEvents t) (id : String) :
    Agree (SameWith (Alike old oldEvents)) (s.purchase id) (t.purchase id) := by
  have hproject : s.game.project? id = t.game.project? id := by rw [h.game]
  unfold purchase
  rw [hproject, h.surroundings, h.uses]
  rcases t.game.project? id with _ | p
  · exact .ok ⟨rfl, h⟩
  · refine (Project.purchase_agree h.scope).bind fun a b hab => ?_
    cases hab with
    | none => exact .ok ⟨rfl, h⟩
    | @some a b hab =>
      have hbought : Alike old oldEvents { s with uses := a.1 } { t with uses := b.1 } :=
        { h with uses := hab.1 }
      exact (settle_agree hbought hab.2).bind fun _ _ hs => .ok ⟨rfl, hs.2⟩

/-- A call that plays the game agrees on sessions that are alike. -/
theorem play_agree (h : s.Alike old oldEvents t) (move : Move) :
    Agree (SameWith (Alike old oldEvents)) (s.play move) (t.play move) := by
  cases move with
  | start | stop => exact .ok ⟨rfl, { h with running := rfl }⟩
  | tick => exact (tick_agree h).bind fun _ _ hs => .ok ⟨congrArg _ hs.1, hs.2⟩
  | catchUp n => exact (catchUp_agree h).bind fun _ _ hs => .ok ⟨congrArg _ hs.1, hs.2⟩
  | perform name params =>
    exact (perform_agree h name params).bind fun _ _ hs => .ok ⟨congrArg _ hs.1, hs.2⟩
  | trigger event params =>
    exact (handleTriggers_agree h).bind fun _ _ hs => .ok ⟨congrArg _ hs.1, hs.2⟩
  | purchase id => exact (purchase_agree h id).bind fun _ _ hs => .ok ⟨congrArg _ hs.1, hs.2⟩
  | set id v =>
    refine .ok ⟨rfl, ?_⟩
    unfold Session.set
    rw [h.surroundings]
    exact h.withWorld (h.world.write id _)
  | spawn kind properties =>
    obtain ⟨hid, hpopulation⟩ := h.world.population.spawn kind properties
    exact .ok ⟨congrArg _ hid, h.withWorld (h.world.withPopulation hpopulation)⟩
  | modify id properties =>
    have hpopulation := h.world.population.modify id (·.patch properties)
    exact .ok ⟨congrArg _ (h.world.population.contains id),
      h.withWorld (h.world.withPopulation hpopulation)⟩
  | remove id =>
    obtain ⟨hremoved, hpopulation⟩ := h.world.population.remove id
    exact .ok ⟨congrArg (fun e => Answer.holds (Option.isSome e)) hremoved,
      h.withWorld (h.world.withPopulation hpopulation)⟩
  | reset =>
    have hworld : (s.world.reset s.game).Alike old (t.world.reset t.game) := by
      rw [h.game]
      exact h.world.reset _
    exact .ok ⟨rfl, h.game, hworld, rfl, rfl, rfl, h.running, .refl _ _⟩

omit [SaveStore σ] [SaveStore τ] in
/-- A question has the same answer on sessions that are alike. -/
theorem answer_eq (h : s.Alike old oldEvents t) (query : Query) :
    s.answer query = t.answer query := by
  cases query with
  | state => simp only [answer, h.world.state]
  | value id => simp only [answer, get?, h.world.state]
  | entity id => simp only [answer, h.world.population.get?]
  | entities => simp only [answer, h.world.population.members]
  | ofKind kind => simp only [answer, h.world.population.ofKind]
  | count kind => simp only [answer, h.world.population.count]
  | phase => simp only [answer, h.phase]
  | clock => simp only [answer, h.world.clock]
  | isRunning => simp only [answer, h.running]
  | canAfford id =>
    simp only [answer, canAfford, ask, World.peek, h.game, h.world.random,
      Project.canAfford_eq h.world]
  | isAvailable id =>
    simp only [answer, isAvailable, ask, World.peek, h.game, h.world.random, h.uses,
      h.world.view_eq]
  | available =>
    simp only [answer, available, World.peek, h.game, h.world.random, h.uses, h.world.view_eq]
  | uses id => simp only [answer, h.uses]
  | fires id => simp only [answer, h.records]
  | snapshot => simp only [answer, h.snapshot_eq]

/-- A call that plays or asks agrees on sessions that are alike. -/
theorem apply_agree {op : Operation} (hop : op.isInGame) (h : s.Alike old oldEvents t) :
    Agree (SameWith (Alike old oldEvents)) (s.apply op) (t.apply op) := by
  cases op with
  | play move => exact play_agree h move
  | ask query =>
    rw [apply, apply, answer_eq h]
    rcases t.answer query with _ | a
    · exact .error
    · exact .ok ⟨rfl, h⟩
  | _ => cases hop

/-- Calls that play and ask agree on sessions that are alike, and so do all snapshots on the
way. -/
theorem applyAll_agree {ops : List Operation} (hops : ∀ op ∈ ops, op.isInGame)
    (h : s.Alike old oldEvents t) :
    Agree (SameWith (Alike old oldEvents)) (applyAll ops s) (applyAll ops t) := by
  induction ops generalizing s t with
  | nil => exact .ok ⟨rfl, h⟩
  | cons op ops ih =>
    rw [List.forall_mem_cons] at hops
    rw [applyAll, applyAll]
    refine (apply_agree hops.1 h).bind ?_
    rintro ⟨a, s'⟩ ⟨_, t'⟩ ⟨rfl, hs⟩
    refine (ih hops.2 hs).bind ?_
    rintro ⟨noted, s''⟩ ⟨_, t''⟩ ⟨rfl, hs'⟩
    -- The snapshot that is noted is the one after the first call.
    exact .ok ⟨by rw [hs.snapshot_eq], hs'⟩

end Session

end IdleGame
