import IdleGame.Proofs.Phase.Update
import IdleGame.Proofs.Project.Purchase
import IdleGame.Proofs.Rule.Pass
import IdleGame.Proofs.Session.Operation

/-!
# Which expressions a call of a session evaluates

## Main definitions

* `Session.Handles` - handling queued triggers comes to an evaluation
* `Session.Fires`, `Session.Steps` - a tick, and ticks one after the other, come to an evaluation
* `Operation.Evaluates` - a call comes to an evaluation

## Main results

* `Session.apply_error_iff` - a call faults exactly when it comes to an evaluation that does
-/

namespace IdleGame

variable {ρ σ : Type} [RandomSource ρ]

namespace Session

/-- The progress of a pass before it has looked at a rule. -/
def ahead (s : Session ρ σ) : Pass.Progress ρ := ⟨s.records, s.scope, []⟩

/-- The session after an event has been handed to the rules. -/
def afterDelivery (s : Session ρ σ) (progress : Pass.Progress ρ) : Session ρ σ :=
  { s.afterRun progress.scope with records := progress.records }

/-- Handling queued triggers comes to an evaluation. -/
inductive Handles : Nat → List (String × Values) → Session ρ σ → Evaluation ρ → Prop
  | first {limit event params queue s ev}
      (h : (Pass.event event s.world.clock.tick).Evaluates (s.surroundings params) s.game.rules
        s.ahead ev) :
      Handles (limit + 1) ((event, params) :: queue) s ev
  | later {limit event params queue s progress ev} (h : s.deliver event params = .ok progress)
      (hlater : Handles limit (queue ++ progress.scope.effects.triggers)
        (s.afterDelivery progress) ev) :
      Handles (limit + 1) ((event, params) :: queue) s ev

/-- The passes of a tick, before it looks for the current phase. -/
def firePasses (s : Session ρ σ) : Except Fault (Pass.Progress ρ) :=
  (Pass.tick s.world.clock.tick).run (s.surroundings Table.empty) s.game.rules s.ahead >>=
    fun progress =>
      match s.closing? with
      | some second =>
        (Pass.second second).run (s.surroundings Table.empty) s.game.rules progress
      | none => .ok progress

/-- The session after its passes, with the phase looked up and no trigger handled yet. -/
def afterPasses (s : Session ρ σ) (progress : Pass.Progress ρ) (update : Phase.Update ρ) :
    Session ρ σ :=
  { s with records := progress.records, phase := update.current }

/-- A tick comes to an evaluation. -/
inductive Fires (s : Session ρ σ) : Evaluation ρ → Prop
  | tick {ev} (h : (Pass.tick s.world.clock.tick).Evaluates (s.surroundings Table.empty)
        s.game.rules s.ahead ev) : Fires s ev
  | second {second progress ev} (h : (Pass.tick s.world.clock.tick).run
        (s.surroundings Table.empty) s.game.rules s.ahead = .ok progress)
      (hclosing : s.closing? = some second)
      (hev : (Pass.second second).Evaluates (s.surroundings Table.empty) s.game.rules progress ev) :
      Fires s ev
  | phase {progress ev} (h : s.firePasses = .ok progress)
      (hev : Phase.Evaluates (s.surroundings Table.empty) s.game.phases s.phase progress.scope ev) :
      Fires s ev
  | settle {progress update ev} (h : s.runPasses = .ok (progress, update))
      (hev : Handles triggerLimit update.scope.effects.triggers
        ((s.afterPasses progress update).afterRun update.scope) ev) :
      Fires s ev

variable [SaveStore σ]

/-- Ticks one after the other come to an evaluation. -/
inductive Steps : Nat → Session ρ σ → Evaluation ρ → Prop
  | first {n s ev} (h : s.Fires ev) : Steps (n + 1) s ev
  | later {n s summary s' ev} (h : s.step = .ok (summary, s')) (hlater : Steps n s' ev) :
      Steps (n + 1) s ev

end Session

/-- A question comes to an evaluation. -/
inductive Query.Evaluates (s : Session ρ σ) : Query → Evaluation ρ → Prop
  | canAfford {id p ev} (h : s.game.project? id = some p)
      (hev : Expr.InTurn (s.world.view Table.empty none) p.amounts s.world.random ev) :
      Evaluates s (.canAfford id) ev
  | isAvailable {id p} (h : s.game.project? id = some p)
      (hopen : ¬ p.isExhausted (s.uses.of p.id)) :
      Evaluates s (.isAvailable id)
        ⟨s.world.view Table.empty none, p.trigger, s.world.random⟩
  | available {ev} (h : Expr.InTurn (s.world.view Table.empty none)
        ((s.game.projects.filter fun p => ¬ p.isExhausted (s.uses.of p.id)).map Project.trigger)
        s.world.random ev) :
      Evaluates s .available ev

/-- A call that plays the game comes to an evaluation. -/
inductive Move.Evaluates [SaveStore σ] (s : Session ρ σ) : Move → Evaluation ρ → Prop
  | tick {ev} (hrunning : s.running) (h : s.Fires ev) : Evaluates s .tick ev
  | catchUp {n ev} (hrunning : s.running) (h : Session.Steps n s ev) : Evaluates s (.catchUp n) ev
  | perform {name params actions ev} (h : s.game.function? name = some actions)
      (hev : Action.Evaluates (s.surroundings params) none actions s.scope ev) :
      Evaluates s (.perform name params) ev
  | performed {name params actions scope ev} (h : s.game.function? name = some actions)
      (hrun : Action.runAll (s.surroundings params) none actions s.scope = .ok scope)
      (hev : Session.Handles Session.triggerLimit scope.effects.triggers (s.afterRun scope) ev) :
      Evaluates s (.perform name params) ev
  | trigger {event params ev}
      (h : Session.Handles Session.triggerLimit [(event, params)] s ev) :
      Evaluates s (.trigger event params) ev
  | purchase {id p ev} (h : s.game.project? id = some p)
      (hev : p.Evaluates (s.surroundings Table.empty) s.uses s.scope ev) :
      Evaluates s (.purchase id) ev
  | purchased {id p uses scope ev} (h : s.game.project? id = some p)
      (hrun : p.purchase (s.surroundings Table.empty) s.uses s.scope = .ok (some (uses, scope)))
      (hev : Session.Handles Session.triggerLimit scope.effects.triggers
        ({ s with uses }.afterRun scope) ev) :
      Evaluates s (.purchase id) ev

/-- A call comes to an evaluation. -/
inductive Operation.Evaluates [SaveStore σ] (s : Session ρ σ) : Operation → Evaluation ρ → Prop
  | play {move ev} (h : move.Evaluates s ev) : Evaluates s (.play move) ev
  | ask {query ev} (h : query.Evaluates s ev) : Evaluates s (.ask query) ev

namespace Session

variable {s s' : Session ρ σ} {f : Fault}

theorem handleTriggers_cons {limit : Nat} {event : String} {params : Values}
    {queue : List (String × Values)} :
    handleTriggers (limit + 1) ((event, params) :: queue) s =
      s.deliver event params >>= fun progress =>
        handleTriggers limit (queue ++ progress.scope.effects.triggers)
          (s.afterDelivery progress) >>= fun (fired, s') =>
            .ok (progress.fired ++ fired, s') := by
  rw [handleTriggers]
  rfl

theorem handleTriggers_error_iff {limit : Nat} {queue : List (String × Values)} :
    handleTriggers limit queue s = .error f ↔ ∃ ev, Handles limit queue s ev ∧ ev.Faults f := by
  constructor
  · intro h
    -- Each trigger that is handled uses up one of the limit, whatever it puts into the queue.
    induction limit generalizing queue s with
    | zero => cases h
    | succ limit ih =>
      rcases queue with _ | ⟨⟨event, params⟩, queue⟩
      · cases h
      · rw [handleTriggers_cons] at h
        rcases Outcome.bind_eq_error_iff.mp h with h | ⟨progress, hdeliver, h⟩
        · obtain ⟨ev, hev, hf⟩ := Pass.run_error_iff.mp h
          exact ⟨ev, .first hev, hf⟩
        · rcases Outcome.bind_eq_error_iff.mp h with h | ⟨_, _, h⟩
          · obtain ⟨ev, hlater, hf⟩ := ih h
            exact ⟨ev, .later hdeliver hlater, hf⟩
          · cases h
  · rintro ⟨ev, h, hf⟩
    induction h with
    | first h =>
      have hdeliver : _ = Except.error f := Pass.run_error_iff.mpr ⟨_, h, hf⟩
      rw [handleTriggers_cons]
      exact Outcome.bind_eq_error_iff.mpr (.inl hdeliver)
    | later h _ ih =>
      rw [handleTriggers_cons, h, Outcome.ok_bind]
      exact Outcome.bind_eq_error_iff.mpr (.inl (ih hf))

theorem runPasses_eq :
    s.runPasses =
      s.firePasses >>= fun progress =>
        Phase.update (s.surroundings Table.empty) s.game.phases s.phase progress.scope >>=
          fun update => .ok (progress, update) := by
  unfold runPasses firePasses ahead
  dsimp only
  rcases (Pass.tick s.world.clock.tick).run (s.surroundings Table.empty) s.game.rules
    ⟨s.records, s.scope, []⟩ with _ | progress
  · rfl
  · cases s.closing? <;> rfl

theorem firePasses_error_iff :
    s.firePasses = .error f ↔
      ∃ ev, ((Pass.tick s.world.clock.tick).Evaluates (s.surroundings Table.empty) s.game.rules
          s.ahead ev ∨
        ∃ second progress, (Pass.tick s.world.clock.tick).run (s.surroundings Table.empty)
            s.game.rules s.ahead = .ok progress ∧ s.closing? = some second ∧
          (Pass.second second).Evaluates (s.surroundings Table.empty) s.game.rules progress ev) ∧
        ev.Faults f := by
  rw [firePasses, Outcome.bind_eq_error_iff, Pass.run_error_iff]
  constructor
  · rintro (⟨ev, hev, hf⟩ | ⟨progress, hrun, h⟩)
    · exact ⟨ev, .inl hev, hf⟩
    · split at h
      · rename_i second hclosing
        obtain ⟨ev, hev, hf⟩ := Pass.run_error_iff.mp h
        exact ⟨ev, .inr ⟨second, progress, hrun, hclosing, hev⟩, hf⟩
      · cases h
  · rintro ⟨ev, hev | ⟨second, progress, hrun, hclosing, hev⟩, hf⟩
    · exact .inl ⟨ev, hev, hf⟩
    · refine .inr ⟨progress, hrun, ?_⟩
      simp only [hclosing]
      exact Pass.run_error_iff.mpr ⟨ev, hev, hf⟩

theorem runPasses_error_iff :
    s.runPasses = .error f ↔
      s.firePasses = .error f ∨
        ∃ progress ev, s.firePasses = .ok progress ∧
          Phase.Evaluates (s.surroundings Table.empty) s.game.phases s.phase progress.scope ev ∧
          ev.Faults f := by
  rw [runPasses_eq, Outcome.bind_eq_error_iff]
  refine or_congr_right (exists_congr fun progress => ?_)
  rw [Outcome.bind_eq_error_iff, Phase.update_error_iff]
  simp

/-- The session after its triggers have been handled, with the current tick completed. -/
theorem step_eq [SaveStore σ] :
    s.step =
      s.runPasses >>= fun (progress, update) =>
        (s.afterPasses progress update).settle update.scope >>= fun (fired, s') =>
          .ok (⟨s.world.clock.tick, progress.fired ++ fired, s.closing?, update.entered⟩,
            if s.closing?.isSome then s'.advanceClock.autosave else s'.advanceClock) := by
  rw [step]
  rfl

variable [SaveStore σ]

/-- A tick faults exactly when it comes to an evaluation that does. -/
theorem step_error_iff : s.step = .error f ↔ ∃ ev, s.Fires ev ∧ ev.Faults f := by
  rw [step_eq, Outcome.bind_eq_error_iff, runPasses_error_iff, firePasses_error_iff]
  constructor
  · rintro ((⟨ev, hev, hf⟩ | ⟨progress, ev, hprogress, hev, hf⟩) | ⟨⟨progress, update⟩, hrun, h⟩)
    · rcases hev with hev | ⟨second, progress, hrun, hclosing, hev⟩
      · exact ⟨ev, .tick hev, hf⟩
      · exact ⟨ev, .second hrun hclosing hev, hf⟩
    · exact ⟨ev, .phase hprogress hev, hf⟩
    · rcases Outcome.bind_eq_error_iff.mp h with h | ⟨_, _, h⟩
      · obtain ⟨ev, hev, hf⟩ := handleTriggers_error_iff.mp h
        exact ⟨ev, .settle hrun hev, hf⟩
      · cases h
  · rintro ⟨ev, hev, hf⟩
    cases hev with
    | tick h => exact .inl (.inl ⟨ev, .inl h, hf⟩)
    | second hrun hclosing hev => exact .inl (.inl ⟨ev, .inr ⟨_, _, hrun, hclosing, hev⟩, hf⟩)
    | phase hprogress hev => exact .inl (.inr ⟨_, ev, hprogress, hev, hf⟩)
    | settle hrun hev =>
      refine .inr ⟨_, hrun, Outcome.bind_eq_error_iff.mpr (.inl ?_)⟩
      exact handleTriggers_error_iff.mpr ⟨ev, hev, hf⟩

theorem steps_error_iff {n : Nat} : steps n s = .error f ↔ ∃ ev, Steps n s ev ∧ ev.Faults f := by
  constructor
  · intro h
    induction n generalizing s with
    | zero => cases h
    | succ n ih =>
      rw [steps] at h
      rcases Outcome.bind_eq_error_iff.mp h with h | ⟨⟨summary, s'⟩, hstep, h⟩
      · obtain ⟨ev, hev, hf⟩ := step_error_iff.mp h
        exact ⟨ev, .first hev, hf⟩
      · obtain ⟨ev, hlater, hf⟩ := ih h
        exact ⟨ev, .later hstep hlater, hf⟩
  · rintro ⟨ev, h, hf⟩
    induction h with
    | first h =>
      rw [steps, step_error_iff.mpr ⟨_, h, hf⟩]
      rfl
    | later h _ ih =>
      rw [steps, h]
      exact ih hf

omit [SaveStore σ] in
theorem filterProjects_error_iff {uses : Uses} {view : View} {ps : List Project} {r : ρ} :
    (filterProjects (fun p => p.isAvailable uses view) ps r).1 = .error f ↔
      ∃ ev, Expr.InTurn view
          ((ps.filter fun p => ¬ p.isExhausted (uses.of p.id)).map Project.trigger) r ev ∧
        ev.Faults f := by
  induction ps generalizing r with
  | nil => simp [filterProjects, Expr.not_inTurn_nil]
  | cons p ps ih =>
    rw [filterProjects, Draws.bind_error_iff, Project.isAvailable_error_iff]
    simp only [Draws.map_error_iff, ih]
    -- A project that cannot be bought again is not asked, and its trigger draws nothing.
    by_cases hopen : p.isExhausted (uses.of p.id)
    · simp [Project.isAvailable, hopen]
    · rw [List.filter_cons_of_pos (by simpa using hopen), List.map_cons,
        Expr.exists_inTurn_cons_faults_iff]
      simp only [hopen, not_false_eq_true, true_and, Project.isAvailable, Expr.test,
        Draws.map_ok_iff, Bool.false_eq_true, if_false]
      constructor
      · rintro (h | ⟨b, r', ⟨v, hv, -⟩, h⟩)
        · exact .inl h
        · exact .inr ⟨v, r', hv, h⟩
      · rintro (h | ⟨v, r', hv, h⟩)
        · exact .inl h
        · exact .inr ⟨_, r', ⟨v, hv, rfl⟩, h⟩

omit [RandomSource ρ] [SaveStore σ] in
theorem ask_error_iff {id : String} {question : Project → Draws ρ Bool} :
    s.ask id question = .error f ↔
      ∃ p, s.game.project? id = some p ∧ (question p s.world.random).1 = .error f := by
  unfold ask World.peek
  rcases s.game.project? id with _ | p <;> simp

omit [SaveStore σ] in
/-- A question faults exactly when it comes to an evaluation that does. -/
theorem answer_error_iff {query : Query} :
    s.answer query = .error f ↔ ∃ ev, query.Evaluates s ev ∧ ev.Faults f := by
  constructor
  · intro h
    cases query with
    | canAfford id =>
      have h := (Outcome.bind_total_eq_error_iff fun _ => ⟨_, rfl⟩).mp h
      obtain ⟨p, hp, h⟩ := ask_error_iff.mp h
      obtain ⟨ev, hev, hf⟩ := Project.canAfford_error_iff.mp h
      exact ⟨ev, .canAfford hp hev, hf⟩
    | isAvailable id =>
      have h := (Outcome.bind_total_eq_error_iff fun _ => ⟨_, rfl⟩).mp h
      obtain ⟨p, hp, h⟩ := ask_error_iff.mp h
      obtain ⟨hopen, hf⟩ := Project.isAvailable_error_iff.mp h
      exact ⟨_, .isAvailable hp hopen, hf⟩
    | available =>
      have h := (Outcome.bind_total_eq_error_iff fun _ => ⟨_, rfl⟩).mp h
      obtain ⟨ev, hev, hf⟩ := filterProjects_error_iff.mp h
      exact ⟨ev, .available hev, hf⟩
    | _ => cases h
  · rintro ⟨ev, h, hf⟩
    cases h with
    | canAfford hp hev =>
      refine (Outcome.bind_total_eq_error_iff fun _ => ⟨_, rfl⟩).mpr ?_
      exact ask_error_iff.mpr ⟨_, hp, Project.canAfford_error_iff.mpr ⟨ev, hev, hf⟩⟩
    | isAvailable hp hopen =>
      refine (Outcome.bind_total_eq_error_iff fun _ => ⟨_, rfl⟩).mpr ?_
      exact ask_error_iff.mpr ⟨_, hp, Project.isAvailable_error_iff.mpr ⟨hopen, hf⟩⟩
    | available hev =>
      refine (Outcome.bind_total_eq_error_iff fun _ => ⟨_, rfl⟩).mpr ?_
      exact filterProjects_error_iff.mpr ⟨ev, hev, hf⟩

theorem tick_error_iff : s.tick = .error f ↔ s.running ∧ ∃ ev, s.Fires ev ∧ ev.Faults f := by
  unfold tick
  split
  · rw [← step_error_iff]
    simp [*, Outcome.bind_total_eq_error_iff]
  · simp_all

theorem catchUp_error_iff {n : Nat} :
    s.catchUp n = .error f ↔ s.running ∧ ∃ ev, Steps n s ev ∧ ev.Faults f := by
  unfold catchUp
  split
  · rw [← steps_error_iff]
    simp [*, Outcome.bind_total_eq_error_iff]
  · simp_all

omit [SaveStore σ] in
theorem perform_error_iff {name : String} {params : Values} :
    s.perform name params = .error f ↔
      ∃ actions, s.game.function? name = some actions ∧
        (Action.runAll (s.surroundings params) none actions s.scope = .error f ∨
          ∃ scope, Action.runAll (s.surroundings params) none actions s.scope = .ok scope ∧
            s.settle scope = .error f) := by
  unfold perform
  rcases s.game.function? name with _ | actions
  · simp
  · simp [Outcome.bind_eq_error_iff]

omit [SaveStore σ] in
theorem purchase_error_iff {id : String} :
    s.purchase id = .error f ↔
      ∃ p, s.game.project? id = some p ∧
        (p.purchase (s.surroundings Table.empty) s.uses s.scope = .error f ∨
          ∃ uses scope, p.purchase (s.surroundings Table.empty) s.uses s.scope =
              .ok (some (uses, scope)) ∧ { s with uses }.settle scope = .error f) := by
  unfold purchase
  rcases s.game.project? id with _ | p
  · simp
  · simp only [Option.some.injEq, exists_eq_left', Outcome.bind_eq_error_iff]
    refine or_congr_right ⟨?_, ?_⟩
    · rintro ⟨_ | ⟨uses, scope⟩, hrun, h⟩
      · cases h
      · exact ⟨uses, scope, hrun, (Outcome.bind_total_eq_error_iff fun _ => ⟨_, rfl⟩).mp h⟩
    · rintro ⟨uses, scope, hrun, h⟩
      exact ⟨_, hrun, (Outcome.bind_total_eq_error_iff fun _ => ⟨_, rfl⟩).mpr h⟩

/-- A call that plays the game faults exactly when it comes to an evaluation that does. -/
theorem play_error_iff {move : Move} :
    s.play move = .error f ↔ ∃ ev, move.Evaluates s ev ∧ ev.Faults f := by
  constructor
  · intro h
    cases move with
    | tick =>
      have h := (Outcome.bind_total_eq_error_iff fun _ => ⟨_, rfl⟩).mp h
      obtain ⟨hrunning, ev, hev, hf⟩ := tick_error_iff.mp h
      exact ⟨ev, .tick hrunning hev, hf⟩
    | catchUp n =>
      have h := (Outcome.bind_total_eq_error_iff fun _ => ⟨_, rfl⟩).mp h
      obtain ⟨hrunning, ev, hev, hf⟩ := catchUp_error_iff.mp h
      exact ⟨ev, .catchUp hrunning hev, hf⟩
    | perform name params =>
      have h := (Outcome.bind_total_eq_error_iff fun _ => ⟨_, rfl⟩).mp h
      obtain ⟨actions, hactions, h | ⟨scope, hrun, h⟩⟩ := perform_error_iff.mp h
      · obtain ⟨ev, hev, hf⟩ := Action.runAll_error_iff.mp h
        exact ⟨ev, .perform hactions hev, hf⟩
      · obtain ⟨ev, hev, hf⟩ := handleTriggers_error_iff.mp h
        exact ⟨ev, .performed hactions hrun hev, hf⟩
    | trigger event params =>
      have h := (Outcome.bind_total_eq_error_iff fun _ => ⟨_, rfl⟩).mp h
      obtain ⟨ev, hev, hf⟩ := handleTriggers_error_iff.mp h
      exact ⟨ev, .trigger hev, hf⟩
    | purchase id =>
      have h := (Outcome.bind_total_eq_error_iff fun _ => ⟨_, rfl⟩).mp h
      obtain ⟨p, hp, h | ⟨uses, scope, hrun, h⟩⟩ := purchase_error_iff.mp h
      · obtain ⟨ev, hev, hf⟩ := Project.purchase_error_iff.mp h
        exact ⟨ev, .purchase hp hev, hf⟩
      · obtain ⟨ev, hev, hf⟩ := handleTriggers_error_iff.mp h
        exact ⟨ev, .purchased hp hrun hev, hf⟩
    | _ => cases h
  · rintro ⟨ev, h, hf⟩
    cases h with
    | tick hrunning hev =>
      refine (Outcome.bind_total_eq_error_iff fun _ => ⟨_, rfl⟩).mpr ?_
      exact tick_error_iff.mpr ⟨hrunning, ev, hev, hf⟩
    | catchUp hrunning hev =>
      refine (Outcome.bind_total_eq_error_iff fun _ => ⟨_, rfl⟩).mpr ?_
      exact catchUp_error_iff.mpr ⟨hrunning, ev, hev, hf⟩
    | perform hactions hev =>
      refine (Outcome.bind_total_eq_error_iff fun _ => ⟨_, rfl⟩).mpr ?_
      exact perform_error_iff.mpr ⟨_, hactions, .inl (Action.runAll_error_iff.mpr ⟨ev, hev, hf⟩)⟩
    | performed hactions hrun hev =>
      refine (Outcome.bind_total_eq_error_iff fun _ => ⟨_, rfl⟩).mpr ?_
      exact perform_error_iff.mpr
        ⟨_, hactions, .inr ⟨_, hrun, handleTriggers_error_iff.mpr ⟨ev, hev, hf⟩⟩⟩
    | trigger hev =>
      refine (Outcome.bind_total_eq_error_iff fun _ => ⟨_, rfl⟩).mpr ?_
      exact handleTriggers_error_iff.mpr ⟨ev, hev, hf⟩
    | purchase hp hev =>
      refine (Outcome.bind_total_eq_error_iff fun _ => ⟨_, rfl⟩).mpr ?_
      exact purchase_error_iff.mpr ⟨_, hp, .inl (Project.purchase_error_iff.mpr ⟨ev, hev, hf⟩)⟩
    | purchased hp hrun hev =>
      refine (Outcome.bind_total_eq_error_iff fun _ => ⟨_, rfl⟩).mpr ?_
      exact purchase_error_iff.mpr
        ⟨_, hp, .inr ⟨_, _, hrun, handleTriggers_error_iff.mpr ⟨ev, hev, hf⟩⟩⟩

/-- A call faults exactly when it comes to an evaluation that does. -/
theorem apply_error_iff {op : Operation} :
    s.apply op = .error f ↔ ∃ ev, op.Evaluates s ev ∧ ev.Faults f := by
  constructor
  · intro h
    cases op with
    | play move =>
      obtain ⟨ev, hev, hf⟩ := play_error_iff.mp h
      exact ⟨ev, .play hev, hf⟩
    | ask query =>
      have h := (Outcome.bind_total_eq_error_iff fun _ => ⟨_, rfl⟩).mp h
      obtain ⟨ev, hev, hf⟩ := answer_error_iff.mp h
      exact ⟨ev, .ask hev, hf⟩
    | _ => cases h
  · rintro ⟨ev, h, hf⟩
    cases h with
    | play hev => exact play_error_iff.mpr ⟨ev, hev, hf⟩
    | ask hev =>
      refine (Outcome.bind_total_eq_error_iff fun _ => ⟨_, rfl⟩).mpr ?_
      exact answer_error_iff.mpr ⟨ev, hev, hf⟩

end Session

end IdleGame
