import IdleGame.Proofs.Rule.Spacing
import IdleGame.Proofs.Session.Change

/-!
# Trials of rules in calls of a session

Whatever a call does, rules are tried in passes: those of the tick, of the second that closes, and
one for each queued event. Each pass goes on from what the one before has left in the world, and so
does the call after the last one. The trials of a call tell what it leaves in the records, and the
rules that it lists as fired.

## Main definitions

* `Session.trials` - the trials of a call
* `Session.Hands`, `Session.TickTries` - the trials of triggers and of a tick, each in what those
  before have left
* `Session.Course` - the trials of a call, and where they lead
* `Session.LogsTo` - trials that lead from the records and the clock of one session to another

## Main results

* `Session.handleTriggers_hands`, `Session.step_tries` - triggers and ticks try rules so, and list
  those that have fired
* `Session.apply_course` - so does a call that neither resets nor loads
* `Session.Course.logsTo` - the records after a call are those that its trials tell
* `Session.Course.triedEachTick` - a rule of ticks is tried once at every tick
-/

namespace IdleGame

variable {ρ σ : Type} [RandomSource ρ]

namespace Operation

/-- Whether a call begins the game again, or goes on from a saved one. -/
def restarts : Operation → Bool
  | .play .reset | .load _ => true
  | _ => false

/-- Whether a call ends by delivering triggers. -/
def settles : Operation → Bool
  | .play .tick | .play (.perform ..) | .play (.trigger ..) | .play (.purchase _) => true
  | _ => false

end Operation

namespace Session

/-- The trials of an event that is handed to the rules. -/
def deliveryTrials (s : Session ρ σ) (event : String) (params : Values) : List Trial :=
  (Pass.event event s.world.clock.tick).trials (s.surroundings params) s.game.rules s.ahead

/-- The trials while triggers are handled. -/
def triggerTrials : Nat → List (String × Values) → Session ρ σ → List Trial
  | 0, _, _ => []
  | _ + 1, [], _ => []
  | limit + 1, (event, params) :: queue, s =>
    s.deliveryTrials event params ++ Outcome.listed (s.deliver event params) fun progress =>
      triggerTrials limit (queue ++ progress.scope.effects.triggers) (s.afterDelivery progress)

/-- The trials while the effects of actions are handled. -/
def settleTrials (s : Session ρ σ) (scope : Scope ρ) : List Trial :=
  triggerTrials triggerLimit scope.effects.triggers (s.afterRun scope)

/-- The trials of the second that the current tick closes. -/
def secondTrials (s : Session ρ σ) (progress : Pass.Progress ρ) : List Trial :=
  match s.closing? with
  | some second =>
    (Pass.second second).trials (s.surroundings Table.empty) s.game.rules progress
  | none => []

/-- The trials in the passes of a tick. -/
def passTrials (s : Session ρ σ) : List Trial :=
  let pass := Pass.tick s.world.clock.tick
  pass.trials (s.surroundings Table.empty) s.game.rules s.ahead ++
    Outcome.listed (pass.run (s.surroundings Table.empty) s.game.rules s.ahead) s.secondTrials

/-- The trials of a tick. -/
def stepTrials (s : Session ρ σ) : List Trial :=
  s.passTrials ++ Outcome.listed s.runPasses fun (progress, update) =>
    (s.afterPasses progress update).settleTrials update.scope

/-- The trials of ticks one after the other. -/
def stepsTrials [SaveStore σ] : Nat → Session ρ σ → List Trial
  | 0, _ => []
  | n + 1, s => s.stepTrials ++ Outcome.listed s.step fun (_, s') => stepsTrials n s'

/-- The trials when a function is performed. -/
def performTrials (s : Session ρ σ) (name : String) (params : Values) : List Trial :=
  match s.game.function? name with
  | none => []
  | some actions =>
    Outcome.listed (Action.runAll (s.surroundings params) none actions s.scope) s.settleTrials

/-- The trials when a project is bought. -/
def purchaseTrials (s : Session ρ σ) (id : String) : List Trial :=
  match s.game.project? id with
  | none => []
  | some p =>
    Outcome.listed (p.purchase (s.surroundings Table.empty) s.uses s.scope) fun
      | none => []
      | some (uses, scope) => { s with uses }.settleTrials scope

/-- The trials of a call. -/
def trials [SaveStore σ] (s : Session ρ σ) : Operation → List Trial
  | .play .tick => if s.running then s.stepTrials else []
  | .play (.catchUp n) => if s.running then stepsTrials n s else []
  | .play (.perform name params) => s.performTrials name params
  | .play (.trigger event params) => triggerTrials triggerLimit [(event, params)] s
  | .play (.purchase id) => s.purchaseTrials id
  | _ => []

/-! ## What trials lead to -/

/-- Triggers that wait are handed to the rules, first in first out, until none is left or as many
have been handled as one call may. The rules are tried in what those before have left. -/
inductive Hands : Nat → List (String × Values) → Session ρ σ → List Trial → Session ρ σ → Prop
  | limit {queue s} : Hands 0 queue s [] s
  | empty {limit s} : Hands (limit + 1) [] s [] s
  | trigger {limit event params queue s ts progress us s'}
      (htries : (Pass.event event s.world.clock.tick).Tries (s.surroundings params) s.game.rules
        s.ahead ts progress)
      (hlater : Hands limit (queue ++ progress.scope.effects.triggers) (s.afterDelivery progress)
        us s') :
      Hands (limit + 1) ((event, params) :: queue) s (ts ++ us) s'

/-- Rules of seconds are tried when a second closes, in what the rules of the tick have left. -/
inductive SecondTries (s : Session ρ σ) (progress : Pass.Progress ρ) :
    List Trial → Pass.Progress ρ → Prop
  | within (h : s.closing? = none) : SecondTries s progress [] progress
  | closes {second ts progress'} (h : s.closing? = some second)
      (htries : (Pass.second second).Tries (s.surroundings Table.empty) s.game.rules progress ts
        progress') : SecondTries s progress ts progress'

/-- The session at the end of a tick, once its triggers have been delivered. -/
def tickEnding [SaveStore σ] (s t : Session ρ σ) : Session ρ σ :=
  if s.closing?.isSome then t.advanceClock.autosave else t.advanceClock

/-- A tick tries the rules of ticks and those of the second that it closes. The phase is looked up
in what they have left, the triggers that wait by then are handed to the rules, and the tick
ends. -/
inductive TickTries [SaveStore σ] (s : Session ρ σ) : List Trial → Session ρ σ → Prop
  | of_parts {progress progress' update ts us vs t}
      (htick : (Pass.tick s.world.clock.tick).Tries (s.surroundings Table.empty) s.game.rules
        s.ahead ts progress)
      (hsecond : s.SecondTries progress us progress')
      (hphase : Phase.update (s.surroundings Table.empty) s.game.phases s.phase progress'.scope =
        .ok update)
      (hhands : Hands triggerLimit update.scope.effects.triggers
        ((s.afterPasses progress' update).afterRun update.scope) vs t) :
      TickTries s (ts ++ us ++ vs) (s.tickEnding t)

/-- Ticks, one after the other, try rules. -/
inductive TicksTry [SaveStore σ] : Nat → Session ρ σ → List Trial → Session ρ σ → Prop
  | zero {s} : TicksTry 0 s [] s
  | succ {n s ts t us s'} (h : s.TickTries ts t) (hlater : TicksTry n t us s') :
      TicksTry (n + 1) s (ts ++ us) s'

/-- Two sessions of one game stand at the same time, with the same records. -/
structure Abreast (s t : Session ρ σ) : Prop where
  game : t.game = s.game
  records : t.records = s.records
  clock : t.world.clock = s.world.clock

/-- What a call does before it hands triggers to the rules, and the triggers that wait by then. -/
inductive Prepares (s : Session ρ σ) :
    Operation → Session ρ σ → List (String × Values) → Prop
  | function {name params actions scope} (hfunction : s.game.function? name = some actions)
      (hrun : Action.runAll (s.surroundings params) none actions s.scope = .ok scope) :
      Prepares s (.play (.perform name params)) (s.afterRun scope) scope.effects.triggers
  | event {event params} : Prepares s (.play (.trigger event params)) s [(event, params)]
  | project {id p uses scope} (hproject : s.game.project? id = some p)
      (hpurchase : p.purchase (s.surroundings Table.empty) s.uses s.scope =
        .ok (some (uses, scope))) :
      Prepares s (.play (.purchase id)) ({ s with uses }.afterRun scope) scope.effects.triggers

/-- How a call tries rules: not at all, while triggers are handled, in a tick, or in ticks one after
the other. -/
inductive Course [SaveStore σ] (s : Session ρ σ) : Operation → List Trial → Session ρ σ → Prop
  | idle {op} : Course s op [] s
  | rest {op s'} (hop : ¬ op.settles) (h : s.Abreast s') : Course s op [] s'
  | triggers {op t queue ts s'} (hprepares : s.Prepares op t queue)
      (hhands : Hands triggerLimit queue t ts s') : Course s op ts s'
  | tick {ts s'} (h : s.TickTries ts s') : Course s (.play .tick) ts s'
  | ticks {n ts s'} (h : TicksTry n s ts s') : Course s (.play (.catchUp n)) ts s'

/-- Trials lead from the records and the clock of one session to those of another. -/
structure LogsTo (s : Session ρ σ) (ts : List Trial) (s' : Session ρ σ) : Prop where
  game : s'.game = s.game
  logs : s.game.Logs s.records s.world.clock ts s'.records s'.world.clock

variable {s s' s'' t : Session ρ σ} {ts us : List Trial} {limit : Nat}
  {queue : List (String × Values)} {progress progress' : Pass.Progress ρ} {op : Operation}

omit [RandomSource ρ] in
theorem LogsTo.refl (s : Session ρ σ) : s.LogsTo [] s := ⟨rfl, .nil⟩

omit [RandomSource ρ] in
theorem LogsTo.append (h : s.LogsTo ts s') (h' : s'.LogsTo us s'') : s.LogsTo (ts ++ us) s'' :=
  ⟨h'.game.trans h.game, h.logs.append (h.game ▸ h'.logs)⟩

omit [RandomSource ρ] in
/-- Without trials the records stay and the clock does not move. -/
theorem Abreast.logsTo (h : s.Abreast t) : s.LogsTo [] t := by
  refine ⟨h.game, ?_⟩
  rw [h.records, h.clock]
  exact .nil

/-! ## Triggers -/

/-- Triggers that are handled to the end are handed to the rules, and those rules are listed that
have fired. -/
theorem handleTriggers_hands {fired : List String}
    (h : handleTriggers limit queue s = .ok (fired, s')) :
    Hands limit queue s (triggerTrials limit queue s) s' ∧
      fired = Trial.fired (triggerTrials limit queue s) := by
  induction limit generalizing queue s fired with
  | zero =>
    obtain ⟨rfl, rfl⟩ := Prod.mk.inj (Except.ok.inj h)
    exact ⟨.limit, rfl⟩
  | succ limit ih =>
    rcases queue with _ | ⟨⟨event, params⟩, queue⟩
    · obtain ⟨rfl, rfl⟩ := Prod.mk.inj (Except.ok.inj h)
      exact ⟨.empty, rfl⟩
    · rw [handleTriggers_cons] at h
      obtain ⟨progress, hdeliver, h⟩ := Outcome.bind_eq_ok_iff.mp h
      obtain ⟨⟨fired', t⟩, hlater, h⟩ := Outcome.bind_eq_ok_iff.mp h
      obtain ⟨rfl, rfl⟩ := Prod.mk.inj (Except.ok.inj h)
      have htries := Pass.run_tries hdeliver
      -- The queue that is left already has what this event has triggered at its end.
      obtain ⟨hhands, hfired⟩ := ih hlater
      rw [triggerTrials, hdeliver, Outcome.listed_ok, Trial.fired_append, ← hfired]
      refine ⟨.trigger htries hhands, ?_⟩
      exact congrArg (· ++ fired') htries.fired_eq

namespace Hands

/-- What is handed to the rules is handled to the end. -/
theorem handleTriggers (h : Hands limit queue s ts s') :
    ∃ fired, Session.handleTriggers limit queue s = .ok (fired, s') := by
  induction h with
  | limit | empty => exact ⟨[], rfl⟩
  | @trigger _ event params _ s _ progress _ s' htries _ ih =>
    obtain ⟨fired, hlater⟩ := ih
    have hdeliver : s.deliver event params = .ok progress := htries.run
    refine ⟨progress.fired ++ fired, ?_⟩
    rw [handleTriggers_cons, hdeliver, Outcome.ok_bind, hlater]
    rfl

theorem plays (h : Hands limit queue s ts s') : s.Plays s' := by
  obtain ⟨fired, hhandles⟩ := h.handleTriggers
  exact handleTriggers_plays hhandles

theorem logsTo (h : Hands limit queue s ts s') : s.LogsTo ts s' := by
  induction h with
  | limit | empty => exact .refl _
  | @trigger _ event params _ s ts progress _ _ htries _ ih =>
    have hdeliver : s.deliver event params = .ok progress := htries.run
    -- The rules of an event go by the tick, and no action moves the clock.
    have hclock := (afterDelivery_plays hdeliver).world.clock_eq
    have hfirst : s.LogsTo ts (s.afterDelivery progress) := by
      refine ⟨rfl, ?_⟩
      rw [hclock]
      exact htries.logs (List.Subset.refl _) rfl
    exact hfirst.append ih

/-- Only rules of events are tried while triggers are handled. -/
theorem mem {u : Trial} (h : Hands limit queue s ts s') (hu : u ∈ ts) :
    u.rule ∈ s.game.rules ∧ u.rule.timing = .event := by
  induction h with
  | limit | empty => cases hu
  | trigger htries _ ih =>
    rcases List.mem_append.mp hu with hu | hu
    · obtain ⟨hrule, hadmitted, -⟩ := htries.mem hu
      exact ⟨hrule, of_decide_eq_true (Bool.and_eq_true_iff.mp hadmitted).1⟩
    · exact ih hu

end Hands

/-! ## Ticks -/

theorem secondTries_of_run
    (h : (match s.closing? with
      | some second =>
        (Pass.second second).run (s.surroundings Table.empty) s.game.rules progress
      | none => .ok progress) = .ok progress') :
    s.SecondTries progress (s.secondTrials progress) progress' := by
  unfold secondTrials
  rcases hclosing : s.closing? with _ | second
  · rw [hclosing] at h
    obtain rfl := Except.ok.inj h
    exact .within hclosing
  · rw [hclosing] at h
    exact .closes hclosing (Pass.run_tries h)

namespace SecondTries

theorem fired_eq (h : s.SecondTries progress ts progress') :
    progress'.fired = progress.fired ++ Trial.fired ts := by
  cases h with
  | within => exact (List.append_nil _).symm
  | closes _ htries => exact htries.fired_eq

theorem logs (h : s.SecondTries progress ts progress') :
    s.game.Logs progress.records s.world.clock ts progress'.records s.world.clock := by
  cases h with
  | within => exact .nil
  | @closes second _ _ hclosing htries =>
    refine htries.logs (List.Subset.refl _) ?_
    unfold closing? Clock.closing? at hclosing
    split at hclosing
    · exact (Option.some.inj hclosing).symm
    · cases hclosing

theorem mem {u : Trial} (h : s.SecondTries progress ts progress') (hu : u ∈ ts) :
    u.rule ∈ s.game.rules ∧ u.rule.timing = .second := by
  cases h with
  | within => cases hu
  | closes _ htries =>
    obtain ⟨hrule, hadmitted, -⟩ := htries.mem hu
    exact ⟨hrule, of_decide_eq_true hadmitted⟩

end SecondTries

/-- The passes of a tick are run when its rules are tried and the phase is looked up. -/
theorem runPasses_of_tries {update : Phase.Update ρ}
    (htick : (Pass.tick s.world.clock.tick).Tries (s.surroundings Table.empty) s.game.rules s.ahead
      ts progress)
    (hsecond : s.SecondTries progress us progress')
    (hphase : Phase.update (s.surroundings Table.empty) s.game.phases s.phase progress'.scope =
      .ok update) : s.runPasses = .ok (progress', update) := by
  rw [runPasses_eq, firePasses, htick.run, Outcome.ok_bind]
  cases hsecond with
  | within hclosing =>
    rw [hclosing]
    dsimp only
    rw [Outcome.ok_bind, hphase, Outcome.ok_bind]
  | closes hclosing htries =>
    rw [hclosing]
    dsimp only
    rw [htries.run, Outcome.ok_bind, hphase, Outcome.ok_bind]

omit [RandomSource ρ] in
theorem LogsTo.advance (h : s.LogsTo ts s') : s.LogsTo ts s'.advanceClock := by
  have hadvance : s'.LogsTo [] s'.advanceClock := ⟨rfl, .advance .nil⟩
  have hall := h.append hadvance
  rwa [List.append_nil] at hall

variable [SaveStore σ]

theorem LogsTo.autosave (h : s.LogsTo ts s') : s.LogsTo ts s'.autosave := by
  have hrecords : s'.autosave.records = s'.records := by
    unfold Session.autosave
    split <;> rfl
  refine ⟨autosave_game.trans h.game, ?_⟩
  rw [hrecords, autosave_world]
  exact h.logs

theorem LogsTo.tickEnding (h : s.LogsTo ts t) : s.LogsTo ts (s.tickEnding t) := by
  unfold Session.tickEnding
  split
  · exact h.advance.autosave
  · exact h.advance

/-- A tick that comes to its end tries rules, and lists those that have fired. -/
theorem step_tries {summary : TickSummary} (h : s.step = .ok (summary, s')) :
    s.TickTries s.stepTrials s' ∧ summary.fired = Trial.fired s.stepTrials := by
  rw [step_eq] at h
  obtain ⟨⟨progress, update⟩, hrun, h⟩ := Outcome.bind_eq_ok_iff.mp h
  obtain ⟨⟨fired, t⟩, hsettle, h⟩ := Outcome.bind_eq_ok_iff.mp h
  obtain ⟨rfl, rfl⟩ := Prod.mk.inj (Except.ok.inj h)
  rw [stepTrials, hrun, Outcome.listed_ok]
  rw [runPasses_eq] at hrun
  obtain ⟨progress', hpasses, hrun⟩ := Outcome.bind_eq_ok_iff.mp hrun
  obtain ⟨update', hphase, hrun⟩ := Outcome.bind_eq_ok_iff.mp hrun
  obtain ⟨rfl, rfl⟩ := Prod.mk.inj (Except.ok.inj hrun)
  obtain ⟨progress₁, hfirst, hrest⟩ := Outcome.bind_eq_ok_iff.mp hpasses
  -- The passes, the update of the phase and the triggers each go on from the one before.
  have htick := Pass.run_tries hfirst
  have hsecond := secondTries_of_run hrest
  obtain ⟨hhands, hfired⟩ := handleTriggers_hands hsettle
  rw [passTrials, hfirst, Outcome.listed_ok]
  refine ⟨.of_parts htick hsecond hphase hhands, ?_⟩
  have hticked : progress₁.fired = Trial.fired _ := htick.fired_eq
  dsimp only
  rw [hsecond.fired_eq, hticked, hfired, Trial.fired_append, Trial.fired_append]
  rfl

theorem steps_try {n : Nat} (h : steps n s = .ok s') : TicksTry n s (stepsTrials n s) s' := by
  induction n generalizing s with
  | zero =>
    obtain rfl := Except.ok.inj h
    exact .zero
  | succ n ih =>
    rw [steps] at h
    obtain ⟨⟨summary, t⟩, hstep, h⟩ := Outcome.bind_eq_ok_iff.mp h
    rw [stepsTrials, hstep, Outcome.listed_ok]
    exact .succ (step_tries hstep).1 (ih h)

namespace TickTries

/-- A tick that tries rules so comes to its end. -/
theorem step (h : s.TickTries ts s') : ∃ summary, s.step = .ok (summary, s') := by
  cases h with
  | of_parts htick hsecond hphase hhands =>
    obtain ⟨fired, hhandles⟩ := hhands.handleTriggers
    rw [step_eq, runPasses_of_tries htick hsecond hphase, Outcome.ok_bind]
    dsimp only
    rw [settle, hhandles, Outcome.ok_bind]
    exact ⟨_, rfl⟩

theorem logsTo (h : s.TickTries ts s') : s.LogsTo ts s' := by
  cases h with
  | @of_parts _ progress update ts us _ _ htick hsecond hphase hhands =>
    have hclock : ((s.afterPasses progress update).afterRun update.scope).world.clock =
        s.world.clock :=
      (runPasses_changes (runPasses_of_tries htick hsecond hphase)).clock_eq
    have hfirst : s.game.Logs s.records s.world.clock ts _ s.world.clock :=
      htick.logs (List.Subset.refl _) rfl
    -- The update of the phase comes between the passes and the triggers and tries no rules.
    have hpasses : s.LogsTo (ts ++ us) ((s.afterPasses progress update).afterRun update.scope) := by
      refine ⟨rfl, ?_⟩
      rw [hclock]
      exact hfirst.append hsecond.logs
    exact (hpasses.append hhands.logsTo).tickEnding

end TickTries

namespace TicksTry

variable {n : Nat}

theorem steps (h : TicksTry n s ts s') : Session.steps n s = .ok s' := by
  induction h with
  | zero => rfl
  | succ h _ ih =>
    obtain ⟨summary, hstep⟩ := h.step
    rw [Session.steps, hstep, Outcome.ok_bind, ih]

theorem logsTo (h : TicksTry n s ts s') : s.LogsTo ts s' := by
  induction h with
  | zero => exact .refl _
  | succ h _ ih => exact h.logsTo.append ih

end TicksTry

/-- A session that runs makes a tick when it is told to, and another one stays as it is. -/
theorem tick_ok {summary : Option TickSummary} (h : s.tick = .ok (summary, s')) :
    (s.running ∧ ∃ done, s.step = .ok (done, s') ∧ summary = some done) ∨
      ¬ s.running ∧ summary = none ∧ s' = s := by
  unfold tick at h
  split at h
  · rename_i hrunning
    obtain ⟨⟨done, t⟩, hstep, h⟩ := Outcome.bind_eq_ok_iff.mp h
    obtain ⟨rfl, rfl⟩ := Prod.mk.inj (Except.ok.inj h)
    exact .inl ⟨hrunning, done, hstep, rfl⟩
  · rename_i hstopped
    obtain ⟨rfl, rfl⟩ := Prod.mk.inj (Except.ok.inj h)
    exact .inr ⟨hstopped, rfl, rfl⟩

theorem catchUp_ok {n m : Nat} (h : s.catchUp n = .ok (m, s')) :
    (s.running ∧ steps n s = .ok s') ∨ ¬ s.running ∧ s' = s := by
  unfold catchUp at h
  split at h
  · rename_i hrunning
    obtain ⟨t, hsteps, h⟩ := Outcome.bind_eq_ok_iff.mp h
    obtain ⟨-, rfl⟩ := Prod.mk.inj (Except.ok.inj h)
    exact .inl ⟨hrunning, hsteps⟩
  · rename_i hstopped
    obtain ⟨-, rfl⟩ := Prod.mk.inj (Except.ok.inj h)
    exact .inr ⟨hstopped, rfl⟩

/-- A session that runs lets as many ticks pass as it is told to. -/
theorem apply_catchUp {n : Nat} (hrunning : s.running) (h : steps n s = .ok s') :
    s.apply (.play (.catchUp n)) = .ok (.count n, s') := by
  have hcatchUp : s.catchUp n = .ok (n, s') := by
    rw [catchUp, if_pos hrunning, h]
    rfl
  exact Outcome.map_fst_eq_ok_iff.mpr ⟨n, hcatchUp, rfl⟩

/-! ## Calls -/

omit [SaveStore σ] in
/-- What a call does before it hands triggers to the rules tries no rules. -/
theorem Prepares.abreast (h : s.Prepares op t queue) : s.Abreast t := by
  cases h with
  | function hfunction hrun =>
    have hchanges := (Game.Lists.function hfunction).changes rfl hrun
    exact ⟨rfl, rfl, hchanges.clock_eq⟩
  | event => exact ⟨rfl, rfl, rfl⟩
  | project hproject hpurchase =>
    have hchanges := Project.purchase_changes (project?_mem hproject) rfl hpurchase
    exact ⟨rfl, rfl, hchanges.clock_eq⟩

theorem perform_course {name : String} {params : Values} {known : Bool}
    (h : s.perform name params = .ok (known, s')) :
    s.Course (.play (.perform name params)) (s.performTrials name params) s' := by
  rcases hfunction : s.game.function? name with _ | actions
  · rw [perform, hfunction] at h
    obtain ⟨-, rfl⟩ := Prod.mk.inj (Except.ok.inj h)
    rw [performTrials, hfunction]
    exact .idle
  · rw [perform, hfunction] at h
    obtain ⟨scope, hrun, h⟩ := Outcome.bind_eq_ok_iff.mp h
    obtain ⟨⟨fired, t⟩, hsettle, h⟩ := Outcome.bind_eq_ok_iff.mp h
    obtain ⟨-, rfl⟩ := Prod.mk.inj (Except.ok.inj h)
    rw [performTrials, hfunction]
    dsimp only
    rw [hrun, Outcome.listed_ok]
    exact .triggers (.function hfunction hrun) (handleTriggers_hands hsettle).1

theorem purchase_course {id : String} {bought : Bool} (h : s.purchase id = .ok (bought, s')) :
    s.Course (.play (.purchase id)) (s.purchaseTrials id) s' := by
  rcases hproject : s.game.project? id with _ | p
  · rw [purchase, hproject] at h
    obtain ⟨-, rfl⟩ := Prod.mk.inj (Except.ok.inj h)
    rw [purchaseTrials, hproject]
    exact .idle
  · rw [purchase, hproject] at h
    obtain ⟨result, hpurchase, h⟩ := Outcome.bind_eq_ok_iff.mp h
    rw [purchaseTrials, hproject]
    dsimp only
    rw [hpurchase, Outcome.listed_ok]
    rcases result with _ | ⟨uses, scope⟩
    · obtain ⟨-, rfl⟩ := Prod.mk.inj (Except.ok.inj h)
      exact .idle
    · obtain ⟨⟨fired, t⟩, hsettle, h⟩ := Outcome.bind_eq_ok_iff.mp h
      obtain ⟨-, rfl⟩ := Prod.mk.inj (Except.ok.inj h)
      exact .triggers (.project hproject hpurchase) (handleTriggers_hands hsettle).1

/-- A call that neither resets nor loads tries rules in one of these ways. -/
theorem apply_course {a : Answer} (hop : ¬ op.restarts) (h : s.apply op = .ok (a, s')) :
    s.Course op (s.trials op) s' := by
  cases op with
  | play move =>
    cases move with
    | tick =>
      obtain ⟨summary, htick, -⟩ := Outcome.map_fst_eq_ok_iff.mp h
      rcases tick_ok htick with ⟨hrunning, done, hstep, -⟩ | ⟨hstopped, -, rfl⟩
      · rw [trials, if_pos hrunning]
        exact .tick (step_tries hstep).1
      · rw [trials, if_neg hstopped]
        exact .idle
    | catchUp n =>
      obtain ⟨m, hcatchUp, -⟩ := Outcome.map_fst_eq_ok_iff.mp h
      rcases catchUp_ok hcatchUp with ⟨hrunning, hsteps⟩ | ⟨hstopped, rfl⟩
      · rw [trials, if_pos hrunning]
        exact .ticks (steps_try hsteps)
      · rw [trials, if_neg hstopped]
        exact .idle
    | perform name params =>
      obtain ⟨known, hperform, -⟩ := Outcome.map_fst_eq_ok_iff.mp h
      exact perform_course hperform
    | trigger event params =>
      obtain ⟨fired, htrigger, -⟩ := Outcome.map_fst_eq_ok_iff.mp h
      exact .triggers .event (handleTriggers_hands htrigger).1
    | purchase id =>
      obtain ⟨bought, hpurchase, -⟩ := Outcome.map_fst_eq_ok_iff.mp h
      exact purchase_course hpurchase
    | start | stop | set id v | spawn kind properties | modify id properties | remove id =>
      obtain ⟨-, rfl⟩ := Prod.mk.inj (Except.ok.inj h)
      exact .rest nofun ⟨rfl, rfl, rfl⟩
    | reset => exact (hop rfl).elim
  | ask query =>
    obtain ⟨a', -, h⟩ := Outcome.bind_eq_ok_iff.mp h
    obtain ⟨-, rfl⟩ := Prod.mk.inj (Except.ok.inj h)
    exact .idle
  | messages | takeMessages | takeEvents | save slot | hasSave slot | clearSave slot =>
    obtain ⟨-, rfl⟩ := Prod.mk.inj (Except.ok.inj h)
    exact .rest nofun ⟨rfl, rfl, rfl⟩
  | load slot => exact (hop rfl).elim

/-- The records and the clock after a call are those that its trials tell. -/
theorem Course.logsTo (h : s.Course op ts s') : s.LogsTo ts s' := by
  cases h with
  | idle => exact .refl _
  | rest _ h => exact h.logsTo
  | triggers hprepares hhands => exact hprepares.abreast.logsTo.append hhands.logsTo
  | tick h => exact h.logsTo
  | ticks h => exact h.logsTo

/-! ## Rules of ticks -/

/-- A rule is tried once at each tick between two sessions. -/
def TriedEachTick (r : Rule) (s : Session ρ σ) (ts : List Trial) (s' : Session ρ σ) : Prop :=
  ∃ n, s'.world.clock.tick = s.world.clock.tick + n ∧
    Trial.timesOf r.id ts = List.range' s.world.clock.tick n

variable {r : Rule}

omit [RandomSource ρ] [SaveStore σ] in
theorem triedEachTick_of_clock_eq (hclock : s'.world.clock = s.world.clock)
    (htimes : Trial.timesOf r.id ts = []) : TriedEachTick r s ts s' :=
  ⟨0, by rw [hclock]; rfl, htimes⟩

omit [RandomSource ρ] [SaveStore σ] in
theorem TriedEachTick.append (h : TriedEachTick r s ts s') (h' : TriedEachTick r s' us s'') :
    TriedEachTick r s (ts ++ us) s'' := by
  obtain ⟨m, hclock, htimes⟩ := h
  obtain ⟨n, hclock', htimes'⟩ := h'
  refine ⟨m + n, by rw [hclock', hclock, Nat.add_assoc], ?_⟩
  rw [Trial.timesOf_append, htimes, htimes', hclock, List.range'_append_1]

section

variable (hnodup : (s.game.rules.map Rule.id).Nodup) (hr : r ∈ s.game.rules)
  (htiming : r.timing = .tick)

include hnodup hr htiming

omit [RandomSource ρ] [SaveStore σ] in
theorem timesOf_eq_nil_of_timing (h : ∀ t ∈ ts, t.rule ∈ s.game.rules ∧ t.rule.timing ≠ .tick) :
    Trial.timesOf r.id ts = [] := by
  refine Trial.timesOf_eq_nil fun t ht hid => (h t ht).2 ?_
  rw [Game.rule_eq_of_id_eq hnodup (h t ht).1 hr hid, htiming]

omit [SaveStore σ] in
theorem SecondTries.timesOf_eq_nil (h : s.SecondTries progress ts progress') :
    Trial.timesOf r.id ts = [] := by
  refine timesOf_eq_nil_of_timing hnodup hr htiming fun u hu => ?_
  obtain ⟨hrule, hsecond⟩ := h.mem hu
  exact ⟨hrule, by simp [hsecond]⟩

omit [SaveStore σ] in
theorem Hands.timesOf_eq_nil (hgame : t.game = s.game) (h : Hands limit queue t ts s') :
    Trial.timesOf r.id ts = [] := by
  refine timesOf_eq_nil_of_timing hnodup hr htiming fun u hu => ?_
  obtain ⟨hrule, hevent⟩ := h.mem hu
  exact ⟨hgame ▸ hrule, by simp [hevent]⟩

/-- In a tick a rule of ticks is tried once. -/
theorem TickTries.triedEachTick (h : s.TickTries ts s') : TriedEachTick r s ts s' := by
  obtain ⟨summary, hstep⟩ := h.step
  refine ⟨1, ?_, ?_⟩
  · rw [(step_clock hstep).2.2, Clock.tick_advance]
  · cases h with
    | @of_parts _ progress update _ _ _ _ htick hsecond _ hhands =>
      have hadmitted : r.isAdmitted (.tick s.world.clock.tick) := decide_eq_true htiming
      have hgame : ((s.afterPasses progress update).afterRun update.scope).game = s.game := rfl
      rw [Trial.timesOf_append, Trial.timesOf_append, htick.timesOf_eq hnodup hr hadmitted,
        hsecond.timesOf_eq_nil hnodup hr htiming, hhands.timesOf_eq_nil hnodup hr htiming hgame]
      rfl

theorem TicksTry.triedEachTick {n : Nat} (h : TicksTry n s ts s') :
    TriedEachTick r s ts s' := by
  induction h with
  | zero => exact triedEachTick_of_clock_eq rfl rfl
  | succ h _ ih =>
    have hgame := h.logsTo.game
    exact (h.triedEachTick hnodup hr htiming).append (ih (hgame ▸ hnodup) (hgame ▸ hr))

/-- In a call a rule of ticks is tried once at every tick. -/
theorem Course.triedEachTick (h : s.Course op ts s') : TriedEachTick r s ts s' := by
  cases h with
  | idle => exact triedEachTick_of_clock_eq rfl rfl
  | rest _ h => exact triedEachTick_of_clock_eq h.clock rfl
  | triggers hprepares hhands =>
    have hclock := hhands.plays.world.clock_eq.trans hprepares.abreast.clock
    exact triedEachTick_of_clock_eq hclock
      (hhands.timesOf_eq_nil hnodup hr htiming hprepares.abreast.game)
  | tick h => exact h.triedEachTick hnodup hr htiming
  | ticks h => exact h.triedEachTick hnodup hr htiming

end

end Session

end IdleGame
