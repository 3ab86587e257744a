import IdleGame.Proofs.Session.Deed
import IdleGame.Proofs.Session.History
import IdleGame.Proofs.Session.Trial

/-!
# What is done in calls of a session

A call that runs actions begins with a pass of its own: the rules of a tick and the entry of a
phase, a function, or what a project does. Then triggers are delivered: one that is given from
outside, and those that have been queued. A tick ends with the clock.

## Main definitions

* `Session.ownPass` - the session after the call's own pass, and the triggers that wait by then
* `Session.ownDeeds`, `Session.handed` - what is done in that pass, and the deliveries after it
* `Session.SettlesTo` - where it leads to handle the triggers that wait after that pass
* `Session.deeds`, `Session.births` - what is done in a call, and the entities that it creates

## Main results

* `Session.ownPass_does` - where the own pass of a call leads, and which triggers wait then
* `Session.apply_settles` - a call goes through its own pass and then handles the triggers
* `Session.apply_events` - a call adds the events that are emitted in it
* `Session.apply_log` - a call writes the messages of what is done in it
* `Session.apply_grows` - a call takes the ids of the entities that it creates
-/

namespace IdleGame

variable {ρ σ : Type} [RandomSource ρ]

namespace Operation

/-- The trigger that a call is given. -/
def given : Operation → List (String × Values)
  | .play (.trigger event params) => [(event, params)]
  | _ => []

end Operation

namespace Session

/-- What is done in the passes of a tick and on entry of a phase. -/
def tickDeeds (s : Session ρ σ) : List (Deed ρ) :=
  let env := s.surroundings Table.empty
  let pass := Pass.tick s.world.clock.tick
  pass.deeds env s.game.rules s.ahead ++
    (Outcome.listed (pass.run env s.game.rules s.ahead) fun progress =>
      match s.closing? with
      | some second => (Pass.second second).deeds env s.game.rules progress
      | none => []) ++
    Outcome.listed s.firePasses fun progress =>
      Phase.entryDeeds env s.game.phases s.phase progress.scope

/-- The session after the passes of a tick, and the triggers that wait by then. -/
def ownTick (s : Session ρ σ) : Except Fault (Session ρ σ × List (String × Values)) :=
  s.runPasses >>= fun (progress, update) =>
    .ok ((s.afterPasses progress update).afterRun update.scope, update.scope.effects.triggers)

/-- What is done in the own pass of a call. -/
def ownDeeds (s : Session ρ σ) : Operation → List (Deed ρ)
  | .play .tick => if s.running then s.tickDeeds else []
  | .play (.perform name params) =>
    match s.game.function? name with
    | some actions => Action.deedsOfAll (s.surroundings params) none actions s.scope
    | none => []
  | .play (.purchase id) =>
    match s.game.project? id with
    | some p => p.effectDeeds (s.surroundings Table.empty) s.uses s.scope
    | none => []
  | _ => []

/-- The session after the own pass of a call, and the triggers that wait by then. -/
def ownPass (s : Session ρ σ) : Operation → Except Fault (Session ρ σ × List (String × Values))
  | .play .tick => if s.running then s.ownTick else .ok (s, [])
  | .play (.perform name params) =>
    match s.game.function? name with
    | some actions =>
      Action.runAll (s.surroundings params) none actions s.scope >>= fun scope =>
        .ok (s.afterRun scope, scope.effects.triggers)
    | none => .ok (s, [])
  | .play (.trigger event params) => .ok (s, [(event, params)])
  | .play (.purchase id) =>
    match s.game.project? id with
    | some p =>
      p.purchase (s.surroundings Table.empty) s.uses s.scope >>= fun
        | some (uses, scope) => .ok ({ s with uses }.afterRun scope, scope.effects.triggers)
        | none => .ok (s, [])
    | none => .ok (s, [])
  | _ => .ok (s, [])

/-- The session at the end of a call, once its triggers have been delivered. -/
def ending [SaveStore σ] (s : Session ρ σ) (op : Operation) (t : Session ρ σ) : Session ρ σ :=
  match op with
  | .play .tick => if s.running then s.tickEnding t else t
  | _ => t

/-- The deliveries after the own pass of a call. -/
def handed (x : Except Fault (Session ρ σ × List (String × Values))) : List (Delivery ρ σ) :=
  Outcome.listed x fun (t, queue) => deliveries triggerLimit queue t

/-- The triggers that wait after the own pass of a call are handled, and lead to a session. -/
def SettlesTo (x : Except Fault (Session ρ σ × List (String × Values))) (s' : Session ρ σ) : Prop :=
  ∃ t queue fired, x = .ok (t, queue) ∧ handleTriggers triggerLimit queue t = .ok (fired, s')

/-- What is done in ticks, one after the other. -/
def ticksDeeds [SaveStore σ] : Nat → Session ρ σ → List (Deed ρ)
  | 0, _ => []
  | n + 1, s =>
    s.tickDeeds ++ (handed s.ownTick).flatMap Delivery.deeds ++
      Outcome.listed s.step fun (_, s') => ticksDeeds n s'

/-- What is done in a call. -/
def deeds [SaveStore σ] (s : Session ρ σ) : Operation → List (Deed ρ)
  | .play (.catchUp n) => if s.running then ticksDeeds n s else []
  | op => s.ownDeeds op ++ (handed (s.ownPass op)).flatMap Delivery.deeds

/-- The entities that a call creates. -/
def births [SaveStore σ] (s : Session ρ σ) : Operation → List Birth
  | .play (.spawn kind properties) => [s.world.population.birth kind properties]
  | op => (s.deeds op).flatMap Deed.births

variable {s s' t : Session ρ σ} {op : Operation} {queue : List (String × Values)} {a : Answer}

/-! ## Own passes -/

theorem tickDeeds_leads {progress : Pass.Progress ρ} {update : Phase.Update ρ}
    (h : s.runPasses = .ok (progress, update)) : s.scope.Leads s.tickDeeds update.scope := by
  rw [runPasses_eq] at h
  obtain ⟨progress', hpasses, h⟩ := Outcome.bind_eq_ok_iff.mp h
  obtain ⟨update', hupdate, h⟩ := Outcome.bind_eq_ok_iff.mp h
  obtain ⟨rfl, rfl⟩ := Prod.mk.inj (Except.ok.inj h)
  have hentry := Phase.entryDeeds_leads hupdate
  rw [tickDeeds, hpasses, Outcome.listed_ok]
  refine Scope.Leads.append ?_ hentry
  obtain ⟨progress₁, htick, hsecond⟩ := Outcome.bind_eq_ok_iff.mp hpasses
  have hfirst : s.scope.Leads _ progress₁.scope := Pass.deeds_leads htick
  rw [htick, Outcome.listed_ok]
  refine hfirst.append ?_
  rcases hclosing : s.closing? with _ | second
  · rw [hclosing] at hsecond
    obtain rfl := Except.ok.inj hsecond
    exact .refl
  · rw [hclosing] at hsecond
    exact Pass.deeds_leads hsecond

theorem ownTick_does (h : s.ownTick = .ok (t, queue)) :
    s.Does s.tickDeeds t ∧ queue = s.tickDeeds.flatMap Deed.queued := by
  obtain ⟨⟨progress, update⟩, hrun, h⟩ := Outcome.bind_eq_ok_iff.mp h
  obtain ⟨rfl, rfl⟩ := Prod.mk.inj (Except.ok.inj h)
  have hleads := tickDeeds_leads hrun
  exact ⟨does_of_leads hleads rfl rfl, hleads.brings.triggers⟩

/-- The own pass of a call leads where its deeds do. Then those triggers wait that the call has been
given or its deeds have queued. -/
theorem ownPass_does (h : s.ownPass op = .ok (t, queue)) :
    s.Does (s.ownDeeds op) t ∧ queue = op.given ++ (s.ownDeeds op).flatMap Deed.queued := by
  -- Where a call has no own pass, the session is as it was and nothing waits.
  have hrest (h : Except.ok (s, []) = (.ok (t, queue) : Except Fault _)) :
      s.Does [] t ∧ queue = [] := by
    obtain ⟨rfl, rfl⟩ := Prod.mk.inj (Except.ok.inj h)
    exact ⟨.of_eq rfl rfl rfl, rfl⟩
  cases op with
  | play move =>
    cases move with
    | tick =>
      by_cases hrunning : s.running
      · rw [ownPass, if_pos hrunning] at h
        rw [ownDeeds, if_pos hrunning]
        exact ownTick_does h
      · rw [ownPass, if_neg hrunning] at h
        rw [ownDeeds, if_neg hrunning]
        exact hrest h
    | perform name params =>
      rw [ownDeeds]
      rcases hfunction : s.game.function? name with _ | actions
      · rw [ownPass, hfunction] at h
        exact hrest h
      · rw [ownPass, hfunction] at h
        obtain ⟨scope, hrun, h⟩ := Outcome.bind_eq_ok_iff.mp h
        obtain ⟨rfl, rfl⟩ := Prod.mk.inj (Except.ok.inj h)
        have hleads := Action.deedsOfAll_leads hrun
        exact ⟨does_of_leads hleads rfl rfl, hleads.brings.triggers⟩
    | trigger event params =>
      obtain ⟨rfl, rfl⟩ := Prod.mk.inj (Except.ok.inj h)
      exact ⟨.of_eq rfl rfl rfl, rfl⟩
    | purchase id =>
      rw [ownDeeds]
      rcases hproject : s.game.project? id with _ | p
      · rw [ownPass, hproject] at h
        exact hrest h
      · rw [ownPass, hproject] at h
        obtain ⟨_ | ⟨uses, scope⟩, hpurchase, h⟩ := Outcome.bind_eq_ok_iff.mp h
        · dsimp only
          rw [Project.effectDeeds_refused hpurchase]
          exact hrest h
        · obtain ⟨rfl, rfl⟩ := Prod.mk.inj (Except.ok.inj h)
          have hleads := Project.effectDeeds_leads hpurchase
          exact ⟨does_of_leads hleads rfl rfl, hleads.brings.triggers⟩
    | _ => exact hrest h
  | _ => exact hrest h

/-! ## Calls -/

/-- What is handed to the rules after an own pass leads on from there. -/
theorem SettlesTo.delivers {x : Except Fault (Session ρ σ × List (String × Values))}
    (h : SettlesTo x s') :
    ∃ t queue, x = .ok (t, queue) ∧ t.Delivers (handed x) s' ∧
      (handed x).map Delivery.trigger =
        (queue ++ (handed x).flatMap Delivery.queued).take triggerLimit := by
  obtain ⟨t, queue, fired, rfl, hhandles⟩ := h
  rw [handed, Outcome.listed_ok]
  exact ⟨t, queue, rfl, handleTriggers_delivers hhandles⟩

theorem SettlesTo.rest (s : Session ρ σ) : SettlesTo (.ok (s, [])) s := ⟨s, [], [], rfl, rfl⟩

theorem length_handed_le {x : Except Fault (Session ρ σ × List (String × Values))} :
    (handed x).length ≤ triggerLimit := by
  unfold handed
  rcases x with f | ⟨t, queue⟩
  · exact Nat.zero_le _
  · exact length_deliveries_le

/-- What is handed to the rules, also up to a fault, comes first among the triggers that the call
was given and those that have been queued. -/
theorem handed_prefix :
    (handed (s.ownPass op)).map Delivery.trigger <+:
      (op.given ++ (s.ownDeeds op).flatMap Deed.queued ++
        (handed (s.ownPass op)).flatMap Delivery.queued).take triggerLimit := by
  rcases hpass : s.ownPass op with f | ⟨t, queue⟩
  · exact List.nil_prefix
  · rw [← (ownPass_does hpass).2]
    exact deliveries_prefix

theorem perform_settles {name : String} {params : Values} {known : Bool}
    (h : s.perform name params = .ok (known, s')) :
    SettlesTo (s.ownPass (.play (.perform name params))) s' := by
  rw [ownPass]
  rcases hfunction : s.game.function? name with _ | actions
  · rw [perform, hfunction] at h
    obtain ⟨-, rfl⟩ := Prod.mk.inj (Except.ok.inj h)
    exact .rest s
  · rw [perform, hfunction] at h
    obtain ⟨scope, hrun, h⟩ := Outcome.bind_eq_ok_iff.mp h
    obtain ⟨⟨fired, t⟩, hsettle, h⟩ := Outcome.bind_eq_ok_iff.mp h
    obtain ⟨-, rfl⟩ := Prod.mk.inj (Except.ok.inj h)
    dsimp only
    rw [hrun, Outcome.ok_bind]
    exact ⟨_, _, fired, rfl, hsettle⟩

theorem purchase_settles {id : String} {bought : Bool} (h : s.purchase id = .ok (bought, s')) :
    SettlesTo (s.ownPass (.play (.purchase id))) s' := by
  rw [ownPass]
  rcases hproject : s.game.project? id with _ | p
  · rw [purchase, hproject] at h
    obtain ⟨-, rfl⟩ := Prod.mk.inj (Except.ok.inj h)
    exact .rest s
  · rw [purchase, hproject] at h
    obtain ⟨result, hsold, h⟩ := Outcome.bind_eq_ok_iff.mp h
    dsimp only
    rw [hsold, Outcome.ok_bind]
    rcases result with _ | ⟨uses, scope⟩
    · obtain ⟨-, rfl⟩ := Prod.mk.inj (Except.ok.inj h)
      exact .rest s
    · obtain ⟨⟨fired, t⟩, hsettle, h⟩ := Outcome.bind_eq_ok_iff.mp h
      obtain ⟨-, rfl⟩ := Prod.mk.inj (Except.ok.inj h)
      exact ⟨_, _, fired, rfl, hsettle⟩

variable [SaveStore σ]

theorem step_settles {summary : TickSummary} (h : s.step = .ok (summary, s')) :
    ∃ t, SettlesTo s.ownTick t ∧ s' = s.tickEnding t := by
  rw [step_eq] at h
  obtain ⟨⟨progress, update⟩, hrun, h⟩ := Outcome.bind_eq_ok_iff.mp h
  obtain ⟨⟨fired, t⟩, hsettle, h⟩ := Outcome.bind_eq_ok_iff.mp h
  obtain ⟨-, rfl⟩ := Prod.mk.inj (Except.ok.inj h)
  refine ⟨t, ?_, rfl⟩
  rw [ownTick, hrun, Outcome.ok_bind]
  exact ⟨_, _, fired, rfl, hsettle⟩

/-- A call that delivers triggers goes through its own pass, then handles the triggers that wait,
and ends. -/
theorem apply_settles (hop : op.settles) (h : s.apply op = .ok (a, s')) :
    ∃ t, SettlesTo (s.ownPass op) t ∧ s' = s.ending op t := by
  cases op with
  | play move =>
    cases move with
    | tick =>
      obtain ⟨summary, htick, -⟩ := Outcome.map_fst_eq_ok_iff.mp h
      simp only [ownPass, ending]
      rcases tick_ok htick with ⟨hrunning, done, hstep, -⟩ | ⟨hstopped, -, rfl⟩
      · simp only [if_pos hrunning]
        exact step_settles hstep
      · simp only [if_neg hstopped]
        exact ⟨s', .rest s', rfl⟩
    | perform name params =>
      obtain ⟨known, hperform, -⟩ := Outcome.map_fst_eq_ok_iff.mp h
      exact ⟨s', perform_settles hperform, rfl⟩
    | trigger event params =>
      obtain ⟨fired, htrigger, -⟩ := Outcome.map_fst_eq_ok_iff.mp h
      exact ⟨s', ⟨s, [(event, params)], fired, rfl, htrigger⟩, rfl⟩
    | purchase id =>
      obtain ⟨bought, hpurchase, -⟩ := Outcome.map_fst_eq_ok_iff.mp h
      exact ⟨s', purchase_settles hpurchase, rfl⟩
    | _ => cases hop
  | _ => cases hop

/-- The end of a tick does nothing more. -/
theorem tickEnding_does : t.Does [] (s.tickEnding t) := by
  unfold tickEnding
  by_cases hcloses : s.closing?.isSome
  · rw [if_pos hcloses]
    refine .of_eq autosave_events ?_ ?_ <;> rw [autosave_world] <;> rfl
  · rw [if_neg hcloses]
    exact .of_eq rfl rfl rfl

theorem ending_does : t.Does [] (s.ending op t) := by
  unfold ending
  split
  · by_cases hrunning : s.running
    · rw [if_pos hrunning]
      exact tickEnding_does
    · rw [if_neg hrunning]
      exact .of_eq rfl rfl rfl
  · exact .of_eq rfl rfl rfl

/-- A tick does what is done in its passes and in the deliveries after them. -/
theorem step_does {summary : TickSummary} (h : s.step = .ok (summary, s')) :
    s.Does (s.tickDeeds ++ (handed s.ownTick).flatMap Delivery.deeds) s' := by
  obtain ⟨t', hsettles, rfl⟩ := step_settles h
  obtain ⟨t, queue, hpass, hdelivers, -⟩ := hsettles.delivers
  have hpasses := (ownTick_does hpass).1
  have hdeliveries := hdelivers.does
  have hending : t'.Does [] (s.tickEnding t') := tickEnding_does
  have hall := (hpasses.append hdeliveries).append hending
  rwa [List.append_nil] at hall

theorem ticksDeeds_does {n : Nat} (h : steps n s = .ok s') : s.Does (ticksDeeds n s) s' := by
  induction n generalizing s with
  | zero =>
    obtain rfl := Except.ok.inj h
    exact .of_eq rfl rfl rfl
  | succ n ih =>
    rw [steps] at h
    obtain ⟨⟨summary, t⟩, hstep, h⟩ := Outcome.bind_eq_ok_iff.mp h
    rw [ticksDeeds, hstep, Outcome.listed_ok]
    exact (step_does hstep).append (ih h)

/-- A call that delivers triggers, or lets ticks pass, leads where its deeds do. -/
theorem deeds_does (hop : op.settles ∨ ∃ n, op = .play (.catchUp n))
    (h : s.apply op = .ok (a, s')) : s.Does (s.deeds op) s' := by
  rcases hop with hop | ⟨n, rfl⟩
  · obtain ⟨t', hsettles, rfl⟩ := apply_settles hop h
    obtain ⟨t, queue, hpass, hdelivers, -⟩ := hsettles.delivers
    have hown := (ownPass_does hpass).1
    have hdeliveries := hdelivers.does
    have hending : t'.Does [] (s.ending op t') := ending_does
    have hall := (hown.append hdeliveries).append hending
    rw [List.append_nil] at hall
    have hdeeds : s.deeds op =
        s.ownDeeds op ++ (handed (s.ownPass op)).flatMap Delivery.deeds := by
      cases op with
      | play move =>
        cases move with
        | catchUp => cases hop
        | _ => rfl
      | _ => rfl
    rwa [hdeeds]
  · obtain ⟨m, hcatchUp, -⟩ := Outcome.map_fst_eq_ok_iff.mp h
    rw [deeds]
    rcases catchUp_ok hcatchUp with ⟨hrunning, hsteps⟩ | ⟨hstopped, rfl⟩
    · rw [if_pos hrunning]
      exact ticksDeeds_does hsteps
    · rw [if_neg hstopped]
      exact .of_eq rfl rfl rfl

/-- Another call does nothing. -/
theorem deeds_eq_nil (hop : ¬ op.settles) (hcatchUp : ∀ n, op ≠ .play (.catchUp n)) :
    s.deeds op = [] := by
  cases op with
  | play move =>
    cases move with
    | tick | perform | trigger | purchase => exact (hop rfl).elim
    | catchUp n => exact (hcatchUp n rfl).elim
    | _ => rfl
  | _ => rfl

/-- A reset and a load go on from the start of the game or from a snapshot. -/
theorem apply_restarts (hop : op.restarts) (h : s.apply op = .ok (a, s')) :
    s' = s.reset ∨ ∃ shot, s' = s.restore shot := by
  cases op with
  | play move =>
    cases move with
    | reset =>
      obtain ⟨-, rfl⟩ := Prod.mk.inj (Except.ok.inj h)
      exact .inl rfl
    | _ => cases hop
  | load slot =>
    rw [apply_load] at h
    obtain ⟨-, rfl⟩ := Prod.mk.inj (Except.ok.inj h)
    rcases load_cases s slot with ⟨shot, -, hloaded⟩ | hloaded <;> rw [hloaded]
    · exact .inr ⟨shot, rfl⟩
    · exact .inl rfl
  | _ => cases hop

/-- Without actions that run, the events that wait and the messages stay as they are until they are
taken or dropped. -/
theorem apply_keeps (hop : ¬ op.restarts) (hsettles : ¬ op.settles)
    (hcatchUp : ∀ n, op ≠ .play (.catchUp n)) (h : s.apply op = .ok (a, s')) :
    (op = .takeEvents ∨ s'.events = s.events) ∧
      (op = .takeMessages ∨ s'.world.log = s.world.log) := by
  cases op with
  | play move =>
    cases move with
    | tick | perform | trigger | purchase => exact (hsettles rfl).elim
    | catchUp n => exact (hcatchUp n rfl).elim
    | reset => exact (hop rfl).elim
    | _ =>
      obtain ⟨-, rfl⟩ := Prod.mk.inj (Except.ok.inj h)
      exact ⟨.inr rfl, .inr rfl⟩
  | ask query =>
    obtain ⟨a', -, h⟩ := Outcome.bind_eq_ok_iff.mp h
    obtain ⟨-, rfl⟩ := Prod.mk.inj (Except.ok.inj h)
    exact ⟨.inr rfl, .inr rfl⟩
  | load slot => exact (hop rfl).elim
  | takeEvents =>
    obtain ⟨-, rfl⟩ := Prod.mk.inj (Except.ok.inj h)
    exact ⟨.inl rfl, .inr rfl⟩
  | takeMessages =>
    obtain ⟨-, rfl⟩ := Prod.mk.inj (Except.ok.inj h)
    exact ⟨.inr rfl, .inl rfl⟩
  | _ =>
    obtain ⟨-, rfl⟩ := Prod.mk.inj (Except.ok.inj h)
    exact ⟨.inr rfl, .inr rfl⟩

/-- A call adds the events that are emitted in it to those that wait, unless it takes or drops
them. -/
theorem apply_events (hop : ¬ op.restarts) (htake : op ≠ .takeEvents)
    (h : s.apply op = .ok (a, s')) :
    s'.events = s.events ++ (s.deeds op).flatMap Deed.emitted := by
  by_cases hdoes : op.settles ∨ ∃ n, op = .play (.catchUp n)
  · exact (deeds_does hdoes h).events
  · obtain ⟨hsettles, hcatchUp⟩ := not_or.mp hdoes
    rw [deeds_eq_nil hsettles fun n hn => hcatchUp ⟨n, hn⟩, List.flatMap_nil, List.append_nil]
    exact (apply_keeps hop hsettles (fun n hn => hcatchUp ⟨n, hn⟩) h).1.resolve_left htake

/-- A call writes the messages of what is done in it, unless it takes or drops messages. -/
theorem apply_log (hop : ¬ op.restarts) (htake : op ≠ .takeMessages)
    (h : s.apply op = .ok (a, s')) :
    s'.world.log = ((s.deeds op).flatMap Deed.logged).foldl MessageLog.push s.world.log := by
  by_cases hdoes : op.settles ∨ ∃ n, op = .play (.catchUp n)
  · exact (deeds_does hdoes h).log
  · obtain ⟨hsettles, hcatchUp⟩ := not_or.mp hdoes
    rw [deeds_eq_nil hsettles fun n hn => hcatchUp ⟨n, hn⟩]
    exact (apply_keeps hop hsettles (fun n hn => hcatchUp ⟨n, hn⟩) h).2.resolve_left htake

/-- A call takes the ids of the entities that it creates, and takes back none. -/
theorem apply_grows (h : s.apply op = .ok (a, s')) :
    s.world.population.Grows (s.births op) s'.world.population := by
  by_cases hdoes : op.settles ∨ ∃ n, op = .play (.catchUp n)
  · have hbirths : s.births op = (s.deeds op).flatMap Deed.births := by
      rcases hdoes with hop | ⟨n, rfl⟩
      · cases op with
        | play move =>
          cases move with
          | spawn => cases hop
          | _ => rfl
        | _ => rfl
      · rfl
    rw [hbirths]
    exact (deeds_does hdoes h).grows
  -- The other calls run no actions, but some of them edit the population themselves.
  · obtain ⟨hsettles, hcatchUp⟩ := not_or.mp hdoes
    cases op with
    | play move =>
      cases move with
      | tick | perform | trigger | purchase => exact (hsettles rfl).elim
      | catchUp n => exact (hcatchUp ⟨n, rfl⟩).elim
      | start | stop | set =>
        obtain ⟨-, rfl⟩ := Prod.mk.inj (Except.ok.inj h)
        exact .refl
      | spawn kind properties =>
        obtain ⟨-, rfl⟩ := Prod.mk.inj (Except.ok.inj h)
        exact .of_birth kind properties
      | modify id properties =>
        obtain ⟨-, rfl⟩ := Prod.mk.inj (Except.ok.inj h)
        exact .of_modify fun _ => rfl
      | remove id =>
        obtain ⟨-, rfl⟩ := Prod.mk.inj (Except.ok.inj h)
        exact .of_remove
      | reset =>
        obtain ⟨-, rfl⟩ := Prod.mk.inj (Except.ok.inj h)
        exact .of_clear
    | ask query =>
      obtain ⟨a', -, h⟩ := Outcome.bind_eq_ok_iff.mp h
      obtain ⟨-, rfl⟩ := Prod.mk.inj (Except.ok.inj h)
      exact .refl
    | load slot =>
      rw [apply_load] at h
      obtain ⟨-, rfl⟩ := Prod.mk.inj (Except.ok.inj h)
      -- The next id is kept whether the slot is loaded or the session reset.
      rcases load_cases s slot with ⟨shot, -, hloaded⟩ | hloaded <;> rw [hloaded]
      · exact .of_restore (Nat.le_max_right _ _)
      · exact .of_clear
    | _ =>
      obtain ⟨-, rfl⟩ := Prod.mk.inj (Except.ok.inj h)
      exact .refl

end Session

end IdleGame
