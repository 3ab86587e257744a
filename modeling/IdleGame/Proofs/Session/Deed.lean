import IdleGame.Proofs.Action.Deed
import IdleGame.Proofs.Session.Evaluation

/-!
# What is done in passes, purchases and deliveries

A pass does what the rules that fire do, an update of the phase what the entry of a new phase does,
and a purchase what its effects do. An event that is handed to the rules is delivered by a pass.
Triggers are delivered one after the other, and those that are queued meanwhile wait behind them.

## Main definitions

* `Pass.deeds`, `Phase.entryDeeds`, `Project.effectDeeds` - what is done
* `Session.Does` - deeds lead from one session to another
* `Delivery` - an event that is handed to the rules, and the session that it finds
* `Session.deliveries` - the deliveries while triggers are handled
* `Session.Delivers` - deliveries, one after the other, lead from one session to another

## Main results

* `Pass.deeds_leads`, `Phase.entryDeeds_leads`, `Project.effectDeeds_leads` - deeds lead where what
  they are done in does
* `Session.handleTriggers_delivers` - triggers are delivered first in, first out, up to the limit
* `Session.Delivers.does` - deliveries lead where their deeds do
-/

namespace IdleGame

variable {ρ σ : Type} [RandomSource ρ]

namespace Pass

/-- What is done when a rule is considered. -/
def deedsOf (pass : Pass) (env : Surroundings) (p : Progress ρ) (r : Rule) : List (Deed ρ) :=
  if r.isAdmitted pass && r.isReady (FireRecords.of p.records r.id) pass.now then
    Outcome.listed (p.scope.eval env none r.condition) fun (v, s) =>
      if v.isTruthy then Action.deedsOfAll env none r.actions s else []
  else []

/-- What is done in a pass. -/
def deeds (pass : Pass) (env : Surroundings) (rules : List Rule) (p : Progress ρ) :
    List (Deed ρ) :=
  Outcome.listedRounds (fun p r => pass.consider env r p) (pass.deedsOf env) rules p

variable {pass : Pass} {env : Surroundings} {r : Rule} {rules : List Rule} {p p' : Progress ρ}

theorem deedsOf_skipped (h : ¬ pass.Considers r p) : pass.deedsOf env p r = [] := if_neg h

theorem deedsOf_considered (h : pass.Considers r p) :
    pass.deedsOf env p r =
      Outcome.listed (p.scope.eval env none r.condition) fun (v, s) =>
        if v.isTruthy then Action.deedsOfAll env none r.actions s else [] :=
  if_pos h

theorem deedsOf_leads (h : pass.consider env r p = .ok p') :
    p.scope.Leads (pass.deedsOf env p r) p'.scope := by
  by_cases hconsiders : pass.Considers r p
  · rw [consider_considered hconsiders] at h
    obtain ⟨⟨v, s⟩, hv, h⟩ := Outcome.bind_eq_ok_iff.mp h
    have hidle := Scope.eval_idle hv
    rw [deedsOf_considered hconsiders, hv, Outcome.listed_ok]
    dsimp only at h ⊢
    by_cases hholds : v.isTruthy
    · rw [if_pos hholds] at h ⊢
      obtain ⟨s', hs, h⟩ := Outcome.bind_eq_ok_iff.mp h
      obtain rfl := Except.ok.inj h
      exact .idle hidle (Action.deedsOfAll_leads hs)
    · rw [if_neg hholds] at h ⊢
      obtain rfl := Except.ok.inj h
      exact .of_idle hidle
  · rw [consider_skipped hconsiders] at h
    obtain rfl := Except.ok.inj h
    rw [deedsOf_skipped hconsiders]
    exact .refl

/-- A pass leads where its deeds do. -/
theorem deeds_leads (h : pass.run env rules p = .ok p') :
    p.scope.Leads (pass.deeds env rules p) p'.scope :=
  Outcome.listedRounds_leads (R := fun p ds p' => p.scope.Leads ds p'.scope) (fun _ => .refl)
    (fun _ _ _ _ _ h h' => h.append h') (fun _ _ _ => deedsOf_leads) h

end Pass

namespace Phase

/-- What is done when the phase is updated. -/
def entryDeeds (env : Surroundings) (phases : List Phase) (current : Option String)
    (s : Scope ρ) : List (Deed ρ) :=
  Outcome.listed (firstHolding env phases s) fun (candidate, s') =>
    match entered? candidate current with
    | some p => Action.deedsOfAll env none p.onEnter s'
    | none => []

variable {env : Surroundings} {phases : List Phase} {current : Option String} {s s' : Scope ρ}

theorem firstHolding_idle {p : Option Phase} (h : firstHolding env phases s = .ok (p, s')) :
    s.Idle s' := by
  induction phases generalizing s with
  | nil =>
    obtain ⟨-, rfl⟩ := Prod.mk.inj (Except.ok.inj h)
    exact .refl s
  | cons q qs ih =>
    rw [firstHolding] at h
    obtain ⟨⟨v, s₁⟩, hv, h⟩ := Outcome.bind_eq_ok_iff.mp h
    have hidle := Scope.eval_idle hv
    dsimp only at h
    split at h
    · obtain ⟨-, rfl⟩ := Prod.mk.inj (Except.ok.inj h)
      exact hidle
    · exact hidle.trans (ih h)

/-- An update of the phase leads where its deeds do. -/
theorem entryDeeds_leads {u : Update ρ} (h : update env phases current s = .ok u) :
    s.Leads (entryDeeds env phases current s) u.scope := by
  rw [update_eq] at h
  obtain ⟨⟨candidate, s₁⟩, hfirst, h⟩ := Outcome.bind_eq_ok_iff.mp h
  have hidle := firstHolding_idle hfirst
  rw [entryDeeds, hfirst, Outcome.listed_ok]
  dsimp only at h ⊢
  rcases hentered : entered? candidate current with _ | p
  · rw [hentered] at h
    obtain rfl := Except.ok.inj h
    exact .of_idle hidle
  · rw [hentered] at h
    obtain ⟨s₂, hs, h⟩ := Outcome.bind_eq_ok_iff.mp h
    obtain rfl := Except.ok.inj h
    exact .idle hidle (Action.deedsOfAll_leads hs)

end Phase

namespace Project

/-- What is done when a project is bought. -/
def effectDeeds (p : Project) (env : Surroundings) (uses : Uses) (s : Scope ρ) : List (Deed ρ) :=
  Outcome.listed (s.world.draw (p.price? env.params uses s.world)) fun
    | (some totals, world) =>
      Action.deedsOfAll env none p.effects { s with world := pay world totals }
    | (none, _) => []

variable {p : Project} {env : Surroundings} {uses uses' : Uses} {s s' : Scope ρ}

omit [RandomSource ρ] in
/-- Paying writes variables, but it is not an action. -/
theorem pay_idle {w : World ρ} {totals : Table Float} (hw : s.Idle { s with world := w }) :
    s.Idle { s with world := pay w totals } := by
  unfold pay
  generalize totals.entries = es
  induction es generalizing w with
  | nil => exact hw
  | cons e es ih => exact ih ⟨hw.effects, hw.population, hw.log⟩

/-- Nothing is done when a project is not sold. -/
theorem effectDeeds_refused (h : p.purchase env uses s = .ok none) :
    p.effectDeeds env uses s = [] := by
  rcases purchase_cases h with ⟨w, hprice, -⟩ | ⟨totals, w, s₁, -, -, hsome⟩
  · rw [effectDeeds, hprice, Outcome.listed_ok]
  · cases hsome

/-- A purchase leads where its deeds do. -/
theorem effectDeeds_leads (h : p.purchase env uses s = .ok (some (uses', s'))) :
    s.Leads (p.effectDeeds env uses s) s' := by
  rcases purchase_cases h with ⟨w, -, hnone⟩ | ⟨totals, w, s₁, hprice, hs, hsome⟩
  · cases hnone
  · obtain ⟨-, rfl⟩ := Prod.mk.inj (Option.some.inj hsome)
    obtain ⟨r, -, rfl⟩ := World.draw_eq_ok_iff.mp hprice
    rw [effectDeeds, hprice, Outcome.listed_ok]
    have hpaid : s.Idle { s with world := pay { s.world with random := r } totals } :=
      pay_idle ⟨rfl, rfl, rfl⟩
    exact .idle hpaid (Action.deedsOfAll_leads hs)

end Project

/-- An event that is handed to the rules, with its parameters, and the session that it finds. -/
structure Delivery (ρ σ : Type) where
  session : Session ρ σ
  event : String
  params : Values

namespace Delivery

/-- The trigger that is delivered. -/
def trigger (d : Delivery ρ σ) : String × Values := (d.event, d.params)

/-- What is done in the pass that delivers the event. -/
def deeds (d : Delivery ρ σ) : List (Deed ρ) :=
  (Pass.event d.event d.session.world.clock.tick).deeds (d.session.surroundings d.params)
    d.session.game.rules d.session.ahead

/-- The triggers that are queued by what is done. -/
def queued (d : Delivery ρ σ) : List (String × Values) := d.deeds.flatMap Deed.queued

end Delivery

namespace Session

/-- Deeds lead from one session to another: the events that they emit wait, the entities that they
create are born, and the messages that they write are in the log while there is room. -/
structure Does (s : Session ρ σ) (ds : List (Deed ρ)) (s' : Session ρ σ) : Prop where
  events : s'.events = s.events ++ ds.flatMap Deed.emitted
  grows : s.world.population.Grows (ds.flatMap Deed.births) s'.world.population
  log : s'.world.log = (ds.flatMap Deed.logged).foldl MessageLog.push s.world.log

/-- The deliveries while triggers are handled. -/
def deliveries : Nat → List (String × Values) → Session ρ σ → List (Delivery ρ σ)
  | 0, _, _ => []
  | _ + 1, [], _ => []
  | limit + 1, (event, params) :: queue, s =>
    ⟨s, event, params⟩ :: Outcome.listed (s.deliver event params) fun progress =>
      deliveries limit (queue ++ progress.scope.effects.triggers) (s.afterDelivery progress)

/-- Deliveries, one after the other, lead from one session to another. -/
inductive Delivers : Session ρ σ → List (Delivery ρ σ) → Session ρ σ → Prop
  | nil {s} : Delivers s [] s
  | cons {s event params progress ds s'} (h : s.deliver event params = .ok progress)
      (hlater : Delivers (s.afterDelivery progress) ds s') :
      Delivers s (⟨s, event, params⟩ :: ds) s'

variable {s s' s'' : Session ρ σ} {ds ds' : List (Deed ρ)}

/-- Nothing is done while the events, the entities and the messages stay as they are. -/
theorem Does.of_eq (hevents : s'.events = s.events)
    (hpopulation : s'.world.population = s.world.population)
    (hlog : s'.world.log = s.world.log) : s.Does [] s' where
  events := by rw [hevents, List.flatMap_nil, List.append_nil]
  grows := hpopulation ▸ .refl
  log := hlog

theorem Does.append (h : s.Does ds s') (h' : s'.Does ds' s'') : s.Does (ds ++ ds') s'' where
  events := by rw [h'.events, h.events, List.flatMap_append, List.append_assoc]
  grows := by
    rw [List.flatMap_append]
    exact h.grows.append h'.grows
  log := by rw [h'.log, h.log, List.flatMap_append, List.foldl_append]

/-- Deeds do in a session what they do in its scope, when the session takes over the world and the
events that they leave. -/
theorem does_of_leads {scope : Scope ρ} (h : s.scope.Leads ds scope)
    (hworld : s'.world = scope.world) (hevents : s'.events = s.events ++ scope.effects.events) :
    s.Does ds s' where
  events := by
    have hemitted : scope.effects.events = ds.flatMap Deed.emitted := h.brings.events
    rw [hevents, hemitted]
  grows := hworld ▸ h.brings.grows
  log := hworld ▸ h.brings.log

/-! ## Deliveries -/

variable {event : String} {params : Values} {progress : Pass.Progress ρ} {limit : Nat}
  {queue : List (String × Values)}

theorem deliver_leads (h : s.deliver event params = .ok progress) :
    s.scope.Leads (Delivery.deeds ⟨s, event, params⟩) progress.scope :=
  Pass.deeds_leads h

/-- What a delivery leaves to be handled has been queued by what is done in it. -/
theorem deliver_queued (h : s.deliver event params = .ok progress) :
    progress.scope.effects.triggers = Delivery.queued ⟨s, event, params⟩ :=
  (deliver_leads h).brings.triggers

/-- Triggers are delivered one after the other. The first that are delivered are those that wait,
then come those that are queued meanwhile, in their order, and none beyond the limit is. -/
theorem handleTriggers_delivers {fired : List String}
    (h : handleTriggers limit queue s = .ok (fired, s')) :
    s.Delivers (deliveries limit queue s) s' ∧
      (deliveries limit queue s).map Delivery.trigger =
        (queue ++ (deliveries limit queue s).flatMap Delivery.queued).take limit := by
  induction limit generalizing queue s fired with
  | zero =>
    obtain ⟨-, rfl⟩ := Prod.mk.inj (Except.ok.inj h)
    exact ⟨.nil, (List.take_zero).symm⟩
  | succ limit ih =>
    rcases queue with _ | ⟨⟨event, params⟩, queue⟩
    · obtain ⟨-, rfl⟩ := Prod.mk.inj (Except.ok.inj h)
      exact ⟨.nil, rfl⟩
    · rw [handleTriggers_cons] at h
      obtain ⟨progress, hdeliver, h⟩ := Outcome.bind_eq_ok_iff.mp h
      obtain ⟨⟨fired', t⟩, hlater, h⟩ := Outcome.bind_eq_ok_iff.mp h
      obtain ⟨-, rfl⟩ := Prod.mk.inj (Except.ok.inj h)
      obtain ⟨hdelivers, htriggers⟩ := ih hlater
      rw [deliveries, hdeliver, Outcome.listed_ok]
      refine ⟨.cons hdeliver hdelivers, ?_⟩
      -- What this delivery has queued stands between the rest of the queue and what comes later.
      rw [List.map_cons, htriggers, List.flatMap_cons, deliver_queued hdeliver, List.append_assoc]
      rfl

/-- Also when a delivery faults, what has been delivered by then comes first among what waits and
what has been queued meanwhile. -/
theorem deliveries_prefix :
    (deliveries limit queue s).map Delivery.trigger <+:
      (queue ++ (deliveries limit queue s).flatMap Delivery.queued).take limit := by
  induction limit generalizing queue s with
  | zero => exact List.nil_prefix
  | succ limit ih =>
    rcases queue with _ | ⟨⟨event, params⟩, queue⟩
    · exact List.nil_prefix
    · rw [deliveries, List.map_cons, List.cons_append, List.take_succ_cons]
      refine List.cons_prefix_cons.mpr ⟨rfl, ?_⟩
      rcases hdeliver : s.deliver event params with f | progress
      -- A delivery that faults is the last one; what waits behind it is not delivered.
      · exact List.nil_prefix
      · rw [Outcome.listed_ok, List.flatMap_cons, ← deliver_queued hdeliver, ← List.append_assoc]
        exact ih

/-- However many triggers there are, no more are delivered than the limit, faults or not. -/
theorem length_deliveries_le : (deliveries limit queue s).length ≤ limit := by
  induction limit generalizing queue s with
  | zero => exact Nat.le_refl _
  | succ limit ih =>
    rcases queue with _ | ⟨⟨event, params⟩, queue⟩
    · exact Nat.zero_le _
    · rw [deliveries, List.length_cons]
      refine Nat.succ_le_succ ?_
      rcases s.deliver event params with f | progress
      · exact Nat.zero_le _
      · exact ih

/-- Deliveries lead where their deeds do. -/
theorem Delivers.does {deliveries : List (Delivery ρ σ)} (h : s.Delivers deliveries s') :
    s.Does (deliveries.flatMap Delivery.deeds) s' := by
  induction h with
  | nil => exact .of_eq rfl rfl rfl
  | @cons s event params progress ds s' hdeliver _ ih =>
    have hfirst : s.Does (Delivery.deeds ⟨s, event, params⟩) (s.afterDelivery progress) :=
      does_of_leads (deliver_leads hdeliver) rfl rfl
    rw [List.flatMap_cons]
    exact hfirst.append ih

end Session

end IdleGame
