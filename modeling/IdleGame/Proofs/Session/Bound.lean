import IdleGame.Proofs.Action.Frame
import IdleGame.Proofs.Float.Order
import IdleGame.Proofs.Session.Delivery
import IdleGame.Store.Memory

/-!
# Rules that hold a bound

A variable is held between two bounds by a rule that comes after all other rules of a tick and
clamps it. Whatever has been written to the variable by then, the rule moves it between the bounds,
and nothing that runs later in the tick writes it. The one thing that the rule cannot move is what
is not a number.

## Main definitions

* `Rule.Clamps` - a rule that clamps a variable whenever a tick comes to it
* `Game.EndsInClamp` - a game in which nothing writes the variable behind that rule

## Main results

* `Session.step_clamps` - what a tick leaves in the variable is what the rule has made of it
* `Session.clamp_rule_holds_bound` - it is between the bounds exactly when the rule has found a
  number, and a variable between the bounds that the other rules leave alone stays as it is
-/

namespace IdleGame

variable {ρ σ : Type} [RandomSource ρ]

/-- A variable clamped between two literal bounds. -/
def clampTo (x : String) (low high : Float) : Action :=
  .set x (.clamp (.ref x) (.lit (.number low)) (.lit (.number high)))

/-- A rule that clamps a variable whenever a tick comes to it, and does not write it otherwise. -/
structure Rule.Clamps (r : Rule) (x : String) (low high : Float) : Prop where
  timing : r.timing = .tick
  condition : r.condition = .always
  cooldown : r.cooldown = none
  maxFires : r.maxFires = none
  actions : ∃ before after, r.actions = before ++ clampTo x low high :: after ∧
    Action.Avoids x before ∧ Action.Avoids x after

/-- A game whose last rule of ticks clamps a number and in which nothing that runs later in a tick
writes it: no other rule than those of ticks, and no phase. -/
structure Game.EndsInClamp (g : Game) (x : String) (low high : Float) (before : List Rule) :
    Prop where
  rules : ∃ r after, g.rules = before ++ r :: after ∧ r.Clamps x low high ∧
    ∀ q ∈ after, q.timing ≠ .tick
  kind : g.kinds.get? x = some .number
  ordered : low ≤ high
  others : ∀ q ∈ g.rules, q.timing ≠ .tick → Action.Avoids x q.actions
  phases : ∀ p ∈ g.phases, Action.Avoids x p.onEnter

variable {x : String} {low high : Float} {env : Surroundings} {target : Option EntityId}

theorem eval_clamp_ref {view : View} {r : ρ} :
    (Expr.clamp (.ref x) (.lit (.number low)) (.lit (.number high))).eval view r =
      match clamp? ((view.readVariable x).getD .missing).toNumber low high with
      | some y => (.ok (.number y), r)
      | none => (.error .unorderedBounds, r) := by
  have hnumber (y : Float) : (Value.number y).toNumber = y := rfl
  simp only [Expr.eval, Draws.bind_apply, Draws.pure_apply, hnumber]
  cases clamp? ((view.readVariable x).getD .missing).toNumber low high <;> rfl

/-- Clamping a number leaves in the variable what the clamp makes of it. -/
theorem run_clampTo {s s' : Scope ρ} (hkind : env.kinds.get? x = some .number)
    (h : Action.run env target (clampTo x low high) s = .ok s') :
    ∃ y, clamp? (s.world.number x) low high = some y ∧
      s'.world.state.get? x = some (.number y) := by
  rw [clampTo, Action.run] at h
  obtain ⟨⟨v, s₁⟩, hv, h⟩ := Outcome.bind_eq_ok_iff.mp h
  obtain rfl := Except.ok.inj h
  have hnumber : (((s.world.view env.params target).readVariable x).getD .missing).toNumber =
      s.world.number x := by
    change ((s.world.state.get? x).getD .missing).toNumber = s.world.number x
    rw [World.number]
    cases s.world.state.get? x <;> rfl
  rw [Scope.eval, Scope.draw, World.draw, eval_clamp_ref, hnumber] at hv
  cases hclamp : clamp? (s.world.number x) low high with
  | none =>
    rw [hclamp] at hv
    cases hv
  | some y =>
    rw [hclamp] at hv
    obtain ⟨rfl, rfl⟩ := Prod.mk.inj (Except.ok.inj hv)
    refine ⟨y, rfl, ?_⟩
    change (s.world.state.insert x (env.coerce x (.number y))).get? x = _
    rw [Table.get?_insert, if_pos rfl, Surroundings.coerce, hkind]
    rfl

/-- The actions of a rule that clamps leave in the variable what the clamp makes of it. -/
theorem Rule.Clamps.runAll {r : Rule} {s s' : Scope ρ} (hr : r.Clamps x low high)
    (hkind : env.kinds.get? x = some .number)
    (h : Action.runAll env target r.actions s = .ok s') :
    ∃ y, clamp? (s.world.number x) low high = some y ∧
      s'.world.state.get? x = some (.number y) := by
  obtain ⟨before, after, hactions, hbefore, hafter⟩ := hr.actions
  rw [hactions, Action.runAll_append] at h
  obtain ⟨s₁, hs₁, h⟩ := Outcome.bind_eq_ok_iff.mp h
  rw [Action.runAll] at h
  obtain ⟨s₂, hs₂, h⟩ := Outcome.bind_eq_ok_iff.mp h
  obtain ⟨y, hy, hwritten⟩ := run_clampTo hkind hs₂
  have hfound : s₁.world.number x = s.world.number x := by
    rw [World.number, World.number, (hbefore.changes hs₁).get?_eq]
  rw [hfound] at hy
  exact ⟨y, hy, (hafter.changes h).get?_eq.trans hwritten⟩

namespace Pass

variable {pass : Pass} {rules rules' : List Rule} {p p' : Progress ρ}

theorem run_append :
    pass.run env (rules ++ rules') p =
      pass.run env rules p >>= fun p' => pass.run env rules' p' :=
  List.foldlM_append ..

/-- A pass passes over rules that it does not admit. -/
theorem run_of_not_admitted (h : ∀ r ∈ rules, ¬ r.isAdmitted pass) :
    pass.run env rules p = .ok p := by
  unfold run
  induction rules with
  | nil => rfl
  | cons r rules ih =>
    rw [List.forall_mem_cons] at h
    have hskipped : ¬ pass.Considers r p := fun hconsiders =>
      h.1 (Bool.and_eq_true_iff.mp hconsiders).1
    rw [List.foldlM_cons, consider_skipped hskipped]
    exact ih h.2

/-- A pass leaves a variable alone that the rules avoid that it admits. -/
theorem run_get?_eq (havoids : ∀ r ∈ rules, r.isAdmitted pass → Action.Avoids x r.actions)
    (h : pass.run env rules p = .ok p') :
    p'.scope.world.state.get? x = p.scope.world.state.get? x :=
  (run_changes_of_actions
    (fun r hr hadmitted _ _ hs => (havoids r hr hadmitted).changes hs) h).get?_eq

/-- A tick that comes to a rule that clamps runs its actions. -/
theorem consider_clamps {r : Rule} {tick : Nat} (hr : r.Clamps x low high)
    (hkind : env.kinds.get? x = some .number)
    (h : (Pass.tick tick).consider env r p = .ok p') :
    ∃ y, clamp? (p.scope.world.number x) low high = some y ∧
      p'.scope.world.state.get? x = some (.number y) := by
  have hconsiders : (Pass.tick tick).Considers r p := by
    simp [Considers, Rule.isAdmitted, Rule.isReady, hr.timing, hr.cooldown, hr.maxFires]
  have halways : p.scope.eval env none r.condition = .ok (.bool true, p.scope) := by
    rw [hr.condition]
    rfl
  rw [consider_considered hconsiders, halways, Outcome.ok_bind] at h
  obtain ⟨s, hs, h⟩ := Outcome.bind_eq_ok_iff.mp h
  obtain rfl := Except.ok.inj h
  exact hr.runAll hkind hs

/-- The pass of a tick comes to a rule that clamps behind those that are declared before, and passes
over rules of other timings behind it. -/
theorem run_clamps {before after : List Rule} {r : Rule} {tick : Nat} (hr : r.Clamps x low high)
    (hafter : ∀ q ∈ after, q.timing ≠ .tick) (hkind : env.kinds.get? x = some .number)
    (h : (Pass.tick tick).run env (before ++ r :: after) p = .ok p') :
    ∃ p₁ y, (Pass.tick tick).run env before p = .ok p₁ ∧
      clamp? (p₁.scope.world.number x) low high = some y ∧
      p'.scope.world.state.get? x = some (.number y) := by
  rw [run_append] at h
  obtain ⟨p₁, hbefore, h⟩ := Outcome.bind_eq_ok_iff.mp h
  obtain ⟨p₂, hclamps, h⟩ := Outcome.bind_eq_ok_iff.mp h
  have hskipped : (Pass.tick tick).run env after p₂ = .ok p₂ :=
    run_of_not_admitted fun q hq => by simpa [Rule.isAdmitted] using hafter q hq
  obtain rfl : p₂ = p' := Except.ok.inj (hskipped.symm.trans h)
  obtain ⟨y, hy, hwritten⟩ := consider_clamps hr hkind hclamps
  exact ⟨p₁, y, hbefore, hy, hwritten⟩

end Pass

namespace Session

variable {s s' t : Session ρ σ} {before : List Rule}

/-- Deliveries leave a variable alone that all event rules avoid. -/
theorem Delivers.get?_eq {ds : List (Delivery ρ σ)}
    (havoids : ∀ r ∈ s.game.rules, r.timing = .event → Action.Avoids x r.actions)
    (h : s.Delivers ds s') : s'.get? x = s.get? x := by
  induction h with
  | nil => rfl
  | cons hdeliver _ ih =>
    refine (ih havoids).trans (Pass.run_get?_eq (fun r hr hadmitted => havoids r hr ?_) hdeliver)
    simpa [Rule.isAdmitted] using (Bool.and_eq_true_iff.mp hadmitted).1

variable [SaveStore σ] {summary : TickSummary}

theorem tickEnding_get? : (s.tickEnding t).get? x = t.get? x := by
  unfold tickEnding get?
  split
  · rw [autosave_world]
    rfl
  · rfl

/-- What a tick leaves in the variable is what the clamp makes of the number that it finds, behind
the rules that are declared before. -/
theorem step_clamps (hgame : s.game.EndsInClamp x low high before)
    (h : s.step = .ok (summary, s')) :
    ∃ p y, (Pass.tick s.world.clock.tick).run (s.surroundings Table.empty) before s.ahead = .ok p ∧
      clamp? (p.scope.world.number x) low high = some y ∧ s'.get? x = some (.number y) := by
  obtain ⟨r, after, hrules, hr, hafter⟩ := hgame.rules
  rw [step_eq, runPasses_eq] at h
  obtain ⟨⟨progress', update'⟩, hrun, h⟩ := Outcome.bind_eq_ok_iff.mp h
  obtain ⟨progress, hpasses, hrun⟩ := Outcome.bind_eq_ok_iff.mp hrun
  obtain ⟨update, hupdate, hrun⟩ := Outcome.bind_eq_ok_iff.mp hrun
  obtain ⟨rfl, rfl⟩ := Prod.mk.inj (Except.ok.inj hrun)
  obtain ⟨⟨fired, t⟩, hsettle, h⟩ := Outcome.bind_eq_ok_iff.mp h
  obtain ⟨-, hending⟩ := Prod.mk.inj (Except.ok.inj h)
  obtain rfl : s.tickEnding t = s' := hending
  obtain ⟨ticked, htick, hseconds⟩ := Outcome.bind_eq_ok_iff.mp hpasses
  rw [hrules] at htick
  obtain ⟨p, y, hbefore, hy, hwritten⟩ := Pass.run_clamps hr hafter hgame.kind htick
  refine ⟨p, y, hbefore, hy, ?_⟩
  -- From here on, the variable is left alone: by the rules of seconds, the phase and the events.
  have hpassed : progress.scope.world.state.get? x = ticked.scope.world.state.get? x := by
    split at hseconds
    · refine Pass.run_get?_eq (fun q hq hadmitted => hgame.others q hq ?_) hseconds
      simp_all [Rule.isAdmitted]
    · rw [Except.ok.inj hseconds]
  have hentered : update.scope.world.state.get? x = progress.scope.world.state.get? x :=
    (Phase.update_changes_of_actions (fun q hq _ _ hs => (hgame.phases q hq).changes hs)
      hupdate).get?_eq
  have hsettled : t.get? x = update.scope.world.state.get? x := by
    have hevents : ∀ q ∈ s.game.rules, q.timing = .event → Action.Avoids x q.actions :=
      fun q hq htiming => hgame.others q hq (by simp [htiming])
    exact Delivers.get?_eq (s := (s.afterPasses progress update).afterRun update.scope) hevents
      (handleTriggers_delivers hsettle).1
  calc (s.tickEnding t).get? x
    _ = t.get? x := tickEnding_get?
    _ = update.scope.world.state.get? x := hsettled
    _ = progress.scope.world.state.get? x := hentered
    _ = ticked.scope.world.state.get? x := hpassed
    _ = some (.number y) := hwritten

/-- After every tick, whatever has been written before, the variable is between the bounds if the
rule has found a number there, and otherwise it is not; and a variable between the bounds that the
other rules of the tick leave alone stays as it is. -/
theorem clamp_rule_holds_bound (hgame : s.game.EndsInClamp x low high before)
    (h : s.step = .ok (summary, s')) :
    ∃ p, (Pass.tick s.world.clock.tick).run (s.surroundings Table.empty) before s.ahead = .ok p ∧
      (low ≤ s'.world.number x ∧ s'.world.number x ≤ high ↔ ¬ (p.scope.world.number x).isNaN) ∧
      (p.scope.world.state.get? x = s.get? x → low ≤ s.world.number x →
        s.world.number x ≤ high → s'.get? x = some (.number (s.world.number x))) := by
  obtain ⟨p, y, hbefore, hy, hwritten⟩ := step_clamps hgame h
  have hnumber : s'.world.number x = y := by
    change ((s'.get? x).map Value.toNumber).getD 0.0 = y
    rw [hwritten]
    rfl
  refine ⟨p, hbefore, ?_, ?_⟩
  · rw [hnumber]
    exact clamp?_between_iff hgame.ordered hy
  · intro hleft hlow hhigh
    have hfound : p.scope.world.number x = s.world.number x := by
      rw [World.number, hleft]
      rfl
    rw [hfound, clamp?_of_between hgame.ordered hlow hhigh] at hy
    rw [hwritten, Option.some.inj hy]

end Session

/-- A rule that pours into a tank at every tick. -/
def pourRule : Rule where
  id := "pour"
  actions := [.add "level" (.lit (.number 7.0))]

/-- A rule that lets a tank overflow, and rings if it is full. -/
def overflowRule : Rule where
  id := "overflow"
  actions := [clampTo "level" 0.0 10.0,
    .branch (.comparison .gte (.ref "level") (.lit (.number 10.0))) [.trigger "bell" []] []]

/-- A rule that counts the rings. -/
def bellRule : Rule where
  id := "bell"
  timing := .event
  event := some "bell"
  actions := [.add "rings" (.lit (.number 1.0))]

/-- A tank with these rules. -/
def tankGame : Game where
  identity := { id := "tank", name := "Tank" }
  declarations := [{ id := "level" }, { id := "rings" }]
  rules := [pourRule, overflowRule, bellRule]

theorem overflowRule_clamps : overflowRule.Clamps "level" 0.0 10.0 where
  timing := rfl
  condition := rfl
  cooldown := rfl
  maxFires := rfl
  actions := ⟨[], _, rfl, by decide, by decide⟩

theorem tankGame_endsInClamp : tankGame.EndsInClamp "level" 0.0 10.0 [pourRule] where
  rules := ⟨overflowRule, [bellRule], rfl, overflowRule_clamps, by simp [bellRule]⟩
  kind := rfl
  ordered := by decide
  others := by
    intro q hq htiming
    simp only [tankGame, List.mem_cons, List.not_mem_nil, or_false] at hq
    rcases hq with rfl | rfl | rfl
    · exact absurd rfl htiming
    · exact absurd rfl htiming
    · decide
  phases := by simp [tankGame]

namespace Session

/-- The tank, running. -/
def tank : Session Xorshift MemoryStore :=
  (ofGame tankGame (Xorshift.ofWord 5) MemoryStore.empty).start

/-- A tick of the tank ends between the bounds, because there is a number to be clamped. -/
theorem tank_holds_bound :
    ∃ summary s', tank.step = .ok (summary, s') ∧
      ∃ p, (Pass.tick 0).run (tank.surroundings Table.empty) [pourRule] tank.ahead = .ok p ∧
        (0.0 ≤ s'.world.number "level" ∧ s'.world.number "level" ≤ 10.0 ↔
          ¬ (p.scope.world.number "level").isNaN) ∧
        (p.scope.world.state.get? "level" = tank.get? "level" → 0.0 ≤ tank.world.number "level" →
          tank.world.number "level" ≤ 10.0 →
          s'.get? "level" = some (.number (tank.world.number "level"))) := by
  obtain ⟨⟨summary, s'⟩, hstep⟩ := Outcome.exists_eq_ok_of_isOk (x := tank.step) rfl
  exact ⟨summary, s', hstep, clamp_rule_holds_bound tankGame_endsInClamp hstep⟩

/-- What is not a number stays one, and is not between the bounds after the tick. -/
theorem spoiltTank_leaves_bound :
    tankGame.EndsInClamp "level" 0.0 10.0 [pourRule] ∧
      ∃ summary s', (tank.set "level" (.number (0.0 / 0.0))).step = .ok (summary, s') ∧
        ¬ (0.0 ≤ s'.world.number "level" ∧ s'.world.number "level" ≤ 10.0) := by
  refine ⟨tankGame_endsInClamp, _, _, rfl, ?_⟩
  decide +kernel

end Session

end IdleGame
