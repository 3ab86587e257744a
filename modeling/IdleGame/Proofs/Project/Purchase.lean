import IdleGame.Project.Purchase
import IdleGame.Proofs.Game.Authored

/-!
# What questions about projects and purchases evaluate and change

## Main definitions

* `Project.amounts` - the expressions that a purchase costs
* `Project.Prices` - finding out the price of a project comes to an evaluation
* `Project.Evaluates` - a purchase comes to an evaluation

## Main results

* `Project.purchase_error_iff` - a purchase faults exactly when it comes to an evaluation that does
* `Project.purchase_changes` - a purchase changes the world as the game may
-/

namespace IdleGame.Project

variable {ρ : Type} [RandomSource ρ]

/-- The amounts of the costs, in order. -/
def amounts (p : Project) : List Expr := p.costs.map Cost.amount

/-- Finding out the price of a project comes to an evaluation. The costs are looked at only when
the project is available. -/
inductive Prices (p : Project) (params : Values) (uses : Uses) (w : World ρ) :
    Evaluation ρ → Prop
  | trigger (h : ¬ p.isExhausted (uses.of p.id)) :
      Prices p params uses w ⟨w.view params none, p.trigger, w.random⟩
  | cost {r ev} (h : p.isAvailable uses (w.view params none) w.random = (.ok true, r))
      (hcost : Expr.InTurn (w.view params none) p.amounts r ev) : Prices p params uses w ev

/-- A purchase comes to an evaluation: before it is decided, or among the effects. -/
inductive Evaluates (p : Project) (env : Surroundings) (uses : Uses) (s : Scope ρ) :
    Evaluation ρ → Prop
  | price {ev} (h : p.Prices env.params uses s.world ev) : Evaluates p env uses s ev
  | effect {totals w ev}
      (h : s.world.draw (p.price? env.params uses s.world) = .ok (some totals, w))
      (hev : Action.Evaluates env none p.effects { s with world := pay w totals } ev) :
      Evaluates p env uses s ev

variable {p : Project} {env : Surroundings} {params : Values} {uses uses' : Uses} {view : View}
  {w : World ρ}
  {s s' : Scope ρ} {r : ρ} {ev : Evaluation ρ} {f : Fault} {g : Game}

/-- A purchase is refused when there is no price. Otherwise the price is paid, the effects run to
the end, and the purchase is counted. -/
theorem purchase_cases {sold : Option (Uses × Scope ρ)} (h : p.purchase env uses s = .ok sold) :
    (∃ w, s.world.draw (p.price? env.params uses s.world) = .ok (none, w) ∧ sold = none) ∨
      ∃ totals w s', s.world.draw (p.price? env.params uses s.world) = .ok (some totals, w) ∧
        Action.runAll env none p.effects { s with world := pay w totals } = .ok s' ∧
        sold = some (uses.count p.id, s') := by
  rw [purchase] at h
  obtain ⟨⟨_ | totals, w⟩, hprice, h⟩ := Outcome.bind_eq_ok_iff.mp h
  · obtain rfl := Except.ok.inj h
    exact .inl ⟨w, hprice, rfl⟩
  · obtain ⟨s', hs, h⟩ := Outcome.bind_eq_ok_iff.mp h
    obtain rfl := Except.ok.inj h
    exact .inr ⟨totals, w, s', hprice, hs, rfl⟩

/-- There is no price for a project that is used up. -/
theorem not_isExhausted_of_price {totals : Table Float} {r' : ρ}
    (h : p.price? params uses w r = (.ok (some totals), r')) : ¬ p.isExhausted (uses.of p.id) := by
  intro hexhausted
  rw [price?, isAvailable, if_pos hexhausted, Draws.bind_ok_iff] at h
  obtain ⟨available, r₁, havailable, h⟩ := h
  obtain ⟨hfalse, rfl⟩ := Prod.mk.inj havailable
  obtain rfl := Except.ok.inj hfalse
  obtain ⟨hnone, -⟩ := Prod.mk.inj h
  cases Except.ok.inj hnone

theorem addCosts_error_iff {costs : List Cost} {totals : Table Float} :
    (addCosts view costs totals r).1 = .error f ↔
      ∃ ev, Expr.InTurn view (costs.map Cost.amount) r ev ∧ ev.Faults f := by
  induction costs generalizing r totals with
  | nil => simp [addCosts, Expr.not_inTurn_nil]
  | cons c cs ih =>
    rw [List.map_cons, Expr.exists_inTurn_cons_faults_iff, addCosts, Draws.bind_error_iff,
      Expr.toNumber, Draws.map_error_iff]
    simp only [Draws.map_ok_iff, ih]
    constructor
    · rintro (h | ⟨x, r', ⟨v, hv, -⟩, h⟩)
      · exact .inl h
      · exact .inr ⟨v, r', hv, h⟩
    · rintro (h | ⟨v, r', hv, h⟩)
      · exact .inl h
      · exact .inr ⟨_, r', ⟨v, hv, rfl⟩, h⟩

theorem isAvailable_error_iff :
    (p.isAvailable uses view r).1 = .error f ↔
      ¬ p.isExhausted (uses.of p.id) ∧ (Evaluation.mk view p.trigger r).Faults f := by
  unfold isAvailable
  split
  · simp_all
  · rw [Expr.test, Draws.map_error_iff]
    simp_all [Evaluation.Faults, Evaluation.outcome]

theorem totals_error_iff :
    (p.totals view r).1 = .error f ↔ ∃ ev, Expr.InTurn view p.amounts r ev ∧ ev.Faults f :=
  addCosts_error_iff

theorem canAfford_error_iff :
    (p.canAfford w r).1 = .error f ↔
      ∃ ev, Expr.InTurn (w.view Table.empty none) p.amounts r ev ∧ ev.Faults f := by
  rw [canAfford, Draws.map_error_iff, totals_error_iff]

theorem price?_error_iff :
    (p.price? params uses w w.random).1 = .error f ↔
      ∃ ev, p.Prices params uses w ev ∧ ev.Faults f := by
  rw [price?, Draws.bind_error_iff, isAvailable_error_iff]
  constructor
  · rintro (⟨hopen, hf⟩ | ⟨available, r, havailable, h⟩)
    · exact ⟨_, .trigger hopen, hf⟩
    · split at h
      · rename_i htrue
        obtain rfl : available = true := htrue
        obtain ⟨ev, hcost, hf⟩ := totals_error_iff.mp (Draws.map_error_iff.mp h)
        exact ⟨ev, .cost havailable hcost, hf⟩
      · cases h
  · rintro ⟨ev, hopen | ⟨havailable, hcost⟩, hf⟩
    · exact .inl ⟨hopen, hf⟩
    · refine .inr ⟨true, _, havailable, ?_⟩
      exact Draws.map_error_iff.mpr (totals_error_iff.mpr ⟨ev, hcost, hf⟩)

/-- A purchase faults exactly when it comes to an evaluation that does. -/
theorem purchase_error_iff :
    p.purchase env uses s = .error f ↔ ∃ ev, p.Evaluates env uses s ev ∧ ev.Faults f := by
  rw [purchase, Outcome.bind_eq_error_iff, World.draw_eq_error_iff, price?_error_iff]
  constructor
  · rintro (⟨ev, hev, hf⟩ | ⟨⟨_ | totals, w⟩, hprice, h⟩)
    · exact ⟨ev, .price hev, hf⟩
    · cases h
    · rcases Outcome.bind_eq_error_iff.mp h with h | ⟨_, _, h⟩
      · obtain ⟨ev, hev, hf⟩ := Action.runAll_error_iff.mp h
        exact ⟨ev, .effect hprice hev, hf⟩
      · cases h
  · rintro ⟨ev, hev | ⟨hprice, hev⟩, hf⟩
    · exact .inl ⟨ev, hev, hf⟩
    · refine .inr ⟨_, hprice, ?_⟩
      exact Outcome.bind_eq_error_iff.mpr (.inl (Action.runAll_error_iff.mpr ⟨ev, hev, hf⟩))

theorem addCosts_keys {costs : List Cost} {totals totals' : Table Float} {r' : ρ}
    (h : addCosts view costs totals r = (.ok totals', r')) :
    ∀ k ∈ totals'.keys, k ∈ totals.keys ∨ ∃ c ∈ costs, c.resource = k := by
  induction costs generalizing r totals with
  | nil =>
    obtain ⟨hok, -⟩ := Prod.mk.inj h
    obtain rfl := Except.ok.inj hok
    exact fun k hk => .inl hk
  | cons c cs ih =>
    rw [addCosts, Draws.bind_ok_iff] at h
    obtain ⟨x, r₁, -, h⟩ := h
    intro k hk
    rcases ih h k hk with hk | ⟨c', hc', rfl⟩
    · rw [Table.keys_insert] at hk
      grind
    · exact .inr ⟨c', List.mem_cons_of_mem _ hc', rfl⟩

/-- A price names only resources of the costs. -/
theorem price?_keys {totals : Table Float} {r' : ρ}
    (h : p.price? params uses w r = (.ok (some totals), r')) :
    ∀ k ∈ totals.keys, ∃ c ∈ p.costs, c.resource = k := by
  rw [price?, Draws.bind_ok_iff] at h
  obtain ⟨available, r₁, -, h⟩ := h
  split at h
  · obtain ⟨totals', htotals, h⟩ := Draws.map_ok_iff.mp h
    split at h
    · obtain rfl := Option.some.inj h
      intro k hk
      simpa using addCosts_keys htotals k hk
    · cases h
  · cases (Prod.mk.inj h).1

theorem steady_addCosts (costs : List Cost) (totals : Table Float) :
    (addCosts view costs totals : Draws ρ (Table Float)).Steady := by
  induction costs generalizing totals with
  | nil => exact Draws.steady_pure _
  | cons c cs ih => exact (Expr.steady_eval view c.amount).map.bind fun _ => ih _

theorem steady_isAvailable : (p.isAvailable uses view : Draws ρ Bool).Steady :=
  (Draws.steady_pure _).ite (Expr.steady_eval view p.trigger).map

theorem steady_price? : (p.price? params uses w : Draws ρ (Option (Table Float))).Steady :=
  steady_isAvailable.bind fun _ => (steady_addCosts _ _).map.ite (Draws.steady_pure _)

/-- Paying writes the resources of the totals, and numbers only. -/
theorem pay_changes {W : String → Value → Prop} {totals : Table Float}
    (h : ∀ k ∈ totals.keys, ∀ x : Float, W k (.number x)) : w.Changes W (pay w totals) := by
  unfold pay
  rw [Table.keys, List.forall_mem_map] at h
  generalize totals.entries = es at h ⊢
  induction es generalizing w with
  | nil => exact .refl _
  | cons e es ih =>
    have hpaid : w.Change W (w.write e.1 (.number (w.number e.1 - e.2))) :=
      .written (h e List.mem_cons_self _)
    exact hpaid.changes.trans (ih fun e' he' => h e' (List.mem_cons_of_mem _ he'))

theorem price_changes {totals : Table Float} {w' : World ρ} (hp : p ∈ g.projects)
    (h : w.draw (p.price? params uses w) = .ok (some totals, w')) :
    w.Changes g.Writes (pay w' totals) := by
  obtain ⟨r, hprice, -⟩ := World.draw_eq_ok_iff.mp h
  refine (World.draw_changes steady_price? h).trans (pay_changes fun k hk x => ?_)
  obtain ⟨c, hc, rfl⟩ := price?_keys hprice k hk
  exact .payment hp hc

/-- Buying a project of a game changes the world as the game may. -/
theorem purchase_changes (hp : p ∈ g.projects) (hkinds : env.kinds = g.kinds)
    (h : p.purchase env uses s = .ok (some (uses', s'))) :
    s.world.Changes g.Writes s'.world := by
  rcases purchase_cases h with ⟨w, -, hnone⟩ | ⟨totals, w, s₁, hprice, hs, hsome⟩
  · cases hnone
  · obtain ⟨-, rfl⟩ := Prod.mk.inj (Option.some.inj hsome)
    exact (price_changes hp hprice).trans ((Game.Lists.effects hp).changes hkinds hs)

theorem reads_of_inTurn_amounts (hp : p ∈ g.projects)
    (h : Expr.InTurn (w.view params none) p.amounts r ev) : g.Reads w ev := by
  obtain ⟨c, hc, hexpr⟩ := List.mem_map.mp h.expr_mem
  exact ⟨w, params, none, .refl _, h.view_eq, hexpr ▸ .amount hp hc⟩

theorem Prices.reads (h : p.Prices params uses w ev) (hp : p ∈ g.projects) : g.Reads w ev := by
  rcases h with _ | ⟨-, hcost⟩
  · exact (Game.Authors.project hp).reads
  · exact reads_of_inTurn_amounts hp hcost

/-- What a purchase evaluates is authored in the game. -/
theorem Evaluates.reads (h : p.Evaluates env uses s ev) (hp : p ∈ g.projects)
    (hkinds : env.kinds = g.kinds) : g.Reads s.world ev := by
  rcases h with hev | ⟨hprice, hev⟩
  · exact hev.reads hp
  · exact ((Game.Lists.effects hp).reads hkinds hev).after (price_changes hp hprice)

end IdleGame.Project
