import IdleGame.Proofs.Float.Difference
import IdleGame.Proofs.Project.Payment

/-!
# What a purchase leaves

A bill is paid from balances that cover it. So what is left is not negative, with one exception:
when an infinite balance pays an infinite total, the check passes and nothing that is a number is
left.

## Main results

* `Project.zero_le_paid_iff` - what is left of a balance that covers its part of a bill
* `Project.purchase_leaves_balances` - what is left of all resources when a project is sold
-/

namespace IdleGame.Project

variable {ρ : Type} {w : World ρ} {items : List (String × Float)} {k : String}

/-- What is left of a balance that covers its part of a bill is not negative, unless both are
infinite. -/
theorem zero_le_paid_iff (hcovered : Covered w items) (hk : k ∈ items.map Prod.fst)
    (h : 0.0 ≤ w.number k) :
    ∃ left, (paid w items).state.get? k = some (.number left) ∧
      (0.0 ≤ left ∧ ¬ left.isNaN ↔ ¬ (w.number k = 1.0 / 0.0 ∧ owed items k = 1.0 / 0.0)) := by
  refine ⟨w.number k - owed items k, by rw [get?_paid, if_pos hk], ?_⟩
  rw [← zero_le_sub_iff h (hcovered k hk)]
  exact and_iff_left_of_imp fun hleft => (isNumber_of_float_le hleft).2

variable [RandomSource ρ] {view : View} {costs : List Cost} {p : Project} {env : Surroundings}
  {uses uses' : Uses} {s s' : Scope ρ} {r r' : ρ}

/-- A bill lists the resources of the costs, in order and as often as they do. -/
theorem resources_bill (h : bill view costs r = (.ok items, r')) :
    items.map Prod.fst = costs.map Cost.resource := by
  induction costs generalizing items r with
  | nil =>
    obtain ⟨hitems, -⟩ := Prod.mk.inj h
    rw [← Except.ok.inj hitems]
    rfl
  | cons c cs ih =>
    rw [bill, Draws.bind_ok_iff] at h
    obtain ⟨amount, r₁, -, h⟩ := h
    obtain ⟨rest, hrest, rfl⟩ := Draws.map_ok_iff.mp h
    rw [List.map_cons, List.map_cons, ih hrest]

/-- When a project is sold for resources that are not negative, then behind the payment and before
the effects none of them is negative, and all of them are numbers, except where an infinite balance
has paid an infinite total. -/
theorem purchase_leaves_balances (hsold : p.purchase env uses s = .ok (some (uses', s')))
    (hbalance : ∀ c ∈ p.costs, 0.0 ≤ s.world.number c.resource) :
    ∃ totals w, s.world.draw (p.price? env.params uses s.world) = .ok (some totals, w) ∧
      Action.runAll env none p.effects { s with world := pay w totals } = .ok s' ∧
      ∀ c ∈ p.costs, ∃ total left, totals.get? c.resource = some total ∧
        (pay w totals).state.get? c.resource = some (.number left) ∧
        (0.0 ≤ left ∧ ¬ left.isNaN ↔
          ¬ (s.world.number c.resource = 1.0 / 0.0 ∧ total = 1.0 / 0.0)) := by
  obtain ⟨items, r, hchecked, hcovered, hrun, -⟩ := purchase_some_iff.mp hsold
  have hprice := price?_some_iff.mpr ⟨items, hchecked, hcovered, rfl⟩
  have hpaid : pay { s.world with random := r } (addBill Table.empty items) =
      { paid s.world items with random := r } := pay_eq
  refine ⟨addBill Table.empty items, { s.world with random := r },
    World.draw_eq_ok_iff.mpr ⟨r, hprice, rfl⟩, by rw [hpaid]; exact hrun, fun c hc => ?_⟩
  obtain ⟨r₁, -, hbill⟩ := hchecked.draws
  have hlisted : c.resource ∈ items.map Prod.fst := by
    rw [resources_bill hbill]
    exact List.mem_map_of_mem hc
  obtain ⟨left, hleft, hsign⟩ := zero_le_paid_iff hcovered hlisted (hbalance c hc)
  refine ⟨owed items c.resource, left, by rw [get?_total, if_pos hlisted], ?_, hsign⟩
  rw [hpaid]
  exact hleft

/-- A well takes stone twice, for the shaft and for the rim. What the rim takes is up to the one who
asks for it. -/
def well : Project where
  id := "well"
  costs := [⟨"stone", .lit (.number 4.0)⟩, ⟨"stone", .param "rim"⟩]

/-- Somebody asks for a low rim. -/
def lowRim : Surroundings := ⟨Table.empty, Table.ofList [("rim", .number 2.5)]⟩

/-- A tower without end. -/
def tower : Project where
  id := "tower"
  costs := [⟨"stone", .lit (.number (1.0 / 0.0))⟩]

/-- A place where there is nothing but stone. -/
def quarry (stone : Float) : Scope Xorshift where
  world :=
    { state := Table.ofList [("stone", .number stone)]
      population := Population.empty
      log := MessageLog.ofCapacity 1
      clock := Clock.start
      random := Xorshift.ofWord 1 }

theorem well_leaves_stone :
    ∃ uses s, well.purchase lowRim Table.empty (quarry 10.0) = .ok (some (uses, s)) ∧
      (∀ c ∈ well.costs, 0.0 ≤ (quarry 10.0).world.number c.resource) ∧
      ∃ totals w, (quarry 10.0).world.draw
          (well.price? lowRim.params Table.empty (quarry 10.0).world) = .ok (some totals, w) ∧
        Action.runAll lowRim none well.effects { quarry 10.0 with world := pay w totals } = .ok s ∧
        ∀ c ∈ well.costs, ∃ total left, totals.get? c.resource = some total ∧
          (pay w totals).state.get? c.resource = some (.number left) ∧
          (0.0 ≤ left ∧ ¬ left.isNaN ↔
            ¬ ((quarry 10.0).world.number c.resource = 1.0 / 0.0 ∧ total = 1.0 / 0.0)) := by
  have hbalance : ∀ c ∈ well.costs, 0.0 ≤ (quarry 10.0).world.number c.resource := by
    decide +kernel
  exact ⟨_, _, rfl, hbalance, purchase_leaves_balances rfl hbalance⟩

/-- An infinite balance pays an infinite price, and what is left is not a number. -/
theorem tower_leaves_nan :
    0.0 ≤ (quarry (1.0 / 0.0)).world.number "stone" ∧
      ∃ uses s, tower.purchase ⟨Table.empty, Table.empty⟩ Table.empty (quarry (1.0 / 0.0)) =
        .ok (some (uses, s)) ∧ tower.effects = [] ∧ (s.world.number "stone").isNaN :=
  ⟨by decide +kernel, _, _, rfl, rfl, by decide +kernel⟩

end IdleGame.Project
