import IdleGame.Proofs.Expr.Composition
import IdleGame.Proofs.Project.Purchase

/-!
# Asking for a price

Before a project is sold it is asked whether the project is available, and then, further on in the
same sequence of random numbers, whether it can be paid for. Asked one by one, each question starts
at the position of the random source. So the answers can differ, but only where both the trigger and
the costs draw.

## Main definitions

* `Project.HasSilentTrigger`, `Project.HasSilentCosts` - a project whose trigger, whose costs are
  evaluated without a draw

## Main results

* `Project.peek_price?` - there is a price exactly when both questions are answered with yes
-/

namespace IdleGame.Project

variable {ρ : Type} [RandomSource ρ]

/-- The trigger is evaluated without a draw. -/
def HasSilentTrigger (p : Project) (w : World ρ) : Prop :=
  (p.trigger.eval (w.view Table.empty none) : Draws ρ Value).Silent

/-- The amounts of the costs are evaluated without a draw. -/
def HasSilentCosts (p : Project) (w : World ρ) : Prop :=
  ∀ c ∈ p.costs, (c.amount.eval (w.view Table.empty none) : Draws ρ Value).Silent

variable {p : Project} {uses : Uses} {view : View} {w : World ρ}

/-- The trigger of a project that is used up is not evaluated. -/
theorem silent_isAvailable
    (h : ¬ p.isExhausted (uses.of p.id) → (p.trigger.eval view : Draws ρ Value).Silent) :
    (p.isAvailable uses view : Draws ρ Bool).Silent := by
  unfold isAvailable
  by_cases hexhausted : p.isExhausted (uses.of p.id)
  · rw [if_pos hexhausted]
    exact Draws.composes_silent.pure _
  · rw [if_neg hexhausted]
    exact Draws.composes_silent.map (h hexhausted)

theorem silent_addCosts {costs : List Cost} {totals : Table Float}
    (h : ∀ c ∈ costs, (c.amount.eval view : Draws ρ Value).Silent) :
    (addCosts view costs totals : Draws ρ (Table Float)).Silent := by
  induction costs generalizing totals with
  | nil => exact Draws.composes_silent.pure _
  | cons c cs ih =>
    rw [List.forall_mem_cons] at h
    exact Draws.composes_silent.bind (Draws.composes_silent.map h.1) fun _ => ih h.2

/-- The totals do not depend on whether they are asked for after the trigger, unless both draw. -/
theorem totals_after_isAvailable (uses : Uses)
    (h : p.HasSilentTrigger w ∨ p.HasSilentCosts w) :
    (p.totals (w.view Table.empty none)
        (p.isAvailable uses (w.view Table.empty none) w.random).2).1 =
      (p.totals (w.view Table.empty none) w.random).1 := by
  rcases h with htrigger | hcosts
  · rw [(silent_isAvailable fun _ => htrigger).source_eq]
  · exact (silent_addCosts hcosts).outcome_eq

/-- Unless both the trigger and the costs draw, there is a price exactly when both questions, each
asked on a copy of the random source, are answered with yes; and a fault when there is one in the
first, or in the second after a yes. -/
theorem peek_price? (uses : Uses) (h : p.HasSilentTrigger w ∨ p.HasSilentCosts w) :
    (w.peek (p.price? Table.empty uses w)).map Option.isSome =
      w.peek (p.isAvailable uses (w.view Table.empty none)) >>= fun available =>
        if available then w.peek (p.canAfford w) else .ok false := by
  have htotals := totals_after_isAvailable uses h
  simp only [World.peek, price?, canAfford, Draws.map_outcome, ← htotals]
  rw [Draws.bind_apply]
  rcases p.isAvailable uses (w.view Table.empty none) w.random with ⟨e | available, r⟩
  · rfl
  · cases available with
    | false => rfl
    | true =>
      simp only [if_true, Outcome.ok_bind, Draws.map_outcome]
      rcases (p.totals (w.view Table.empty none) r).1 with e | totals
      · rfl
      · simp only [Except.map]
        cases covers w totals <;> rfl

/-- A project is sold when there is a price. -/
theorem isSome_of_purchase {env : Surroundings} {s : Scope ρ} {sold : Option (Uses × Scope ρ)}
    (h : p.purchase env uses s = .ok sold) :
    (s.world.peek (p.price? env.params uses s.world)).map Option.isSome = .ok sold.isSome := by
  rcases purchase_cases h with ⟨w, hprice, rfl⟩ | ⟨totals, w, s', hprice, -, rfl⟩
  all_goals
    obtain ⟨r, hdraw, -⟩ := World.draw_eq_ok_iff.mp hprice
    rw [World.peek, hdraw]
    rfl

end IdleGame.Project
