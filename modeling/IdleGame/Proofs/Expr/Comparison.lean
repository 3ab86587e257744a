import IdleGame.Proofs.Expr.Composition
import IdleGame.Proofs.Float.Difference

/-!
# Comparisons of numbers

The order of two numbers is exact, and equality asks for their difference, rounded, with a
tolerance. So the six answers fit together only where the difference decides: for numbers that are
equal, or far enough apart, or of which one is infinite and not the other.

## Main definitions

* `Comparison.Consistent` - answers as numbers on a line give them
* `Comparison.Resolved` - numbers that are told apart by their difference
* `Expr.Answers` - what the comparisons of two expressions answer

## Main results

* `Comparison.consistent_iff_resolved` - the answers fit together exactly for such numbers
* `Expr.comparisons_consistent_iff` - the same for expressions, with what always holds of equality
-/

namespace IdleGame

open Float.Model Float.Model.UnpackedFloat

variable {x y : Float}

/-! ## Order -/

/-- Two numbers stand in one order, from which all four comparisons can be read. -/
theorem exists_ordering (hx : ¬ x.isNaN) (hy : ¬ y.isNaN) :
    ∃ o : Ordering, (x < y ↔ o = .lt) ∧ (y < x ↔ o = .gt) ∧ (x ≤ y ↔ o ≠ .gt) ∧
      (y ≤ x ↔ o ≠ .lt) := by
  have hsome : x.toModel.unpack.compare y.toModel.unpack ≠ none := fun hnone =>
    ((compare_eq_none_iff _ _).mp hnone).elim hx hy
  obtain ⟨o, ho⟩ := Option.ne_none_iff_exists'.mp hsome
  refine ⟨o, ?_⟩
  rw [lt_iff_compare, lt_iff_compare, le_iff_compare, le_iff_compare,
    compare_swap x.toModel.unpack, ho]
  cases o <;> simp

/-- Where one of two numbers is infinite, neither is above the other only if they are the same. -/
theorem eq_of_float_le_of_float_le (h : ¬ x.isFinite) (hxy : x ≤ y) (hyx : y ≤ x) : x = y := by
  rw [le_iff_compare] at hxy hyx
  change ¬ x.toModel.unpack.isFinite at h
  cases hx : x.toModel.unpack with
  | zero | finite => rw [hx] at h; exact absurd rfl h
  | notANumber => rw [hx] at hxy; cases hxy
  | infinity s =>
    rw [hx] at hxy hyx
    cases hy : y.toModel.unpack with
    | notANumber => rw [hy] at hxy; cases hxy
    | infinity s' =>
      rw [hy] at hxy hyx
      cases s with
      | positive => cases s' with
        | positive => exact (eq_infinity hx).trans (eq_infinity hy).symm
        | negative => cases hxy
      | negative => cases s' with
        | positive => cases hyx
        | negative => exact (eq_infinity hx).trans (eq_infinity hy).symm
    | zero | finite =>
      rw [hy] at hxy hyx
      cases s with
      | positive => cases hxy
      | negative => cases hyx

namespace Comparison

/-- Answers of the comparisons as numbers on a line give them: exactly one of less, equal and
greater, and the weak comparisons are made of these. -/
structure Consistent (answer : Comparison → Bool) : Prop where
  one : [answer .lt, answer .eq, answer .gt].count true = 1
  lte : answer .lte = (answer .lt || answer .eq)
  gte : answer .gte = (answer .gt || answer .eq)

/-- Numbers that are told apart by their difference: they are equal, or their difference reaches the
middle between the tolerance and the number before it, or one of them is infinite and they are not
the same. -/
inductive Resolved (x y : Float) : Prop
  | same {q : ℚ} (hx : Denotes x q) (hy : Denotes y q)
  | apart {p q : ℚ} (hx : Denotes x p) (hy : Denotes y q)
    (h : 1 / 2 ^ 52 - 1 / 2 ^ 106 ≤ |p - q|)
  | infinite (h : ¬ (x.isFinite ∧ y.isFinite)) (hne : x ≠ y)

/-- The answers fit together when equality says what the order says. -/
theorem consistent_iff (hx : ¬ x.isNaN) (hy : ¬ y.isNaN) :
    Consistent (fun op => op.apply (.number x) (.number y)) ↔
      ((x - y).abs < tolerance ↔ x ≤ y ∧ y ≤ x) := by
  obtain ⟨o, hlt, hgt, hle, hge⟩ := exists_ordering hx hy
  -- All answers can be read off the order of the numbers and whether they are close.
  have hanswers : Consistent (fun op => op.apply (.number x) (.number y)) ↔
      [decide (o = .lt), decide ((x - y).abs < tolerance), decide (o = .gt)].count true = 1 ∧
        decide (o ≠ .gt) = (decide (o = .lt) || decide ((x - y).abs < tolerance)) ∧
        decide (o ≠ .lt) = (decide (o = .gt) || decide ((x - y).abs < tolerance)) := by
    simp only [← hlt, ← hgt, ← hle, ← hge]
    exact ⟨fun h => ⟨h.one, h.lte, h.gte⟩, fun h => ⟨h.1, h.2.1, h.2.2⟩⟩
  rw [hanswers, hle, hge]
  by_cases hclose : (x - y).abs < tolerance <;> cases o <;> simp [hclose]

/-- The difference says what the order says exactly for numbers that are resolved by it. -/
theorem close_iff_iff_resolved (hx : ¬ x.isNaN) (hy : ¬ y.isNaN) :
    ((x - y).abs < tolerance ↔ x ≤ y ∧ y ≤ x) ↔ Resolved x y := by
  by_cases hfinite : x.isFinite ∧ y.isFinite
  · obtain ⟨p, hp⟩ := exists_denotes hfinite.1
    obtain ⟨q, hq⟩ := exists_denotes hfinite.2
    rw [abs_sub_lt_tolerance_iff_denotes hp hq, hp.le_iff hq, hq.le_iff hp, ← le_antisymm_iff]
    constructor
    · intro h
      by_cases heq : p = q
      · exact .same hp (heq ▸ hq)
      · exact .apart hp hq (not_lt.mp (mt h.mp heq))
    · rintro (⟨hp', hq'⟩ | ⟨hp', hq', hapart⟩ | ⟨hinfinite, -⟩)
      · rw [hp.unique hp', hq.unique hq', sub_self, abs_zero]
        exact iff_of_true (by norm_num) rfl
      · rw [← hp.unique hp', ← hq.unique hq'] at hapart
        refine iff_of_false hapart.not_gt fun heq => ?_
        rw [heq, sub_self, abs_zero] at hapart
        norm_num at hapart
      · exact absurd hfinite hinfinite
  · have hclose : ¬ (x - y).abs < tolerance := not_abs_sub_lt_tolerance hfinite
    have hsame : x ≤ y ∧ y ≤ x ↔ x = y := by
      constructor
      · rintro ⟨hxy, hyx⟩
        rcases not_and_or.mp hfinite with h | h
        · exact eq_of_float_le_of_float_le h hxy hyx
        · exact (eq_of_float_le_of_float_le h hyx hxy).symm
      · rintro rfl
        exact ⟨float_le_self_iff.mpr hx, float_le_self_iff.mpr hx⟩
    rw [iff_false_left hclose, hsame]
    constructor
    · exact .infinite hfinite
    · rintro (⟨hp, hq⟩ | ⟨hp, hq, -⟩ | ⟨-, hne⟩)
      · exact absurd ⟨hp.isFinite, hq.isFinite⟩ hfinite
      · exact absurd ⟨hp.isFinite, hq.isFinite⟩ hfinite
      · exact hne

/-- The answers fit together exactly for numbers that their difference tells apart. -/
theorem consistent_iff_resolved (hx : ¬ x.isNaN) (hy : ¬ y.isNaN) :
    Consistent (fun op => op.apply (.number x) (.number y)) ↔ Resolved x y :=
  (consistent_iff hx hy).trans (close_iff_iff_resolved hx hy)

theorem apply_eq_iff :
    eq.apply (.number x) (.number y) ↔
      ∃ p q : ℚ, Denotes x p ∧ Denotes y q ∧ |p - q| < 1 / 2 ^ 52 - 1 / 2 ^ 106 := by
  rw [← abs_sub_lt_tolerance_iff]
  exact decide_eq_true_iff

theorem apply_eq_comm : eq.apply (.number x) (.number y) = eq.apply (.number y) (.number x) := by
  rw [Bool.eq_iff_iff, apply_eq_iff, apply_eq_iff, exists_comm]
  refine exists₂_congr fun q p => ?_
  rw [and_left_comm, abs_sub_comm]

/-- Only an infinite number is not equal to itself. -/
theorem apply_eq_self_iff : eq.apply (.number x) (.number x) ↔ x.isFinite := by
  rw [apply_eq_iff]
  constructor
  · rintro ⟨p, q, hp, -⟩
    exact hp.isFinite
  · intro h
    obtain ⟨q, hq⟩ := exists_denotes h
    exact ⟨q, q, hq, hq, by norm_num⟩

end Comparison

/-! ## Expressions -/

namespace Expr

variable {ρ : Type} [RandomSource ρ] {view : View} {s : ρ} {left right : Expr}

/-- What the comparisons of two expressions answer, without drawing anything. -/
def Answers (view : View) (s : ρ) (left right : Expr) (answer : Comparison → Bool) : Prop :=
  ∀ op, (comparison op left right).eval view s = (.ok (.bool (answer op)), s)

theorem answers_apply {v w : Value} (hleft : left.eval view s = (.ok v, s))
    (hright : right.eval view s = (.ok w, s)) :
    Answers view s left right fun op => op.apply v w := by
  intro op
  rw [eval, Draws.bind_apply, hleft]
  change ((do return Value.bool (op.apply v (← eval view right)) : Draws ρ Value)) s = _
  rw [Draws.bind_apply, hright]
  rfl

theorem eval_of_silent {e : Expr} {v : Value} (hsilent : random ∉ e.nodes)
    (h : (e.eval view s).1 = .ok v) : e.eval view s = (.ok v, s) :=
  Prod.ext h (silent_eval view hsilent).source_eq

/-- The comparisons of expressions that draw nothing and come to numbers always have answers, which
say the same of unequal as not of equal, and the same of equal the other way round. A finite number
is equal to itself. And the answers fit together exactly for numbers that their difference tells
apart. -/
theorem comparisons_consistent_iff (hleft : random ∉ left.nodes) (hright : random ∉ right.nodes)
    (hx : (left.eval view s).1 = .ok (.number x)) (hy : (right.eval view s).1 = .ok (.number y))
    (hxnumber : ¬ x.isNaN) (hynumber : ¬ y.isNaN) :
    ∃ answer reverse self, Answers view s left right answer ∧ Answers view s right left reverse ∧
      Answers view s left left self ∧ answer .neq = !answer .eq ∧ reverse .eq = answer .eq ∧
      (self .eq ↔ x.isFinite) ∧
      (Comparison.Consistent answer ↔ Comparison.Resolved x y) := by
  have hleft' := eval_of_silent hleft hx
  have hright' := eval_of_silent hright hy
  exact ⟨_, _, _, answers_apply hleft' hright', answers_apply hright' hleft',
    answers_apply hleft' hleft', rfl, Comparison.apply_eq_comm, Comparison.apply_eq_self_iff,
    Comparison.consistent_iff_resolved hxnumber hynumber⟩

/-- A price. -/
def price : Expr := .lit (.number 3.0)

/-- What there is to pay it with. -/
def balance : Expr := .ref "gold"

/-- A view of a purse with one coin less. -/
def purse : View where
  readVariable id := if id = "gold" then some (.number 2.0) else none
  readParameter _ := none
  readProperty _ := none
  population _ := 0

theorem price_compared_with_balance :
    random ∉ price.nodes ∧ random ∉ balance.nodes ∧
      (price.eval purse (Xorshift.ofWord 12345)).1 = .ok (.number 3.0) ∧
      (balance.eval purse (Xorshift.ofWord 12345)).1 = .ok (.number 2.0) ∧
      ∃ answer reverse self, Answers purse (Xorshift.ofWord 12345) price balance answer ∧
        Answers purse (Xorshift.ofWord 12345) balance price reverse ∧
        Answers purse (Xorshift.ofWord 12345) price price self ∧ answer .neq = !answer .eq ∧
        reverse .eq = answer .eq ∧ (self .eq ↔ Float.isFinite 3.0) ∧
        (Comparison.Consistent answer ↔ Comparison.Resolved 3.0 2.0) := by
  have hprice : random ∉ price.nodes := by simp [price, nodes]
  have hbalance : random ∉ balance.nodes := by simp [balance, nodes]
  exact ⟨hprice, hbalance, rfl, rfl, comparisons_consistent_iff hprice hbalance rfl rfl
    (by decide +kernel) (by decide +kernel)⟩

/-- A number without end. -/
def boundless : Expr := .lit (.number (1.0 / 0.0))

/-- A number that is not zero, but within the tolerance of it. -/
def trifle : Expr := .lit (.number 1e-17)

/-- Infinity is neither less than, nor equal to, nor greater than itself, and a trifle is both more
than nothing and equal to it. -/
theorem boundless_unequal :
    Answers purse (Xorshift.ofWord 12345) boundless boundless
        (fun op => op matches .lte | .gte | .neq) ∧
      Answers purse (Xorshift.ofWord 12345) (.lit (.number 0.0)) trifle
        (fun op => op matches .lt | .lte | .eq) := by
  constructor <;> intro op <;> rw [answers_apply rfl rfl] <;> cases op <;> rfl

end Expr

end IdleGame
