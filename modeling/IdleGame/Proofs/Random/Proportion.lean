import IdleGame.Proofs.Random.Weighted
import Mathlib.Order.Interval.Set.Defs

/-!
# Weighted choices without rounding

Over numbers that are not rounded, the positive weights divide the stretch from zero to their total
into intervals, one behind the other, and a draw chooses the weight whose interval it falls into.
The walk along the weights keeps what is left of the threshold and no sums; it ends at the weight
with that interval all the same, and never behind the last one.

## Main definitions

* `Weighted.positiveSum`, `Weighted.before` - the sum of the positive weights, of all and of those
  before an index
* `Weighted.Owns` - the draw falls into the interval of an index
* `Weighted.WalkEnd`, `Weighted.walk` - how a walk along the weights ends
* `Weighted.drawFrom` - a choice by a draw from any source of any numbers

## Main results

* `Weighted.walk_eq_hit_iff` - a walk ends at the weight that the threshold falls on
* `Weighted.choose?_eq_some_iff_owns` - a draw chooses the index that owns it
* `Weighted.chooses_proportionally` - all of this together
-/

namespace IdleGame.Weighted

/-- How a walk along weights ends. -/
inductive WalkEnd where
  /-- At the weight that the threshold falls on. -/
  | hit (i : Nat)
  /-- Behind all weights, with the last one that was not passed over. -/
  | behind (last : Option Nat)
deriving DecidableEq

/-- The index that a walk with this end answers. -/
def WalkEnd.index? : WalkEnd → Option Nat
  | .hit i => some i
  | .behind last => last

/-- The walk of `pick`, with its end told apart. -/
def walk {α : Type} [Sub α] [LE α] [LT α] [DecidableLE α] [DecidableLT α] (zero : α) :
    List α → Nat → α → Option Nat → WalkEnd
  | [], _, _, last => .behind last
  | w :: ws, i, threshold, last =>
    if w ≤ zero then walk zero ws (i + 1) threshold last
    else if threshold < w then .hit i
    else walk zero ws (i + 1) (threshold - w) (some i)

theorem pick_eq_index?_walk {α : Type} [Sub α] [LE α] [LT α] [DecidableLE α] [DecidableLT α]
    (zero : α) (weights : List α) (i : Nat) (threshold : α) (last : Option Nat) :
    pick zero weights i threshold last = (walk zero weights i threshold last).index? := by
  induction weights generalizing i threshold last with
  | nil => rfl
  | cons w ws ih =>
    rw [pick, walk]
    split
    · exact ih ..
    · split
      · rfl
      · exact ih ..

/-- The index that is chosen by a draw from a source of any numbers, and the source afterwards. -/
def drawFrom {α σ : Type} [Add α] [Sub α] [Mul α] [LE α] [LT α] [DecidableLE α] [DecidableLT α]
    (next : σ → α × σ) (zero : α) (weights : List α) (s : σ) : Option Nat × σ :=
  if isChoosable zero weights then (choose? zero weights (next s).1, (next s).2) else (none, s)

/-- The choice that games make is the one from a source of floating point numbers. -/
theorem draw_eq_drawFrom {ρ : Type} [RandomSource ρ] (weights : List Float) (r : ρ) :
    Weighted.draw weights r =
      (.ok (drawFrom RandomSource.next 0.0 weights r).1,
        (drawFrom RandomSource.next 0.0 weights r).2) := by
  rw [Weighted.draw, drawFrom]
  split <;> rfl

section Sums

variable {K : Type} [AddCommGroup K] [LinearOrder K] {w threshold : K} {weights : List K}
  {i j k : Nat} {last : Option Nat}

/-- The sum of the positive ones among weights. -/
def positiveSum (weights : List K) : K := (weights.filter (0 < ·)).sum

/-- The sum of the positive weights before an index. -/
def before (weights : List K) (i : Nat) : K := positiveSum (weights.take i)

theorem total_eq_positiveSum : total 0 weights = positiveSum weights := by
  rw [total, positiveSum, List.sum_eq_foldl]

theorem positiveSum_cons_of_pos (h : 0 < w) :
    positiveSum (w :: weights) = w + positiveSum weights := by
  rw [positiveSum, List.filter_cons_of_pos (by simpa using h), List.sum_cons, positiveSum]

theorem positiveSum_cons_of_not_pos (h : ¬ 0 < w) :
    positiveSum (w :: weights) = positiveSum weights := by
  rw [positiveSum, List.filter_cons_of_neg (by simpa using h), positiveSum]

@[simp] theorem before_zero : before weights 0 = 0 := by simp [before, positiveSum]

theorem before_cons_of_pos (h : 0 < w) :
    before (w :: weights) (i + 1) = w + before weights i := positiveSum_cons_of_pos h

theorem before_cons_of_not_pos (h : ¬ 0 < w) :
    before (w :: weights) (i + 1) = before weights i := positiveSum_cons_of_not_pos h

theorem before_succ (h : weights[i]? = some w) (hw : 0 < w) :
    before weights (i + 1) = before weights i + w := by
  have htake : weights.take (i + 1) = weights.take i ++ [w] := by
    rw [List.take_add_one, h, Option.toList_some]
  rw [before, htake, before, positiveSum, positiveSum, List.filter_append, List.sum_append]
  simp [hw]

variable [IsOrderedAddMonoid K]

theorem positiveSum_nonneg : 0 ≤ positiveSum weights :=
  List.sum_nonneg fun _ hw => (of_decide_eq_true (List.mem_filter.mp hw).2).le

theorem before_nonneg : 0 ≤ before weights i := positiveSum_nonneg

/-- The weights before an index are some of those before a later one. -/
theorem before_mono (h : i ≤ j) : before weights i ≤ before weights j := by
  induction weights generalizing i j with
  | nil => simp [before]
  | cons w ws ih =>
    rcases i with _ | i
    · rw [before_zero]
      exact before_nonneg
    · obtain ⟨j, rfl⟩ : ∃ j', j = j' + 1 := ⟨j - 1, by omega⟩
      have hij : i ≤ j := by omega
      by_cases hw : 0 < w
      · rw [before_cons_of_pos hw, before_cons_of_pos hw]
        exact add_le_add_right (ih hij) w
      · rw [before_cons_of_not_pos hw, before_cons_of_not_pos hw]
        exact ih hij

theorem before_le_positiveSum : before weights i ≤ positiveSum weights := by
  have hall : before weights (max i weights.length) = positiveSum weights := by
    rw [before, List.take_of_length_le (le_max_right _ _)]
  rw [← hall]
  exact before_mono (le_max_left _ _)

theorem positiveSum_pos_iff : 0 < positiveSum weights ↔ ∃ w ∈ weights, 0 < w := by
  induction weights with
  | nil => simp [positiveSum]
  | cons w ws ih =>
    by_cases hw : 0 < w
    · rw [positiveSum_cons_of_pos hw]
      exact iff_of_true (add_pos_of_pos_of_nonneg hw positiveSum_nonneg) ⟨w, by simp, hw⟩
    · rw [positiveSum_cons_of_not_pos hw, ih]
      simp [hw]

theorem isChoosable_iff_exists_pos : isChoosable 0 weights ↔ ∃ w ∈ weights, 0 < w := by
  rw [isChoosable, decide_eq_true_eq, total_eq_positiveSum, not_le, positiveSum_pos_iff]

/-! ## Where a walk ends -/

/-- A walk ends at the weight that the threshold falls on: behind the positive weights before it,
and before its own end. -/
theorem walk_eq_hit_iff (hthreshold : 0 ≤ threshold) :
    walk 0 weights k threshold last = .hit j ↔
      ∃ i w, j = k + i ∧ weights[i]? = some w ∧ 0 < w ∧ before weights i ≤ threshold ∧
        threshold < before weights i + w := by
  induction weights generalizing k threshold last with
  | nil => simp [walk]
  | cons w ws ih =>
    rw [walk]
    by_cases hpassed : w ≤ 0
    · -- A weight that is passed over has no interval, and moves those behind it nowhere.
      have hw : ¬ 0 < w := not_lt.mpr hpassed
      rw [if_pos hpassed, ih hthreshold]
      constructor
      · rintro ⟨i, v, rfl, hi, hv, hbounds⟩
        refine ⟨i + 1, v, by omega, hi, hv, ?_⟩
        rwa [before_cons_of_not_pos hw]
      · rintro ⟨i, v, rfl, hi, hv, hbounds⟩
        rcases i with _ | i
        · obtain rfl : w = v := Option.some.inj hi
          exact absurd hv hw
        · rw [before_cons_of_not_pos hw] at hbounds
          exact ⟨i, v, by omega, hi, hv, hbounds⟩
    · have hw : 0 < w := not_le.mp hpassed
      rw [if_neg hpassed]
      by_cases hbelow : threshold < w
      · rw [if_pos hbelow]
        constructor
        · intro h
          obtain rfl : k = j := WalkEnd.hit.inj h
          exact ⟨0, w, rfl, rfl, hw, by simpa using hthreshold, by simpa using hbelow⟩
        · rintro ⟨i, v, rfl, hi, hv, hlow, hhigh⟩
          rcases i with _ | i
          · rfl
          · -- All later intervals begin behind this weight.
            rw [before_cons_of_pos hw] at hlow
            have hbefore : 0 ≤ before ws i := before_nonneg
            exact absurd (lt_of_lt_of_le hbelow (le_add_of_nonneg_right hbefore)) (not_lt.mpr hlow)
      · -- What is left of the threshold counts from the end of this weight.
        rw [if_neg hbelow, ih (sub_nonneg.mpr (not_lt.mp hbelow))]
        constructor
        · rintro ⟨i, v, rfl, hi, hv, hlow, hhigh⟩
          refine ⟨i + 1, v, by omega, hi, hv, ?_, ?_⟩
          · rw [before_cons_of_pos hw]
            exact le_sub_iff_add_le'.mp hlow
          · rw [before_cons_of_pos hw, add_assoc]
            exact sub_lt_iff_lt_add'.mp hhigh
        · rintro ⟨i, v, rfl, hi, hv, hlow, hhigh⟩
          rcases i with _ | i
          · obtain rfl : w = v := Option.some.inj hi
            exact absurd (by simpa using hhigh) hbelow
          · rw [before_cons_of_pos hw] at hlow hhigh
            rw [add_assoc] at hhigh
            exact ⟨i, v, by omega, hi, hv, le_sub_iff_add_le'.mpr hlow,
              sub_lt_iff_lt_add'.mpr hhigh⟩

/-- A walk with a threshold below the total ends at some weight. -/
theorem exists_walk_eq_hit (hthreshold : 0 ≤ threshold) (h : threshold < positiveSum weights) :
    ∃ j, walk 0 weights k threshold last = .hit j := by
  induction weights generalizing k threshold last with
  | nil => exact absurd hthreshold (not_le.mpr (by simpa [positiveSum] using h))
  | cons w ws ih =>
    rw [walk]
    by_cases hpassed : w ≤ 0
    · rw [positiveSum_cons_of_not_pos (not_lt.mpr hpassed)] at h
      rw [if_pos hpassed]
      exact ih hthreshold h
    · rw [positiveSum_cons_of_pos (not_le.mp hpassed)] at h
      rw [if_neg hpassed]
      by_cases hbelow : threshold < w
      · rw [if_pos hbelow]
        exact ⟨k, rfl⟩
      · rw [if_neg hbelow]
        exact ih (sub_nonneg.mpr (not_lt.mp hbelow)) (sub_lt_iff_lt_add'.mpr h)

end Sums

section Draws

variable {K : Type} [DivisionRing K] [LinearOrder K] {weights : List K} {w x y : K} {i j : Nat}

/-- A draw, stretched to the total, falls into the interval of an index: it begins where the
positive weights before the index end, and is as long as its weight. -/
def Owns (weights : List K) (x : K) (i : Nat) : Prop :=
  ∃ w, weights[i]? = some w ∧ 0 < w ∧ before weights i ≤ x * positiveSum weights ∧
    x * positiveSum weights < before weights i + w

theorem exists_pos_of_owns (h : Owns weights x i) : ∃ w ∈ weights, 0 < w := by
  obtain ⟨w, hi, hw, -⟩ := h
  exact ⟨w, List.mem_of_getElem? hi, hw⟩

variable [IsStrictOrderedRing K]

theorem walk_eq_hit_iff_owns (hx : 0 ≤ x) :
    walk 0 weights 0 (x * total 0 weights) none = .hit i ↔ Owns weights x i := by
  rw [total_eq_positiveSum, walk_eq_hit_iff (mul_nonneg hx positiveSum_nonneg), Owns]
  constructor
  · rintro ⟨i', w, rfl, h⟩
    exact ⟨w, by simpa using h⟩
  · rintro ⟨w, h⟩
    exact ⟨i, w, by omega, h⟩

/-- With a positive weight, every draw below one ends a walk at some weight. -/
theorem exists_walk_eq_hit_of_lt_one (hpos : ∃ w ∈ weights, 0 < w) (hx : 0 ≤ x) (hx' : x < 1) :
    ∃ i, walk 0 weights 0 (x * total 0 weights) none = .hit i := by
  have htotal : 0 < positiveSum weights := positiveSum_pos_iff.mpr hpos
  rw [total_eq_positiveSum]
  exact exists_walk_eq_hit (mul_nonneg hx htotal.le) (mul_lt_of_lt_one_left htotal hx')

theorem choose?_eq_index?_walk (hpos : ∃ w ∈ weights, 0 < w) :
    choose? 0 weights x = (walk 0 weights 0 (x * total 0 weights) none).index? := by
  rw [choose?, if_pos (isChoosable_iff_exists_pos.mpr hpos), pick_eq_index?_walk]

/-- A draw chooses the index that owns it. -/
theorem choose?_eq_some_iff_owns (hx : 0 ≤ x) (hx' : x < 1) :
    choose? 0 weights x = some i ↔ Owns weights x i := by
  by_cases hpos : ∃ w ∈ weights, 0 < w
  · obtain ⟨j, hj⟩ := exists_walk_eq_hit_of_lt_one hpos hx hx'
    rw [choose?_eq_index?_walk hpos, ← walk_eq_hit_iff_owns hx, hj]
    exact ⟨fun h => congrArg WalkEnd.hit (Option.some.inj h), fun h => congrArg WalkEnd.index? h⟩
  · rw [choose?, if_neg (mt isChoosable_iff_exists_pos.mp hpos)]
    exact iff_of_false (by simp) fun h => hpos (exists_pos_of_owns h)

/-- The interval of an index is a part of the draws that is as large as its weight is of the
total. -/
theorem owns_iff_mem_Ico (hi : weights[i]? = some w) (hw : 0 < w) :
    Owns weights x i ↔
      x ∈ Set.Ico (before weights i / positiveSum weights)
        (before weights i / positiveSum weights + w / positiveSum weights) := by
  have htotal : 0 < positiveSum weights :=
    positiveSum_pos_iff.mpr ⟨w, List.mem_of_getElem? hi, hw⟩
  rw [Set.mem_Ico, ← add_div, div_le_iff₀ htotal, lt_div_iff₀ htotal]
  constructor
  · rintro ⟨v, hv, -, hbounds⟩
    obtain rfl : w = v := Option.some.inj (hi.symm.trans hv)
    exact hbounds
  · intro hbounds
    exact ⟨w, hi, hw, hbounds⟩

/-- The draws that an index owns lie between zero and one. -/
theorem mem_Ico_of_owns (h : Owns weights x i) : x ∈ Set.Ico 0 1 := by
  have htotal : 0 < positiveSum weights := positiveSum_pos_iff.mpr (exists_pos_of_owns h)
  obtain ⟨w, hi, hw, hlow, hhigh⟩ := h
  constructor
  · exact nonneg_of_mul_nonneg_left (before_nonneg.trans hlow) htotal
  · -- The interval ends before the total does.
    rw [← before_succ hi hw] at hhigh
    exact lt_of_mul_lt_mul_right ((lt_of_lt_of_le hhigh before_le_positiveSum).trans_eq
      (one_mul _).symm) htotal.le

/-- Larger draws are owned by the same index or a later one. -/
theorem le_of_owns (hi : Owns weights x i) (hj : Owns weights y j) (hxy : x ≤ y) : i ≤ j := by
  by_contra hlater
  obtain ⟨w, hwi, -, hlow, -⟩ := hi
  obtain ⟨v, hvj, hv, -, hhigh⟩ := hj
  -- Then the interval of `j` would end before that of `i` begins.
  have hends : before weights (j + 1) ≤ before weights i := before_mono (by omega)
  rw [before_succ hvj hv] at hends
  have hstretched : x * positiveSum weights ≤ y * positiveSum weights :=
    mul_le_mul_of_nonneg_right hxy positiveSum_nonneg
  exact lt_irrefl _ (hhigh.trans_le (hends.trans (hlow.trans hstretched)))

theorem eq_of_owns (hi : Owns weights x i) (hj : Owns weights x j) : i = j :=
  le_antisymm (le_of_owns hi hj le_rfl) (le_of_owns hj hi le_rfl)

/-! ## Choices -/

variable {σ : Type} {next : σ → K × σ} {s : σ}

/-- The draws that choose an index are those that it owns. -/
theorem choosing_draws_eq (hi : weights[i]? = some w) (hw : 0 < w) :
    {x | x ∈ Set.Ico 0 1 ∧ choose? 0 weights x = some i} =
      Set.Ico (before weights i / positiveSum weights)
        (before weights i / positiveSum weights + w / positiveSum weights) := by
  ext x
  rw [← owns_iff_mem_Ico hi hw, Set.mem_ofPred_eq]
  constructor
  · rintro ⟨hx, hchosen⟩
    exact (choose?_eq_some_iff_owns hx.1 hx.2).mp hchosen
  · intro howns
    have hx := mem_Ico_of_owns howns
    exact ⟨hx, (choose?_eq_some_iff_owns hx.1 hx.2).mpr howns⟩

theorem drawFrom_of_exists_pos (h : ∃ w ∈ weights, 0 < w) :
    drawFrom next 0 weights s = (choose? 0 weights (next s).1, (next s).2) := by
  rw [drawFrom, if_pos (isChoosable_iff_exists_pos.mpr h)]

theorem drawFrom_of_not_exists_pos (h : ¬ ∃ w ∈ weights, 0 < w) :
    drawFrom next 0 weights s = (none, s) := by
  rw [drawFrom, if_neg (mt isChoosable_iff_exists_pos.mp h)]

/-- Nothing is chosen exactly when no weight is positive, whatever is drawn. -/
theorem drawFrom_eq_none_iff :
    (drawFrom next 0 weights s).1 = none ↔ ∀ w ∈ weights, w ≤ 0 := by
  have hnone : (∀ w ∈ weights, w ≤ 0) ↔ ¬ ∃ w ∈ weights, 0 < w := by simp
  rw [hnone]
  by_cases hpos : ∃ w ∈ weights, 0 < w
  · have hsome : (choose? 0 weights (next s).1).isSome := by
      obtain ⟨w, hw, hlt⟩ := hpos
      rw [choose?, if_pos (isChoosable_iff_exists_pos.mpr ⟨w, hw, hlt⟩)]
      exact isSome_pick (.inr ⟨w, hw, not_le.mpr hlt⟩)
    rw [drawFrom_of_exists_pos hpos]
    exact iff_of_false (Option.isSome_iff_ne_none.mp hsome) (not_not_intro hpos)
  · rw [drawFrom_of_not_exists_pos hpos]
    exact iff_of_true rfl hpos

end Draws

/-- Games choose from their source as from a source of any numbers, and weights that are not rounded
are chosen in proportion. Nothing is chosen exactly when no weight is positive, and then nothing is
drawn. Otherwise one draw is made, and it chooses the only index that owns it; the walk ends there
and never behind the last weight. The draws that choose an index are an interval as long as its
weight is in proportion to the total, and larger draws choose later indices. -/
theorem chooses_proportionally {σ : Type} (next : σ → ℚ × σ) (weights : List ℚ) (s : σ) :
    (∀ (ρ : Type) [RandomSource ρ] (floats : List Float) (r : ρ), Weighted.draw floats r =
        (.ok (drawFrom RandomSource.next 0.0 floats r).1,
          (drawFrom RandomSource.next 0.0 floats r).2)) ∧
      ((drawFrom next 0 weights s).1 = none ↔ ∀ w ∈ weights, w ≤ 0) ∧
      ((∀ w ∈ weights, w ≤ 0) → (drawFrom next 0 weights s).2 = s) ∧
      ((∃ w ∈ weights, 0 < w) → (next s).1 ∈ Set.Ico 0 1 →
        ∃ i, drawFrom next 0 weights s = (some i, (next s).2) ∧
          Owns weights (next s).1 i ∧ (∀ j, Owns weights (next s).1 j → j = i) ∧
          walk 0 weights 0 ((next s).1 * total 0 weights) none = .hit i) ∧
      (∀ i w, weights[i]? = some w → 0 < w →
        {x | x ∈ Set.Ico 0 1 ∧ choose? 0 weights x = some i} =
          Set.Ico (before weights i / positiveSum weights)
            (before weights i / positiveSum weights + w / positiveSum weights)) ∧
      ∀ x ∈ Set.Ico 0 1, ∀ y ∈ Set.Ico 0 1, x ≤ y →
        ∀ i j, choose? 0 weights x = some i → choose? 0 weights y = some j → i ≤ j := by
  refine ⟨fun _ => draw_eq_drawFrom, drawFrom_eq_none_iff, ?_, ?_,
    fun i w hi hw => choosing_draws_eq hi hw, ?_⟩
  · intro hnone
    rw [drawFrom_of_not_exists_pos (by simpa using hnone)]
  · intro hpos hx
    obtain ⟨i, hi⟩ := exists_walk_eq_hit_of_lt_one hpos hx.1 hx.2
    have howns : Owns weights (next s).1 i := (walk_eq_hit_iff_owns hx.1).mp hi
    refine ⟨i, ?_, howns, fun j hj => eq_of_owns hj howns, hi⟩
    rw [drawFrom_of_exists_pos hpos, (choose?_eq_some_iff_owns hx.1 hx.2).mpr howns]
  · intro x hx y hy hxy i j hi hj
    exact le_of_owns ((choose?_eq_some_iff_owns hx.1 hx.2).mp hi)
      ((choose?_eq_some_iff_owns hy.1 hy.2).mp hj) hxy

/-- Between a weight of zero and a negative one stands a weight of one, behind them one of three: a
draw in the middle chooses the last, after one draw. -/
theorem lottery_chooses_proportionally :
    ((∃ w ∈ [(0 : ℚ), 1, -2, 3], 0 < w) ∧ (1 / 2 : ℚ) ∈ Set.Ico 0 1) ∧
      drawFrom (fun n : Nat => ((1 / 2 : ℚ), n + 1)) 0 [0, 1, -2, 3] 0 = (some 3, 1) ∧
      Owns [(0 : ℚ), 1, -2, 3] (1 / 2) 3 ∧
      {x : ℚ | x ∈ Set.Ico 0 1 ∧ choose? 0 [0, 1, -2, 3] x = some 1} = Set.Ico 0 (1 / 4) := by
  have hpos : ∃ w ∈ [(0 : ℚ), 1, -2, 3], 0 < w := ⟨1, by simp, one_pos⟩
  have hdraw : (1 / 2 : ℚ) ∈ Set.Ico 0 1 := by norm_num
  obtain ⟨-, -, -, hchosen, hinterval, -⟩ :=
    chooses_proportionally (fun n : Nat => ((1 / 2 : ℚ), n + 1)) [0, 1, -2, 3] 0
  obtain ⟨i, hi, howns, -⟩ := hchosen hpos hdraw
  have hthree : drawFrom (fun n : Nat => ((1 / 2 : ℚ), n + 1)) 0 [0, 1, -2, 3] 0 = (some 3, 1) := by
    decide +kernel
  obtain rfl : i = 3 := by
    rw [hthree] at hi
    exact (Option.some.inj (Prod.mk.inj hi).1).symm
  refine ⟨⟨hpos, hdraw⟩, hthree, howns, ?_⟩
  have hone := hinterval 1 1 rfl one_pos
  have hbefore : before [(0 : ℚ), 1, -2, 3] 1 = 0 := by decide +kernel
  have htotal : positiveSum [(0 : ℚ), 1, -2, 3] = 4 := by decide +kernel
  rwa [hbefore, htotal, zero_div, zero_add] at hone

end IdleGame.Weighted
