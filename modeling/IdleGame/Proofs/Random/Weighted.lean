import IdleGame.Action.Run
import IdleGame.Proofs.Float.Sum

/-!
# What a weighted choice chooses

The positive weights are summed up with one test and walked along with another. The two agree on
every number; a weight that is not a number is left out of the sum, but not passed over. So such a
weight is chosen when it is the last one that is not passed over and rounding, or an infinite
weight, leaves the threshold behind all others.

## Main results

* `Weighted.pick_eq_some` - a walk ends at a weight above the threshold, or at the last one that it
  does not pass over
* `Weighted.isChoosable_iff` - a number is drawn exactly when some weight is positive
* `Weighted.choose?_eq_some` - what is chosen is positive, or the last and not a number
-/

namespace IdleGame.Weighted

section Walk

variable {α : Type} [Sub α] [LE α] [LT α] [DecidableLE α] [DecidableLT α] {zero threshold : α}
  {weights : List α} {i j : Nat} {last : Option Nat}

/-- A walk has an end when there is a weight that it does not pass over. -/
theorem isSome_pick (h : last.isSome ∨ ∃ w ∈ weights, ¬ w ≤ zero) :
    (pick zero weights i threshold last).isSome := by
  induction weights generalizing i threshold last with
  | nil => simpa [pick] using h
  | cons w ws ih =>
    rw [pick]
    by_cases hpassed : w ≤ zero
    · rw [if_pos hpassed]
      exact ih (by simpa [hpassed] using h)
    · rw [if_neg hpassed]
      split
      · rfl
      · exact ih (.inl rfl)

/-- A walk ends where it would have ended before it began, having passed over all weights, or at one
that it does not pass over: because what is left of the threshold lies below it, or because it
passes over all that come after. -/
theorem pick_eq_some (h : pick zero weights i threshold last = some j) :
    (last = some j ∧ ∀ w ∈ weights, w ≤ zero) ∨
      ∃ k w, weights[k]? = some w ∧ j = i + k ∧ ¬ w ≤ zero ∧
        ((∃ left, left < w) ∨ ∀ w' ∈ weights.drop (k + 1), w' ≤ zero) := by
  induction weights generalizing i threshold last with
  | nil => exact .inl ⟨h, by simp⟩
  | cons w ws ih =>
    rw [pick] at h
    by_cases hpassed : w ≤ zero
    · rw [if_pos hpassed] at h
      rcases ih h with ⟨hlast, hall⟩ | ⟨k, w', hw', hj, hrest⟩
      · exact .inl ⟨hlast, List.forall_mem_cons.mpr ⟨hpassed, hall⟩⟩
      · exact .inr ⟨k + 1, w', hw', by omega, hrest⟩
    · right
      rw [if_neg hpassed] at h
      by_cases hbelow : threshold < w
      · rw [if_pos hbelow] at h
        exact ⟨0, w, rfl, (Option.some.inj h).symm, hpassed, .inl ⟨threshold, hbelow⟩⟩
      · -- Here `w` becomes the last weight that was not passed over.
        rw [if_neg hbelow] at h
        rcases ih h with ⟨hlast, hall⟩ | ⟨k, w', hw', hj, hrest⟩
        · exact ⟨0, w, rfl, (Option.some.inj hlast).symm, hpassed, .inr hall⟩
        · exact ⟨k + 1, w', hw', by omega, hrest⟩

end Walk

variable {weights : List Float} {w draw : Float} {i : Nat}

theorem pos_iff : 0.0 < w ↔ ¬ w ≤ 0.0 ∧ ¬ w.isNaN := by
  have hzero : ¬ (0.0 : Float).isNaN := by decide
  rw [float_lt_iff, and_iff_right hzero]

theorem total_pos (h : ∃ w ∈ weights, 0.0 < w) : 0.0 < total 0.0 weights := by
  obtain ⟨w, hw, hpos⟩ := h
  refine pos_foldl_add (.inr ⟨by decide, ?_⟩) ?_
  · exact List.ne_nil_of_mem (List.mem_filter.mpr ⟨hw, decide_eq_true hpos⟩)
  · intro y hy
    exact of_decide_eq_true (List.mem_filter.mp hy).2

/-- A number is drawn exactly when some weight is positive. -/
theorem isChoosable_iff : isChoosable 0.0 weights ↔ ∃ w ∈ weights, 0.0 < w := by
  rw [isChoosable, decide_eq_true_eq]
  by_cases h : ∃ w ∈ weights, 0.0 < w
  · simp only [h, iff_true]
    exact not_float_le_of_lt (total_pos h)
  · -- Then there is nothing to sum up, and the total is zero.
    have hempty : weights.filter (fun w => decide (0.0 < w)) = [] := by
      rw [List.filter_eq_nil_iff]
      intro w hw hpos
      exact h ⟨w, hw, of_decide_eq_true hpos⟩
    simp only [h, iff_false, total, hempty]
    decide

/-- As soon as some weight is positive, every draw chooses. -/
theorem isSome_choose? (h : ∃ w ∈ weights, 0.0 < w) : (choose? 0.0 weights draw).isSome := by
  rw [choose?, if_pos (isChoosable_iff.mpr h)]
  obtain ⟨w, hw, hpos⟩ := h
  exact isSome_pick (.inr ⟨w, hw, not_float_le_of_lt hpos⟩)

/-- What is chosen is positive, or not a number and the last weight that is not passed over. -/
theorem choose?_eq_some (h : choose? 0.0 weights draw = some i) :
    ∃ w, weights[i]? = some w ∧
      (0.0 < w ∨ w.isNaN ∧ ∀ w' ∈ weights.drop (i + 1), w' ≤ 0.0) := by
  rw [choose?] at h
  split at h
  · rcases pick_eq_some h with ⟨hlast, -⟩ | ⟨k, w, hw, hi, hkept, hend⟩
    · cases hlast
    · obtain rfl : i = k := by omega
      refine ⟨w, hw, ?_⟩
      by_cases hnan : w.isNaN
      · right
        refine ⟨hnan, hend.resolve_left ?_⟩
        rintro ⟨left, hbelow⟩
        exact (float_lt_iff.mp hbelow).2.2 hnan
      · exact .inl (pos_iff.mpr ⟨hkept, hnan⟩)
  · cases h

section Draw

variable {ρ : Type} [RandomSource ρ] {r : ρ}

/-- With a positive weight one number is drawn, and it chooses. -/
theorem draw_eq (h : ∃ w ∈ weights, 0.0 < w) :
    Weighted.draw weights r =
      (.ok (choose? 0.0 weights (RandomSource.next r).1), (RandomSource.next r).2) := by
  rw [Weighted.draw, if_pos (isChoosable_iff.mpr h)]
  rfl

/-- Without one nothing is drawn. -/
theorem draw_eq_none (h : ∀ w ∈ weights, ¬ 0.0 < w) : Weighted.draw weights r = (.ok none, r) := by
  rw [Weighted.draw, if_neg]
  · rfl
  · rw [isChoosable_iff]
    rintro ⟨w, hw, hpos⟩
    exact h w hw hpos

end Draw

end IdleGame.Weighted
