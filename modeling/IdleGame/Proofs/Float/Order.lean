import IdleGame.Expr.Eval

/-!
# The order of floating point numbers

Two floating point numbers are comparable unless one of them is not a number. The order is read
off the comparison of their unpacked forms, which is total on numbers.

## Main results

* `le_or_lt_iff` - two floats are comparable exactly when both are numbers
* `float_lt_iff` - a float is below another when both are numbers and it is not above
* `clamp?_eq_none_iff` - a clamp has no result exactly when a bound is not a number
* `clamp?_between_iff` - its result is between the bounds exactly when there was a number to move
-/

namespace IdleGame

open Float.Model

theorem compare_eq_none_iff (a b : UnpackedFloat) :
    a.compare b = none ↔ a.isNaN ∨ b.isNaN := by
  rcases a with ⟨_ | _⟩ | _ | ⟨_ | _⟩ | ⟨_ | _, m, e, hm⟩ <;>
    rcases b with ⟨_ | _⟩ | _ | ⟨_ | _⟩ | ⟨_ | _, n, f, hn⟩ <;>
    first
    | exact ⟨fun _ => .inl rfl, fun _ => rfl⟩
    | exact ⟨fun _ => .inr rfl, fun _ => rfl⟩
    | exact ⟨nofun, by rintro (h | h) <;> cases h⟩

/-- Exchanging the operands of a comparison by exponent and mantissa turns its answer around. -/
theorem compare_then_swap (e f : Int) (m n : Nat) :
    (compare f e).then (compare n m) = ((compare e f).then (compare m n)).swap := by
  rw [Ordering.swap_then, Std.OrientedOrd.eq_swap (a := f) (b := e),
    Std.OrientedOrd.eq_swap (a := n) (b := m)]

/-- Exchanging the operands of a comparison turns its answer around. -/
theorem compare_swap (a b : UnpackedFloat) :
    b.compare a = (a.compare b).map Ordering.swap := by
  rcases a with ⟨_ | _⟩ | _ | ⟨_ | _⟩ | ⟨_ | _, m, e, hm⟩ <;>
    rcases b with ⟨_ | _⟩ | _ | ⟨_ | _⟩ | ⟨_ | _, n, f, hn⟩ <;>
    first
    | rfl
    | exact congrArg some (compare_then_swap e f m n)
    | exact congrArg some (congrArg Ordering.swap (compare_then_swap e f m n))

theorem lt_iff_compare (a b : Float) :
    a < b ↔ a.toModel.unpack.compare b.toModel.unpack = some .lt := by
  change decide (a.toModel < b.toModel) = true ↔ _
  rw [decide_eq_true_iff]
  change (a.toModel.unpack.compare b.toModel.unpack == some .lt) = true ↔ _
  rw [beq_iff_eq]

theorem le_iff_compare (a b : Float) :
    a ≤ b ↔ (a.toModel.unpack.compare b.toModel.unpack).any Ordering.isLE := by
  change decide (a.toModel ≤ b.toModel) = true ↔ _
  rw [decide_eq_true_iff]
  rfl

/-- Two floats are comparable exactly when both are numbers. -/
theorem le_or_lt_iff (a b : Float) : a ≤ b ∨ b < a ↔ ¬ (a.isNaN ∨ b.isNaN) := by
  have hnone := compare_eq_none_iff a.toModel.unpack b.toModel.unpack
  rw [le_iff_compare, lt_iff_compare, compare_swap a.toModel.unpack]
  change _ ↔ ¬ (a.toModel.unpack.isNaN ∨ b.toModel.unpack.isNaN)
  rw [← hnone]
  rcases a.toModel.unpack.compare b.toModel.unpack with _ | _ | _ | _ <;> simp

/-- A float that is below another is not above it. -/
theorem not_float_le_of_lt {a b : Float} (h : a < b) : ¬ b ≤ a := by
  rw [lt_iff_compare] at h
  rw [le_iff_compare, compare_swap a.toModel.unpack, h]
  simp

/-- Between numbers one is below the other unless it is above it or equal. -/
theorem float_lt_iff {a b : Float} : a < b ↔ ¬ b ≤ a ∧ ¬ a.isNaN ∧ ¬ b.isNaN := by
  have hcomparable := le_or_lt_iff b a
  constructor
  · intro h
    have hnumbers := hcomparable.mp (.inr h)
    exact ⟨not_float_le_of_lt h, fun ha => hnumbers (.inr ha), fun hb => hnumbers (.inl hb)⟩
  · rintro ⟨hle, ha, hb⟩
    exact (hcomparable.mpr fun h => h.elim hb ha).resolve_left hle

/-- A clamp has no result exactly when one of its bounds is not a number. -/
theorem clamp?_eq_none_iff (x low high : Float) :
    clamp? x low high = none ↔ low.isNaN ∨ high.isNaN := by
  have hcomparable := le_or_lt_iff low high
  unfold clamp?
  by_cases hlt : high < low
  · rw [if_pos hlt]
    simp only [reduceCtorEq, false_iff]
    exact hcomparable.mp (.inr hlt)
  · rw [if_neg hlt]
    by_cases hle : low ≤ high
    · rw [if_pos hle]
      simp only [reduceCtorEq, false_iff]
      exact hcomparable.mp (.inl hle)
    · rw [if_neg hle]
      simp only [true_iff]
      exact Decidable.byContradiction fun hnumbers =>
        (hcomparable.mpr hnumbers).elim hle hlt

/-- A number that is between the bounds of a clamp is left as it is. -/
theorem clamp?_of_between {x low high : Float} (hordered : low ≤ high) (hlow : low ≤ x)
    (hhigh : x ≤ high) : clamp? x low high = some x := by
  have hreversed : ¬ high < low := fun h => not_float_le_of_lt h hordered
  have hbelow : ¬ x < low := fun h => not_float_le_of_lt h hlow
  have habove : ¬ high < x := fun h => not_float_le_of_lt h hhigh
  rw [clamp?, if_neg hreversed, if_pos hordered, if_neg hbelow, if_neg habove]

theorem float_le_self_iff {x : Float} : x ≤ x ↔ ¬ x.isNaN := by
  have hcomparable := le_or_lt_iff x x
  have hirreflexive : ¬ x < x := by
    intro h
    have hswap := compare_swap x.toModel.unpack x.toModel.unpack
    rw [lt_iff_compare] at h
    rw [h] at hswap
    cases hswap
  rwa [or_self, or_iff_left hirreflexive] at hcomparable

theorem isNumber_of_float_le {x y : Float} (h : x ≤ y) : ¬ x.isNaN ∧ ¬ y.isNaN :=
  not_or.mp ((le_or_lt_iff x y).mp (.inl h))

/-- What a clamp gives is between its bounds exactly when there was a number to be moved. -/
theorem clamp?_between_iff {x y low high : Float} (hordered : low ≤ high)
    (h : clamp? x low high = some y) : low ≤ y ∧ y ≤ high ↔ ¬ x.isNaN := by
  obtain ⟨hlow, hhigh⟩ := isNumber_of_float_le hordered
  have hreversed : ¬ high < low := fun h => not_float_le_of_lt h hordered
  rw [clamp?, if_neg hreversed, if_pos hordered] at h
  by_cases hbelow : x < low
  · rw [if_pos hbelow] at h
    obtain rfl := Option.some.inj h
    exact iff_of_true ⟨float_le_self_iff.mpr hlow, hordered⟩ (float_lt_iff.mp hbelow).2.1
  · rw [if_neg hbelow] at h
    by_cases habove : high < x
    · rw [if_pos habove] at h
      obtain rfl := Option.some.inj h
      exact iff_of_true ⟨hordered, float_le_self_iff.mpr hhigh⟩ (float_lt_iff.mp habove).2.2
    · rw [if_neg habove] at h
      obtain rfl := Option.some.inj h
      constructor
      · intro hbetween
        exact (isNumber_of_float_le hbetween.1).2
      · intro hnumber
        have hlow' := (le_or_lt_iff low x).mpr (not_or.mpr ⟨hlow, hnumber⟩)
        have hhigh' := (le_or_lt_iff x high).mpr (not_or.mpr ⟨hnumber, hhigh⟩)
        exact ⟨hlow'.resolve_right hbelow, hhigh'.resolve_right habove⟩

end IdleGame
