import IdleGame.Proofs.Float.Order
import Mathlib

/-!
# Sums of positive numbers

A sum is rounded, and rounding can make a zero of a number that is too small. It never does so to
a sum of positive numbers: no sum of two numbers is finer than both of them, and the number that
it is rounded to has at least one digit left.

## Main definitions

* `IsPositive` - an unpacked number above zero, infinity included

## Main results

* `isPositive_unpack_pack` - a positive number stays one when it is packed
* `isPositive_add` - rounding does not make a zero of a sum
* `pos_add`, `pos_foldl_add` - sums of positive numbers are positive
-/

namespace IdleGame

open Float.Model Float.Model.UnpackedFloat

/-- An unpacked number above zero, infinity included. -/
def IsPositive : UnpackedFloat → Prop
  | .infinity .positive | .finite .positive .. => True
  | _ => False

/-! ### Digits that are shifted away -/

theorem mantissa_shiftRight (em : ExtendedMantissa) (k : Nat) :
    (em >>> k).mantissa = em.mantissa / 2 ^ k := by
  induction k with
  | zero => simp [HShiftRight.hShiftRight, Nat.repeat]
  | succ k ih =>
    change (ExtendedMantissa.shiftRightOne (em >>> k)).mantissa = _
    simp only [ExtendedMantissa.shiftRightOne, ih, Nat.div_div_eq_div_mul, Nat.pow_succ]

theorem mantissa_ofMantissaAndAccuracy (m : Nat) (a : Accuracy) :
    (ExtendedMantissa.ofMantissaAndAccuracy m a).mantissa = m := by
  rcases a with _ | ⟨_ | _ | _⟩ <;> rfl

/-- Rounding adds to a mantissa or leaves it. -/
theorem le_roundToNearestEven (m : Nat) (a : Accuracy) : m ≤ a.roundToNearestEven m := by
  rcases a with _ | ⟨_ | _ | _⟩ <;> simp [Accuracy.roundToNearestEven]

theorem targetExponent_binary64 (t : Int) :
    Format.binary64.targetExponent t = max (t - 53) (-1074) := rfl

/-- A mantissa that is shifted to the exponent it is written with keeps its first digit, and fits
into 53 of them. -/
theorem div_two_pow_bounds {m : Nat} {e : Int} (hm : 0 < m) (he : -1074 ≤ e) :
    let k := (Format.binary64.targetExponent (totalExponent m e) - e).toNat
    0 < m / 2 ^ k ∧ m / 2 ^ k < 2 ^ 53 := by
  intro k
  have hlow := Nat.log2_self_le (Nat.ne_of_gt hm)
  have hhigh := Nat.lt_log2_self (n := m)
  -- What is shifted away are the digits from the 54th on, because the exponent is large enough.
  have hk : k = m.log2 - 52 := by
    change (max ((m.log2 : Int) + 1 + e - 53) (-1074) - e).toNat = _
    omega
  have hpow : 2 ^ k ≤ 2 ^ m.log2 := Nat.pow_le_pow_right (by decide) (by omega)
  have hpow' : 2 ^ (m.log2 + 1) ≤ 2 ^ 53 * 2 ^ k := by
    rw [← Nat.pow_add]
    exact Nat.pow_le_pow_right (by decide) (by omega)
  constructor
  · exact Nat.div_pos (Nat.le_trans hpow hlow) (Nat.two_pow_pos k)
  · rw [Nat.div_lt_iff_lt_mul (Nat.two_pow_pos k)]
    exact Nat.lt_of_lt_of_le hhigh hpow'

/-- Rounding leaves at least one digit and at most 53. -/
theorem roundWithAccuracy_bounds {m : Nat} {e : Int} (s : Sign) (a : Accuracy) (hm : 0 < m)
    (he : -1074 ≤ e) :
    ∃ m' e' h, roundWithAccuracy .binary64 s m e a = .finite s m' e' h ∧ m' < 2 ^ 53 ∧
      -1074 ≤ e' := by
  obtain ⟨hfirst, -⟩ := div_two_pow_bounds hm he
  unfold roundWithAccuracy shiftToTargetExponent shiftToExponent
  simp only [mantissa_shiftRight, mantissa_ofMantissaAndAccuracy]
  generalize (Format.binary64.targetExponent (totalExponent m e) - e).toNat = k at *
  generalize hround : ExtendedMantissa.roundedMantissa _ = r
  have hr : 0 < r := by
    refine Nat.lt_of_lt_of_le hfirst ?_
    rw [← hround, ExtendedMantissa.roundedMantissa, mantissa_shiftRight,
      mantissa_ofMantissaAndAccuracy]
    exact le_roundToNearestEven _ _
  -- Rounding up may have added a digit, so the mantissa is shifted once more.
  obtain ⟨hpos, hlt⟩ := div_two_pow_bounds hr (e := e + k) (by omega)
  rw [dif_neg (by omega)]
  exact ⟨_, _, hpos, rfl, hlt, by omega⟩

theorem round_bounds {m : Nat} {e : Int} (s : Sign) (hm : 0 < m) (he : -1074 ≤ e) :
    ∃ m' e' h, UnpackedFloat.round .binary64 s m e = .finite s m' e' h ∧ m' < 2 ^ 53 ∧
      -1074 ≤ e' := by
  unfold UnpackedFloat.round decreaseExponent
  refine roundWithAccuracy_bounds s _ ?_ ?_
  · rw [Nat.shiftLeft_eq]
    exact Nat.mul_pos hm (Nat.two_pow_pos _)
  · rw [targetExponent_binary64]
    omega

/-! ### Packing -/

theorem ofBitVec_unpackSign_packComponents {s : Sign} {exponent : BitVec 11}
    {mantissa : BitVec 52} :
    Sign.ofBitVec (unpackSign (packComponents .binary64 s exponent mantissa)) = s := by
  simp only [unpackSign, packComponents, BitVec.extractLsb]
  rw [BitVec.extractLsb'_append_eq_of_le (by omega), BitVec.extractLsb'_append_eq_of_le (by omega)]
  cases s <;> rfl

/-- The parts of a number that are not all zero, behind the sign of positive numbers, are those of
a positive one, unless they say that there is no number. -/
theorem isPositive_unpack_packComponents {exponent : BitVec 11} {mantissa : BitVec 52}
    (h : exponent ≠ -1#11) (h' : exponent ≠ 0#11 ∨ mantissa ≠ 0#52) :
    IsPositive (UnpackedFloat.unpack .binary64
      (packComponents .binary64 .positive exponent mantissa)) := by
  rw [UnpackedFloat.unpack]
  simp only [unpackExponent_packComponents, unpackMantissa_packComponents,
    ofBitVec_unpackSign_packComponents]
  rw [if_neg h]
  by_cases hzero : exponent = 0#11
  · rw [if_pos hzero, dif_neg (h'.resolve_left (not_not_intro hzero))]
    trivial
  · rw [if_neg hzero]
    trivial

/-- A positive number with at most 53 digits stays one when it is packed, or becomes infinite. -/
theorem isPositive_unpack_pack {m : Nat} {e : Int} (h : 0 < m) (hm : m < 2 ^ 53)
    (he : -1074 ≤ e) :
    IsPositive (UnpackedFloat.unpack .binary64
      (UnpackedFloat.pack .binary64 (.finite .positive m e h))) := by
  have hlog : m.log2 < 53 := (Nat.log2_lt (by omega)).mpr hm
  rw [UnpackedFloat.pack]
  have hbias : e + Format.binary64.exponentBias + Format.binary64.mantissaBitsWithoutImplicit =
      e + 1075 := by
    change e + 1023 + 52 = _
    omega
  simp only [hbias]
  split
  · -- The exponent is too large for any finite number.
    exact trivial
  · rename_i hexponent
    split
    · refine isPositive_unpack_packComponents ?_ (.inl ?_) <;>
      · intro heq
        have hnat := congrArg BitVec.toNat heq
        simp at hnat hexponent
        omega
    · rename_i hdigits
      -- One digit less than a normal number has: the mantissa is kept as it is.
      have hsmall : m < 2 ^ 52 := by
        change ¬ m.log2 + 1 = 53 at hdigits
        exact (Nat.log2_lt (by omega)).mp (by omega)
      refine isPositive_unpack_packComponents (by decide) (.inr ?_)
      intro heq
      have hnat := congrArg BitVec.toNat heq
      simp at hnat
      omega

/-- The numbers that are unpacked have at most 53 digits, and none that is too fine. -/
theorem unpack_bounds {b : BitVec Format.binary64.numBits} {s : Sign} {m : Nat} {e : Int}
    {h : 0 < m} (hb : UnpackedFloat.unpack .binary64 b = .finite s m e h) :
    m < 2 ^ 53 ∧ -1074 ≤ e := by
  have hmantissa := (unpackMantissa b).isLt
  rw [UnpackedFloat.unpack] at hb
  split at hb
  · split at hb <;> cases hb
  · split at hb
    · split at hb
      · cases hb
      · cases hb
        change (unpackMantissa b).toNat < 2 ^ 52 at hmantissa
        constructor
        · omega
        · change -1074 ≤ ((unpackExponent b).toNat : Int) - (1023 + 52) + 1
          omega
    · rename_i hexponent
      cases hb
      have hpos : 0 < (unpackExponent b).toNat :=
        Nat.pos_of_ne_zero fun hzero => hexponent (BitVec.eq_of_toNat_eq hzero)
      constructor
      · exact (1#1 ++ unpackMantissa b).isLt
      · change -1074 ≤ ((unpackExponent b).toNat : Int) - (1023 + 52)
        omega

/-! ### Addition -/

theorem zero_lt_iff {x : Float} : 0.0 < x ↔ IsPositive x.toModel.unpack := by
  rw [lt_iff_compare]
  change (UnpackedFloat.zero .positive).compare _ = _ ↔ _
  rcases x.toModel.unpack with ⟨_ | _⟩ | _ | _ | ⟨_ | _, _, _, _⟩ <;>
    simp [UnpackedFloat.compare, IsPositive]

theorem zero_le_iff {x : Float} :
    0.0 ≤ x ↔ IsPositive x.toModel.unpack ∨ ∃ s, x.toModel.unpack = .zero s := by
  rw [le_iff_compare]
  change ((UnpackedFloat.zero .positive).compare _).any _ ↔ _
  rcases x.toModel.unpack with ⟨_ | _⟩ | _ | _ | ⟨_ | _, _, _, _⟩ <;>
    simp [UnpackedFloat.compare, IsPositive]

/-- The sum of two positive numbers that are finite is rounded to a positive one. -/
theorem isPositive_add_finite {m n : Nat} {e f : Int} (hm : 0 < m) (hn : 0 < n) (he : -1074 ≤ e)
    (hf : -1074 ≤ f) :
    IsPositive (UnpackedFloat.unpack .binary64 (UnpackedFloat.pack .binary64
      (UnpackedFloat.add .binary64 (.finite .positive m e hm) (.finite .positive n f hn)))) := by
  simp only [UnpackedFloat.add, decreaseExponent, Sign.apply, ← Int.natCast_add]
  have hsum : 0 < m <<< (e - min e f).toNat + n <<< (f - min e f).toNat := by
    refine Nat.add_pos_left ?_ _
    rw [Nat.shiftLeft_eq]
    exact Nat.mul_pos hm (Nat.two_pow_pos _)
  -- Over the finer of the two exponents the sum is exact, and then it is rounded.
  obtain ⟨m', e', h, hround, hm', he'⟩ := round_bounds .positive hsum (e := min e f) (by omega)
  rw [UnpackedFloat.normalize, Int.compare_eq_gt.mpr (Int.natCast_pos.mpr hsum)]
  dsimp only
  rw [Int.toNat_natCast, hround]
  exact isPositive_unpack_pack h hm' he'

/-- Adding a positive number to zero or to a positive one gives a positive one. The finite operands
are such as floats hold, so that they do not become zero by being packed. -/
theorem isPositive_add {u v : UnpackedFloat} (hu : IsPositive u ∨ ∃ s, u = .zero s)
    (hv : IsPositive v)
    (hubounds : ∀ {s m e h}, u = .finite s m e h → m < 2 ^ 53 ∧ -1074 ≤ e)
    (hvbounds : ∀ {s m e h}, v = .finite s m e h → m < 2 ^ 53 ∧ -1074 ≤ e) :
    IsPositive (UnpackedFloat.unpack .binary64
      (UnpackedFloat.pack .binary64 (UnpackedFloat.add .binary64 u v))) := by
  have hinfinity : IsPositive (UnpackedFloat.unpack .binary64
    (UnpackedFloat.pack .binary64 (.infinity .positive))) := trivial
  match v with
  | .infinity .positive =>
    match u with
    | .infinity .positive | .zero _ | .finite .positive .. => exact hinfinity
    | .infinity .negative | .notANumber | .finite .negative .. => simp [IsPositive] at hu
  | .finite .positive n f hn =>
    obtain ⟨hn', hf⟩ := hvbounds rfl
    match u with
    | .infinity .positive => exact hinfinity
    | .zero _ => exact isPositive_unpack_pack hn hn' hf
    | .finite .positive m e hm => exact isPositive_add_finite hm hn (hubounds rfl).2 hf
    | .infinity .negative | .notANumber | .finite .negative .. => simp [IsPositive] at hu

/-- What is not negative and what is positive have a positive sum. -/
theorem pos_add {x y : Float} (hx : 0.0 ≤ x) (hy : 0.0 < y) : 0.0 < x + y := by
  rw [zero_lt_iff] at hy ⊢
  rw [zero_le_iff] at hx
  exact isPositive_add hx hy unpack_bounds unpack_bounds

/-- A sum that begins with a number that is not negative, to which positive ones are added. -/
theorem pos_foldl_add {xs : List Float} {x : Float} (hx : 0.0 < x ∨ 0.0 ≤ x ∧ xs ≠ [])
    (hxs : ∀ y ∈ xs, 0.0 < y) : 0.0 < xs.foldl (· + ·) x := by
  induction xs generalizing x with
  | nil => exact hx.resolve_right fun h => h.2 rfl
  | cons y ys ih =>
    rw [List.forall_mem_cons] at hxs
    have hle : 0.0 ≤ x := hx.elim (fun h => zero_le_iff.mpr (.inl (zero_lt_iff.mp h))) And.left
    exact ih (.inl (pos_add hle hxs.1)) hxs.2

end IdleGame
