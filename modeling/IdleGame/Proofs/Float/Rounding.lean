import IdleGame.Proofs.Float.Unit
import Mathlib

/-!
# Rounding

A whole number of units is rounded to a floating point number by its digits behind the first 53: to
the nearest, and in the middle of two to the even one. What is rounded is a value, however it is
written, and a floating point number is rounded to itself. So a difference of floating point numbers
is the exact difference of their units, rounded once.

## Main definitions

* `nearest` - a number without its last digits
* `ofUnits` - the floating point number that a whole number of units is rounded to

## Main results

* `round_mul_two_pow` - what a number is rounded to depends on its value
* `ofUnits_apply` - what the digits of a whole number of units are rounded to
* `unpack_pack_sub` - a difference is rounded once
* `nearest_mul_lt_iff` - how many units are rounded to less than a power of two
-/

namespace IdleGame

open Float.Model Float.Model.UnpackedFloat

variable {s : Sign} {m n k j : Nat} {e f : Int} {u v : UnpackedFloat} {x y : Float}

/-! ## Rounding to nearest -/

/-- A number without its last digits, rounded to the nearest one, and to the even one in the middle
of two. -/
def nearest (n k : Nat) : Nat :=
  ((⟨n, false, false⟩ : ExtendedMantissa) >>> k).roundedMantissa

theorem shiftRight_add (em : ExtendedMantissa) (k j : Nat) : em >>> (k + j) = em >>> k >>> j := by
  induction j with
  | zero => rfl
  | succ j ih => exact congrArg ExtendedMantissa.shiftRightOne ih

/-- Of the digits that are shifted away, the first is kept, and whether the others are zero. -/
theorem shiftRight_succ (n k : Nat) :
    (⟨n, false, false⟩ : ExtendedMantissa) >>> (k + 1) =
      ⟨n / 2 ^ (k + 1), n / 2 ^ k % 2 != 0, n % 2 ^ k != 0⟩ := by
  induction k with
  | zero =>
    change ExtendedMantissa.shiftRightOne ⟨n, false, false⟩ = _
    simp [ExtendedMantissa.shiftRightOne, Nat.mod_one]
  | succ k ih =>
    have hsticky : ((n / 2 ^ k % 2 != 0) || (n % 2 ^ k != 0)) = (n % 2 ^ (k + 1) != 0) := by
      have hpos := Nat.two_pow_pos k
      rw [Nat.mod_pow_succ, Bool.eq_iff_iff]
      simp
      tauto
    change ExtendedMantissa.shiftRightOne ((⟨n, false, false⟩ : ExtendedMantissa) >>> (k + 1)) = _
    rw [ih, ExtendedMantissa.shiftRightOne, hsticky, Nat.div_div_eq_div_mul, ← Nat.pow_succ]

theorem nearest_zero (n : Nat) : nearest n 0 = n := rfl

theorem le_nearest (n k : Nat) : n / 2 ^ k ≤ nearest n k := by
  rw [nearest, ExtendedMantissa.roundedMantissa, mantissa_shiftRight]
  exact le_roundToNearestEven _ _

theorem nearest_le (n k : Nat) : nearest n k ≤ n / 2 ^ k + 1 := by
  rw [nearest, ExtendedMantissa.roundedMantissa, mantissa_shiftRight]
  rcases ExtendedMantissa.accuracy _ with _ | ⟨_ | _ | _⟩ <;>
    simp only [Accuracy.roundToNearestEven] <;> omega

/-- An odd number is rounded up from the middle on. -/
theorem nearest_of_odd (hodd : n / 2 ^ (k + 1) % 2 = 1) :
    nearest n (k + 1) = n / 2 ^ (k + 1) + if 2 ^ k ≤ n % 2 ^ (k + 1) then 1 else 0 := by
  have hlt : n % 2 ^ k < 2 ^ k := Nat.mod_lt _ (Nat.two_pow_pos k)
  have hmiddle : 2 ^ k ≤ n % 2 ^ (k + 1) ↔ n / 2 ^ k % 2 = 1 := by
    rw [Nat.mod_pow_succ]
    rcases Nat.mod_two_eq_zero_or_one (n / 2 ^ k) with h | h <;> rw [h] <;> omega
  have hround : (n / 2 ^ k % 2 != 0) = decide (2 ^ k ≤ n % 2 ^ (k + 1)) := by
    rw [Bool.eq_iff_iff, decide_eq_true_iff, hmiddle]
    simp
  rw [nearest, shiftRight_succ, ExtendedMantissa.roundedMantissa, hround]
  generalize (n % 2 ^ k != 0) = sticky
  by_cases hup : 2 ^ k ≤ n % 2 ^ (k + 1)
  · cases sticky <;> simp [hup, ExtendedMantissa.accuracy, Accuracy.roundToNearestEven, hodd]
  · cases sticky <;> simp [hup, ExtendedMantissa.accuracy, Accuracy.roundToNearestEven]

/-! ## Rounding a whole number of units -/

theorem shiftToTargetExponent_eq (m : Nat) (e : Int) :
    shiftToTargetExponent .binary64 m e .exact =
      ((⟨m, false, false⟩ : ExtendedMantissa) >>>
          (Format.binary64.targetExponent (totalExponent m e) - e).toNat,
        e + (Format.binary64.targetExponent (totalExponent m e) - e).toNat) := rfl

/-- Zeros behind the digits are shifted away without a trace. -/
theorem shiftToTargetExponent_mul_two_pow (hm : 0 < m)
    (h : e ≤ Format.binary64.targetExponent (totalExponent m e)) :
    shiftToTargetExponent .binary64 (m * 2 ^ j) (e - j) .exact =
      shiftToTargetExponent .binary64 m e .exact := by
  have htotal : totalExponent (m * 2 ^ j) (e - j) = totalExponent m e := by
    rw [totalExponent, totalExponent, log2_mul_two_pow hm.ne']
    omega
  rw [shiftToTargetExponent_eq, shiftToTargetExponent_eq, htotal]
  generalize Format.binary64.targetExponent (totalExponent m e) = t at h ⊢
  have hshift : (t - (e - j)).toNat = j + (t - e).toNat := by omega
  have hexponent : e - j + (j + (t - e).toNat : Nat) = e + (t - e).toNat := by omega
  rw [hshift, shiftRight_add, shiftRight_exact, hexponent]

theorem roundWithAccuracy_congr {m' : Nat} {e' : Int}
    (h : shiftToTargetExponent .binary64 m e .exact =
      shiftToTargetExponent .binary64 m' e' .exact) :
    roundWithAccuracy .binary64 s m e .exact = roundWithAccuracy .binary64 s m' e' .exact := by
  unfold roundWithAccuracy
  rw [h]

/-- What a number is rounded to depends on its value, and not on how it is written. -/
theorem round_mul_two_pow (hm : 0 < m) :
    UnpackedFloat.round .binary64 s (m * 2 ^ j) (e - j) = UnpackedFloat.round .binary64 s m e := by
  have htotal : totalExponent (m * 2 ^ j) (e - j) = totalExponent m e := by
    rw [totalExponent, totalExponent, log2_mul_two_pow hm.ne']
    omega
  rw [UnpackedFloat.round, UnpackedFloat.round, htotal]
  simp only [decreaseExponent, Nat.shiftLeft_eq]
  refine roundWithAccuracy_congr ?_
  generalize ht : Format.binary64.targetExponent (totalExponent m e) = t
  -- Written with the higher of the two exponents, the number has fewer zeros behind its digits.
  obtain ⟨i, hi⟩ : ∃ i, j + (e - j - t).toNat = (e - t).toNat + i :=
    ⟨j + (e - j - t).toNat - (e - t).toNat, by omega⟩
  have hmantissa : m * 2 ^ j * 2 ^ (e - j - t).toNat = m * 2 ^ (e - t).toNat * 2 ^ i := by
    rw [Nat.mul_assoc, Nat.mul_assoc, ← Nat.pow_add, ← Nat.pow_add, hi]
  have hexponent : e - j - (e - j - t).toNat = e - (e - t).toNat - i := by omega
  rw [hmantissa, hexponent]
  refine shiftToTargetExponent_mul_two_pow (Nat.mul_pos hm (Nat.two_pow_pos _)) ?_
  have htotal' : totalExponent (m * 2 ^ (e - t).toNat) (e - (e - t).toNat) =
      totalExponent m e := by
    rw [totalExponent, totalExponent, log2_mul_two_pow hm.ne']
    omega
  rw [htotal', ht]
  omega

theorem targetExponent_of_canonical (hm : 0 < m) (h : Canonical m e) :
    Format.binary64.targetExponent (totalExponent m e) = e := by
  have hlog : m.log2 < 53 := (Nat.log2_lt hm.ne').mpr h.digits
  have hlow := h.lowest
  rw [targetExponent_binary64, totalExponent]
  rcases h.full with rfl | hfull
  · omega
  · rw [log2_eq_of_bounds hfull h.digits]
    omega

theorem shiftToTargetExponent_of_canonical (hm : 0 < m) (h : Canonical m e) :
    shiftToTargetExponent .binary64 m e .exact = (⟨m, false, false⟩, e) := by
  rw [shiftToTargetExponent_eq, targetExponent_of_canonical hm h, Int.sub_self]
  exact Prod.ext rfl (Int.add_zero e)

/-- Rounding shifts twice: the digits behind the 53rd away, and then the one that rounding may have
added. -/
theorem roundWithAccuracy_eq {em : ExtendedMantissa} {m' : Nat} {e' : Int} (hpos : 0 < m')
    (hfirst : shiftToTargetExponent .binary64 m e .exact = (em, f))
    (hsecond : shiftToTargetExponent .binary64 em.roundedMantissa f .exact =
      (⟨m', false, false⟩, e')) :
    roundWithAccuracy .binary64 s m e .exact = .finite s m' e' hpos := by
  rw [roundWithAccuracy, hfirst]
  simp only [hsecond]
  rw [dif_neg hpos.ne']

theorem round_eq_roundWithAccuracy
    (h : e ≤ Format.binary64.targetExponent (totalExponent m e)) :
    UnpackedFloat.round .binary64 s m e = roundWithAccuracy .binary64 s m e .exact := by
  rw [UnpackedFloat.round, decreaseExponent]
  simp only [Int.toNat_eq_zero.mpr (Int.sub_nonpos_of_le h), Nat.shiftLeft_zero, Int.ofNat_zero,
    Int.sub_zero]

/-- The parts of a floating point number are not rounded. -/
theorem round_of_canonical (hm : 0 < m) (h : Canonical m e) :
    UnpackedFloat.round .binary64 s m e = .finite s m e hm := by
  have hshift := shiftToTargetExponent_of_canonical hm h
  rw [round_eq_roundWithAccuracy (targetExponent_of_canonical hm h).ge]
  exact roundWithAccuracy_eq hm hshift hshift

/-- What is left of a number are at most 53 digits, or one more after rounding up. -/
theorem nearest_bounds (hn : 0 < n) :
    0 < nearest n (n.log2 - 52) ∧ nearest n (n.log2 - 52) ≤ 2 ^ 53 ∧
      (n.log2 ≤ 52 ∨ 2 ^ 52 ≤ nearest n (n.log2 - 52)) := by
  have hlow := Nat.log2_self_le hn.ne'
  have hhigh := Nat.lt_log2_self (n := n)
  have hle := le_nearest n (n.log2 - 52)
  have hge := nearest_le n (n.log2 - 52)
  rcases Nat.le_total n.log2 52 with hfew | hmany
  · rw [Nat.sub_eq_zero_of_le hfew, nearest_zero]
    have hpow : 2 ^ (n.log2 + 1) ≤ 2 ^ 53 := Nat.pow_le_pow_right (by decide) (by omega)
    exact ⟨hn, by omega, .inl hfew⟩
  · have hpow : 2 ^ n.log2 = 2 ^ 52 * 2 ^ (n.log2 - 52) := by
      rw [← Nat.pow_add, Nat.add_sub_cancel' hmany]
    have hfirst : 2 ^ 52 ≤ n / 2 ^ (n.log2 - 52) := by
      rw [Nat.le_div_iff_mul_le (Nat.two_pow_pos _), ← hpow]
      exact hlow
    have hlast : n / 2 ^ (n.log2 - 52) < 2 ^ 53 := by
      rw [Nat.div_lt_iff_lt_mul (Nat.two_pow_pos _)]
      rw [Nat.pow_succ, hpow] at hhigh
      omega
    exact ⟨by omega, by omega, .inr (by omega)⟩

/-- What a positive number of units is rounded to: its first 53 digits are rounded, and where this
gives one digit more, the last of them is zero and is dropped. -/
theorem exists_round_eq (hn : 0 < n) :
    ∃ m e, ∃ h : 0 < m, (∀ s, UnpackedFloat.round .binary64 s n (-1074) = .finite s m e h) ∧
      Canonical m e ∧
      m * 2 ^ (e + 1074).toNat = nearest n (n.log2 - 52) * 2 ^ (n.log2 - 52) := by
  obtain ⟨hpos, hle, hfull⟩ := nearest_bounds hn
  have htarget : Format.binary64.targetExponent (totalExponent n (-1074)) =
      -1074 + (n.log2 - 52 : Nat) := by
    rw [targetExponent_binary64, totalExponent]
    omega
  have hfirst : shiftToTargetExponent .binary64 n (-1074) .exact =
      ((⟨n, false, false⟩ : ExtendedMantissa) >>> (n.log2 - 52),
        (-1074 : Int) + (n.log2 - 52 : Nat)) := by
    rw [shiftToTargetExponent_eq, htarget]
    simp
  have hround {m e} (h : 0 < m) (hsecond : shiftToTargetExponent .binary64
      (nearest n (n.log2 - 52)) (-1074 + (n.log2 - 52 : Nat)) .exact = (⟨m, false, false⟩, e))
      (s : Sign) : UnpackedFloat.round .binary64 s n (-1074) = .finite s m e h := by
    rw [round_eq_roundWithAccuracy (by omega)]
    exact roundWithAccuracy_eq h hfirst hsecond
  generalize nearest n (n.log2 - 52) = r at *
  rcases Nat.lt_or_eq_of_le hle with hlt | rfl
  · have hcanonical : Canonical r (-1074 + (n.log2 - 52 : Nat)) :=
      ⟨hlt, by omega, hfull.imp (fun h => by omega) id⟩
    refine ⟨r, _, hpos, hround hpos (shiftToTargetExponent_of_canonical hpos hcanonical),
      hcanonical, ?_⟩
    congr 2
    omega
  · have hcanonical : Canonical (2 ^ 52) (-1074 + (n.log2 - 52 : Nat) + 1) :=
      ⟨by decide, by omega, .inr (Nat.le_refl _)⟩
    have hpos' : 0 < 2 ^ 52 := Nat.two_pow_pos 52
    have hsecond := shiftToTargetExponent_mul_two_pow (j := 1) hpos'
      (targetExponent_of_canonical hpos' hcanonical).ge
    rw [shiftToTargetExponent_of_canonical hpos' hcanonical] at hsecond
    have hexponent : -1074 + ((n.log2 - 52 : Nat) : Int) + 1 - (1 : Nat) =
        -1074 + (n.log2 - 52 : Nat) := by omega
    rw [hexponent] at hsecond
    refine ⟨2 ^ 52, _, hpos', hround hpos' hsecond, hcanonical, ?_⟩
    have hscale : (-1074 + ((n.log2 - 52 : Nat) : Int) + 1 + 1074).toNat = n.log2 - 52 + 1 := by
      omega
    rw [hscale, Nat.pow_succ]
    ring

/-- A number that is too large is infinite. -/
theorem unpack_pack_of_high (h : 0 < m) (he : 972 ≤ e) :
    UnpackedFloat.unpack .binary64 (UnpackedFloat.pack .binary64 (.finite s m e h)) =
      .infinity s := by
  have hbias : e + Format.binary64.exponentBias + Format.binary64.mantissaBitsWithoutImplicit =
      e + 1075 := by
    change e + 1023 + 52 = _
    omega
  rw [UnpackedFloat.pack]
  simp only [hbias]
  rw [if_pos (by change 2048 ≤ _; omega)]
  cases s <;> rfl

/-- The floating point number that a whole number of units is rounded to. -/
def ofUnits (d : Int) : UnpackedFloat :=
  UnpackedFloat.unpack .binary64 (UnpackedFloat.pack .binary64
    (UnpackedFloat.normalize .binary64 d (-1074) .positive))

theorem exists_apply_eq {d : Int} (h : d ≠ 0) : ∃ (s : Sign) (n : Nat), 0 < n ∧ d = s.apply n := by
  rcases Int.lt_or_gt_of_ne h with hneg | hpos
  · exact ⟨.negative, (-d).toNat, by omega, by change d = -((-d).toNat : Int); omega⟩
  · exact ⟨.positive, d.toNat, by omega, by change d = (d.toNat : Int); omega⟩

theorem neg_apply (d : Int) : (-s).apply d = -s.apply d := by
  cases s with
  | positive => rfl
  | negative => exact (Int.neg_neg d).symm

theorem normalize_apply {z : Sign} (hn : 0 < n) :
    UnpackedFloat.normalize .binary64 (s.apply n) e z = UnpackedFloat.round .binary64 s n e := by
  cases s with
  | positive =>
    change UnpackedFloat.normalize .binary64 (n : Int) e z = _
    rw [UnpackedFloat.normalize, Int.compare_eq_gt.mpr (Int.natCast_pos.mpr hn)]
    rfl
  | negative =>
    change UnpackedFloat.normalize .binary64 (-(n : Int)) e z = _
    rw [UnpackedFloat.normalize, Int.compare_eq_lt.mpr (by omega)]
    simp

/-- What is written in a higher unit is rounded to the same. -/
theorem ofUnits_mul_two_pow (d : Int) (he : -1074 ≤ e) :
    ofUnits (d * 2 ^ (e + 1074).toNat) = UnpackedFloat.unpack .binary64
      (UnpackedFloat.pack .binary64 (UnpackedFloat.normalize .binary64 d e .positive)) := by
  rw [ofUnits]
  by_cases hd : d = 0
  · rw [hd, Int.zero_mul]
    rfl
  · obtain ⟨s, n, hn, rfl⟩ := exists_apply_eq hd
    have happly : s.apply n * 2 ^ (e + 1074).toNat =
        s.apply ((n * 2 ^ (e + 1074).toNat : Nat) : Int) := by
      cases s <;> simp [Sign.apply]
    have hexponent : (-1074 : Int) = e - (e + 1074).toNat := by omega
    rw [happly, normalize_apply (Nat.mul_pos hn (Nat.two_pow_pos _)), normalize_apply hn, hexponent,
      round_mul_two_pow hn]

/-- What is a floating point number already is not rounded. -/
theorem ofUnits_units_of_finite (h : 0 < m) (hcanonical : Canonical m e) :
    ofUnits (s.apply (m * 2 ^ (e + 1074).toNat : Nat)) = UnpackedFloat.unpack .binary64
      (UnpackedFloat.pack .binary64 (.finite s m e h)) := by
  have happly : s.apply ((m * 2 ^ (e + 1074).toNat : Nat) : Int) =
      s.apply m * 2 ^ (e + 1074).toNat := by
    cases s <;> simp [Sign.apply]
  rw [happly, ofUnits_mul_two_pow _ hcanonical.lowest, normalize_apply h,
    round_of_canonical h hcanonical]

theorem two_pow_le_mul (hm : 0 < m) (h : k ≤ j) : 2 ^ k ≤ m * 2 ^ j :=
  (Nat.pow_le_pow_right Nat.two_pos h).trans (Nat.le_mul_of_pos_left _ hm)

/-- Other units than none are rounded to a number with the same sign, which has as many units as
their digits are rounded to, or is infinite. -/
theorem ofUnits_apply (hn : 0 < n) :
    (∃ m e, ∃ h : 0 < m, ofUnits (s.apply n) = .finite s m e h ∧
        Canonical m e ∧ e ≤ 971 ∧
        m * 2 ^ (e + 1074).toNat = nearest n (n.log2 - 52) * 2 ^ (n.log2 - 52)) ∨
      ofUnits (s.apply n) = .infinity s ∧
        2 ^ 1022 ≤ nearest n (n.log2 - 52) * 2 ^ (n.log2 - 52) := by
  obtain ⟨m, e, h, hround, hcanonical, hunits⟩ := exists_round_eq hn
  rw [ofUnits, normalize_apply hn, hround]
  rcases le_or_gt e 971 with he | he
  · exact .inl ⟨m, e, h, unpack_pack_of_isCanonical ⟨hcanonical, he⟩, hcanonical, he, hunits⟩
  · refine .inr ⟨unpack_pack_of_high h he, ?_⟩
    rw [← hunits]
    exact two_pow_le_mul (k := 1022) h (by omega)

/-! ## Differences -/

/-- A difference is the exact one, rounded once. Only where it is zero its sign depends on more. -/
theorem unpack_pack_sub (hu : IsCanonical u) (hv : IsCanonical v) (hufinite : u.isFinite)
    (hvfinite : v.isFinite) :
    UnpackedFloat.unpack .binary64
        (UnpackedFloat.pack .binary64 (UnpackedFloat.sub .binary64 u v)) =
      ofUnits (units u - units v) ∨
    units u = units v ∧ ∃ s, UnpackedFloat.sub .binary64 u v = .zero s := by
  cases u with
  | infinity | notANumber => cases hufinite
  | zero s =>
    cases v with
    | infinity | notANumber => cases hvfinite
    | zero s' =>
      refine .inr ⟨rfl, ?_⟩
      cases s <;> cases s' <;> exact ⟨_, rfl⟩
    | finite s' n f h' =>
      refine .inl ?_
      change _ = ofUnits (0 - s'.apply ((n * 2 ^ (f + 1074).toNat : Nat) : Int))
      rw [Int.zero_sub, ← neg_apply, ofUnits_units_of_finite h' hv.1]
      rfl
  | finite s m e h =>
    cases v with
    | infinity | notANumber => cases hvfinite
    | zero s' =>
      refine .inl ?_
      change _ = ofUnits (s.apply ((m * 2 ^ (e + 1074).toNat : Nat) : Int) - 0)
      rw [Int.sub_zero, ofUnits_units_of_finite h hu.1]
      rfl
    | finite s' n f h' =>
      have hlow := hu.1.lowest
      have hlow' := hv.1.lowest
      refine .inl ?_
      simp only [UnpackedFloat.sub, decreaseExponent]
      rw [← ofUnits_mul_two_pow _ (by omega)]
      congr 1
      have hscale {s : Sign} {m : Nat} {e g : Int} (hg : -1074 ≤ g) (he : g ≤ e) :
          s.apply ((m <<< (e - g).toNat : Nat) : Int) * 2 ^ (g + 1074).toNat =
            s.apply ((m * 2 ^ (e + 1074).toNat : Nat) : Int) := by
        have hpow : (e + 1074).toNat = (e - g).toNat + (g + 1074).toNat := by omega
        rw [hpow, Nat.pow_add, Nat.shiftLeft_eq, ← Nat.mul_assoc]
        cases s <;> simp [Sign.apply]
      rw [Int.sub_mul, hscale (by omega) (Int.min_le_left _ _),
        hscale (by omega) (Int.min_le_right _ _)]
      rfl

/-! ## Powers of two -/

/-- Of 53 digits that are kept all are ones when rounding adds a digit, and then it does so from the
middle on. -/
theorem nearest_lt_iff_of_log2 (hlog : n.log2 = k + 53) :
    nearest n (k + 1) < 2 ^ 53 ↔ n < 2 ^ (k + 54) - 2 ^ k := by
  have hhigh : n < 2 ^ (k + 54) := by
    have hhigh := Nat.lt_log2_self (n := n)
    rwa [hlog] at hhigh
  have hpos := Nat.two_pow_pos (k + 1)
  have hpow : 2 ^ (k + 54) = 2 ^ 53 * 2 ^ (k + 1) := by rw [← Nat.pow_add, Nat.add_comm 53]
  have hlast : 2 ^ (k + 1) = 2 ^ k + 2 ^ k := by rw [Nat.pow_succ]; omega
  have hparts := Nat.div_add_mod' n (2 ^ (k + 1))
  have hrest := Nat.mod_lt n hpos
  have hfirst : n / 2 ^ (k + 1) < 2 ^ 53 := by
    rw [Nat.div_lt_iff_lt_mul hpos, ← hpow]
    exact hhigh
  have hcases : n / 2 ^ (k + 1) + 2 ≤ 2 ^ 53 ∨ n / 2 ^ (k + 1) = 2 ^ 53 - 1 := by omega
  rcases hcases with hsome | hall
  · have hup := nearest_le n (k + 1)
    have hmul := Nat.mul_le_mul_right (2 ^ (k + 1)) hsome
    rw [Nat.add_mul, ← hpow] at hmul
    exact iff_of_true (by omega) (by omega)
  · rw [nearest_of_odd (by omega), hall]
    rw [hall] at hparts
    split <;> omega

/-- A number of units reaches a power of two by rounding from half a digit below it on. -/
theorem nearest_mul_lt_iff (hn : 0 < n) :
    nearest n (n.log2 - 52) * 2 ^ (n.log2 - 52) < 2 ^ (k + 54) ↔
      n < 2 ^ (k + 54) - 2 ^ k := by
  obtain ⟨-, hle, hfull⟩ := nearest_bounds hn
  have hlow := Nat.log2_self_le hn.ne'
  have hhigh := Nat.lt_log2_self (n := n)
  have hhalf : 2 ^ k ≤ 2 ^ (k + 53) := Nat.pow_le_pow_right Nat.two_pos (by omega)
  have hdouble : 2 ^ (k + 54) = 2 ^ (k + 53) + 2 ^ (k + 53) := by rw [Nat.pow_succ]; omega
  rcases Nat.lt_trichotomy n.log2 (k + 53) with hfew | heq | hmany
  · -- Rounding can add a digit, and then there are still too few.
    have hupper : 2 ^ (n.log2 + 1) ≤ 2 ^ (k + 53) := Nat.pow_le_pow_right Nat.two_pos (by omega)
    have hrounded : nearest n (n.log2 - 52) * 2 ^ (n.log2 - 52) ≤ 2 ^ (k + 53) := by
      rcases Nat.le_total n.log2 52 with h | h
      · rw [Nat.sub_eq_zero_of_le h, nearest_zero, Nat.pow_zero, Nat.mul_one]
        exact hhigh.le.trans hupper
      · have hdigits : 53 + (n.log2 - 52) = n.log2 + 1 := by omega
        refine (Nat.mul_le_mul_right _ hle).trans ?_
        rw [← Nat.pow_add, hdigits]
        exact hupper
    have hpos := Nat.two_pow_pos (k + 53)
    exact iff_of_true (by omega) (by omega)
  · have hdigits : n.log2 - 52 = k + 1 := by omega
    have hpow : 2 ^ (k + 54) = 2 ^ 53 * 2 ^ (k + 1) := by rw [← Nat.pow_add, Nat.add_comm 53]
    rw [← nearest_lt_iff_of_log2 heq, hdigits, hpow, Nat.mul_lt_mul_right (Nat.two_pow_pos _)]
  · have hlower : 2 ^ (k + 54) ≤ 2 ^ n.log2 := Nat.pow_le_pow_right Nat.two_pos hmany
    have hdigits : 52 + (n.log2 - 52) = n.log2 := by omega
    have hrounded : 2 ^ n.log2 ≤ nearest n (n.log2 - 52) * 2 ^ (n.log2 - 52) := by
      have hmul := Nat.mul_le_mul_right (2 ^ (n.log2 - 52)) (hfull.resolve_left (by omega))
      rwa [← Nat.pow_add, hdigits] at hmul
    have hbelow := Nat.sub_le (2 ^ (k + 54)) (2 ^ k)
    exact iff_of_false (by omega) (by omega)

end IdleGame
