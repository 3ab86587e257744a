import IdleGame.Proofs.Float.Exact

/-!
# Numbers in units

The smallest positive floating point number is `2 ^ -1074`, and every finite one is a whole multiple
of it. Counted in this unit, finite numbers are compared like the whole numbers that they are.

## Main definitions

* `Canonical` - the digits and the exponent that a floating point number is unpacked into
* `units` - an unpacked number, counted in units
* `unitsOf` - a floating point number, counted in units

## Main results

* `unpack_pack_of_isCanonical` - what has the parts of a floating point number is one
* `compare_eq_compare_units` - finite numbers are ordered like their units
* `denotes_iff_unitsOf` - a finite number is its units, each `2 ^ -1074`
-/

namespace IdleGame

open Float.Model Float.Model.UnpackedFloat

/-- How digits and exponents are written: there are 53 digits, or fewer over the lowest exponent. -/
structure Canonical (m : Nat) (e : Int) : Prop where
  digits : m < 2 ^ 53
  lowest : -1074 ≤ e
  full : e = -1074 ∨ 2 ^ 52 ≤ m

/-- An unpacked number that has the parts of a floating point number, if it is finite. -/
def IsCanonical : UnpackedFloat → Prop
  | .finite _ m e _ => Canonical m e ∧ e ≤ 971
  | .infinity _ | .notANumber | .zero _ => True

/-- An unpacked number, counted in units; what is not finite counts nothing. -/
def units : UnpackedFloat → Int
  | .finite s m e _ => s.apply (m * 2 ^ (e + 1074).toNat : Nat)
  | .infinity _ | .notANumber | .zero _ => 0

variable {s : Sign} {m n : Nat} {e f : Int} {u v : UnpackedFloat}

/-! ## Parts -/

theorem isCanonical_unpack (b : BitVec Format.binary64.numBits) :
    IsCanonical (UnpackedFloat.unpack .binary64 b) := by
  have hexponent := (unpackExponent b).isLt
  have hmantissa := (unpackMantissa b).isLt
  rw [UnpackedFloat.unpack]
  by_cases hall : @unpackExponent .binary64 b = -1#11
  · rw [if_pos hall]
    split <;> trivial
  have hnat : (unpackExponent b).toNat ≠ 2047 := fun h => hall (BitVec.eq_of_toNat_eq h)
  change (unpackExponent b).toNat < 2048 at hexponent
  change (unpackMantissa b).toNat < 2 ^ 52 at hmantissa
  rw [if_neg hall]
  by_cases hzero : @unpackExponent .binary64 b = 0#11
  · rw [if_pos hzero]
    split
    · trivial
    · have hnat : (unpackExponent b).toNat = 0 := congrArg BitVec.toNat hzero
      change Canonical (unpackMantissa b).toNat
        ((unpackExponent b).toNat - (1023 + 52 : Int) + 1) ∧
          (unpackExponent b).toNat - (1023 + 52 : Int) + 1 ≤ 971
      exact ⟨⟨by omega, by omega, .inl (by omega)⟩, by omega⟩
  · have hpos : (unpackExponent b).toNat ≠ 0 := fun h => hzero (BitVec.eq_of_toNat_eq h)
    have hdigits : (1#1 ++ unpackMantissa b).toNat = 2 ^ 52 + (unpackMantissa b).toNat :=
      toNat_one_append _
    rw [if_neg hzero]
    change Canonical (1#1 ++ unpackMantissa b).toNat
      ((unpackExponent b).toNat - (1023 + 52 : Int)) ∧
        (unpackExponent b).toNat - (1023 + 52 : Int) ≤ 971
    exact ⟨⟨by omega, by omega, .inr (by omega)⟩, by omega⟩

/-- Fewer than 53 digits over the lowest exponent stay what they are when they are packed. -/
theorem unpack_pack_of_subnormal (hpos : 0 < m) (hm : m < 2 ^ 52) :
    UnpackedFloat.unpack .binary64 (UnpackedFloat.pack .binary64 (.finite s m (-1074) hpos)) =
      .finite s m (-1074) hpos := by
  have hlog : m.log2 < 52 := (Nat.log2_lt hpos.ne').mpr hm
  have hmantissa : (BitVec.ofNat 52 m).toNat = m := by
    rw [BitVec.toNat_ofNat, Nat.mod_eq_of_lt hm]
  have hnonzero : BitVec.ofNat 52 m ≠ 0#52 := by
    intro h
    have hnat := congrArg BitVec.toNat h
    rw [hmantissa] at hnat
    exact hpos.ne' hnat
  rw [UnpackedFloat.pack]
  rw [if_neg (by decide), if_neg (by change ¬ m.log2 + 1 = 53; omega), UnpackedFloat.unpack]
  simp only [unpackExponent_packComponents, unpackMantissa_packComponents,
    ofBitVec_unpackSign_packComponents]
  rw [if_neg (by decide), if_pos trivial, dif_neg hnonzero]
  simp only [hmantissa]
  rfl

/-- A number with the parts of a floating point number stays what it is when it is packed. -/
theorem unpack_pack_of_isCanonical (h : IsCanonical u) :
    UnpackedFloat.unpack .binary64 (UnpackedFloat.pack .binary64 u) = u := by
  match u, h with
  | .finite s m e hpos, ⟨h, he⟩ =>
    by_cases hm : 2 ^ 52 ≤ m
    · exact unpack_pack_of_normal hm h.digits h.lowest he hpos
    · obtain rfl := h.full.resolve_right hm
      exact unpack_pack_of_subnormal hpos (Nat.not_le.mp hm)
  | .infinity .positive, _ | .infinity .negative, _ => rfl
  | .zero .positive, _ | .zero .negative, _ => rfl
  | .notANumber, _ => rfl

/-! ## Order -/

/-- Of canonical numbers the one with the higher exponent is larger, whatever the digits. -/
theorem mul_two_pow_lt (hm : Canonical m e) (hn : Canonical n f) (h : e < f) :
    m * 2 ^ (e + 1074).toNat < n * 2 ^ (f + 1074).toNat := by
  have hlow := hm.lowest
  have hfull : 2 ^ 52 ≤ n := hn.full.resolve_left (by omega)
  obtain ⟨k, hk⟩ : ∃ k, (f + 1074).toNat = (e + 1074).toNat + 1 + k :=
    ⟨(f - e).toNat - 1, by omega⟩
  calc m * 2 ^ (e + 1074).toNat < 2 ^ 53 * 2 ^ (e + 1074).toNat :=
        Nat.mul_lt_mul_of_pos_right hm.digits (Nat.two_pow_pos _)
    _ = 2 ^ 52 * 2 ^ ((e + 1074).toNat + 1) := by rw [Nat.pow_succ, Nat.pow_succ]; ring
    _ ≤ n * 2 ^ (f + 1074).toNat := by
        rw [hk, Nat.pow_add _ _ k]
        exact Nat.mul_le_mul hfull (Nat.le_mul_of_pos_right _ (Nat.two_pow_pos k))

/-- Digits and exponents are compared like the units that they make. -/
theorem compare_mul_two_pow (hm : Canonical m e) (hn : Canonical n f) :
    compare (m * 2 ^ (e + 1074).toNat) (n * 2 ^ (f + 1074).toNat) =
      (compare e f).then (compare m n) := by
  rcases lt_trichotomy e f with h | rfl | h
  · rw [compare_lt_iff_lt.mpr h, compare_lt_iff_lt.mpr (mul_two_pow_lt hm hn h)]
    rfl
  · rw [compare_eq_iff_eq.mpr rfl]
    change _ = compare m n
    rcases lt_trichotomy m n with h | rfl | h
    · rw [compare_lt_iff_lt.mpr h, compare_lt_iff_lt]
      exact Nat.mul_lt_mul_of_pos_right h (Nat.two_pow_pos _)
    · rw [compare_eq_iff_eq.mpr rfl, compare_eq_iff_eq.mpr rfl]
    · rw [compare_gt_iff_gt.mpr h, compare_gt_iff_gt]
      exact Nat.mul_lt_mul_of_pos_right h (Nat.two_pow_pos _)
  · rw [compare_gt_iff_gt.mpr h, compare_gt_iff_gt.mpr (mul_two_pow_lt hn hm h)]
    rfl

@[simp] theorem units_zero : units (.zero s) = 0 := rfl

@[simp] theorem units_positive (h : 0 < m) :
    units (.finite .positive m e h) = (m * 2 ^ (e + 1074).toNat : Nat) := rfl

@[simp] theorem units_negative (h : 0 < m) :
    units (.finite .negative m e h) = -(m * 2 ^ (e + 1074).toNat : Nat) := rfl

theorem natAbs_units (h : 0 < m) :
    (units (.finite s m e h)).natAbs = m * 2 ^ (e + 1074).toNat := by
  cases s with
  | positive => rw [units_positive, Int.natAbs_natCast]
  | negative => rw [units_negative, Int.natAbs_neg, Int.natAbs_natCast]

theorem units_pos (h : 0 < m) : 0 < units (.finite .positive m e h) := by
  rw [units_positive]
  exact Int.natCast_pos.mpr (Nat.mul_pos h (Nat.two_pow_pos _))

theorem units_neg (h : 0 < m) : units (.finite .negative m e h) < 0 := by
  rw [units_negative]
  exact Int.neg_neg_of_pos (Int.natCast_pos.mpr (Nat.mul_pos h (Nat.two_pow_pos _)))

theorem compare_natCast (a b : Nat) : compare (a : Int) (b : Int) = compare a b := by
  rcases lt_trichotomy a b with h | rfl | h
  · rw [compare_lt_iff_lt.mpr h, compare_lt_iff_lt.mpr (Int.ofNat_lt.mpr h)]
  · rw [compare_eq_iff_eq.mpr rfl, compare_eq_iff_eq.mpr rfl]
  · rw [compare_gt_iff_gt.mpr h, compare_gt_iff_gt.mpr (Int.ofNat_lt.mpr h)]

theorem compare_neg_neg (a b : Int) : compare (-a) (-b) = (compare a b).swap := by
  rcases lt_trichotomy a b with h | rfl | h
  · rw [compare_lt_iff_lt.mpr h, compare_gt_iff_gt.mpr (Int.neg_lt_neg h)]
    rfl
  · rw [compare_eq_iff_eq.mpr rfl, compare_eq_iff_eq.mpr rfl]
    rfl
  · rw [compare_gt_iff_gt.mpr h, compare_lt_iff_lt.mpr (Int.neg_lt_neg h)]
    rfl

/-- Finite numbers are ordered like their units. -/
theorem compare_eq_compare_units (hu : IsCanonical u) (hv : IsCanonical v) (hufinite : u.isFinite)
    (hvfinite : v.isFinite) : u.compare v = some (compare (units u) (units v)) := by
  cases u with
  | infinity | notANumber => cases hufinite
  | zero s =>
    cases v with
    | infinity | notANumber => cases hvfinite
    | zero s' => rfl
    | finite s' n f h' =>
      cases s' with
      | positive => rw [units_zero, compare_lt_iff_lt.mpr (units_pos h')]; rfl
      | negative => rw [units_zero, compare_gt_iff_gt.mpr (units_neg h')]; rfl
  | finite s m e h =>
    cases v with
    | infinity | notANumber => cases hvfinite
    | zero s' =>
      cases s with
      | positive => rw [units_zero, compare_gt_iff_gt.mpr (units_pos h)]; rfl
      | negative => rw [units_zero, compare_lt_iff_lt.mpr (units_neg h)]; rfl
    | finite s' n f h' =>
      -- With one sign the exponents are compared, and then the digits.
      have hscaled := compare_mul_two_pow hu.1 hv.1
      cases s <;> cases s'
      case positive.positive =>
        rw [units_positive, units_positive, compare_natCast, hscaled]
        rfl
      case positive.negative =>
        rw [compare_gt_iff_gt.mpr ((units_neg h').trans (units_pos h))]
        rfl
      case negative.positive =>
        rw [compare_lt_iff_lt.mpr ((units_neg h).trans (units_pos h'))]
        rfl
      case negative.negative =>
        rw [units_negative, units_negative, compare_neg_neg, compare_natCast, hscaled]
        rfl

/-! ## Floating point numbers -/

/-- A floating point number, counted in units. -/
def unitsOf (x : Float) : Int := units x.toModel.unpack

variable {x y : Float}

theorem isCanonical_float (x : Float) : IsCanonical x.toModel.unpack := isCanonical_unpack _

theorem compare_eq_compare_unitsOf (hx : x.isFinite) (hy : y.isFinite) :
    x.toModel.unpack.compare y.toModel.unpack = some (compare (unitsOf x) (unitsOf y)) :=
  compare_eq_compare_units (isCanonical_float x) (isCanonical_float y) hx hy

theorem float_lt_iff_unitsOf (hx : x.isFinite) (hy : y.isFinite) :
    x < y ↔ unitsOf x < unitsOf y := by
  rw [lt_iff_compare, compare_eq_compare_unitsOf hx hy, Option.some_inj, compare_lt_iff_lt]

theorem float_le_iff_unitsOf (hx : x.isFinite) (hy : y.isFinite) :
    x ≤ y ↔ unitsOf x ≤ unitsOf y := by
  rw [le_iff_compare, compare_eq_compare_unitsOf hx hy, Option.any_some, Std.isLE_compare]

theorem value_mul_two_pow (h : 0 < m) (hcanonical : Canonical m e) :
    Binary.value ⟨s == .negative, m, e⟩ * 2 ^ 1074 = units (.finite s m e h) := by
  have hlow := hcanonical.lowest
  have hscale : (2 : ℚ) ^ e * 2 ^ 1074 = 2 ^ (e + 1074).toNat := by
    rw [← zpow_natCast, ← zpow_natCast, ← zpow_add₀ two_ne_zero]
    congr 1
    omega
  cases s with
  | positive =>
    rw [units_positive, Binary.value]
    push_cast
    rw [← hscale]
    simp [mul_assoc]
  | negative =>
    rw [units_negative, Binary.value]
    push_cast
    rw [← hscale]
    simp [mul_assoc]

/-- A finite number is as many times `2 ^ -1074` as it has units. -/
theorem denotes_iff_unitsOf {q : ℚ} : Denotes x q ↔ x.isFinite ∧ q * 2 ^ 1074 = unitsOf x := by
  have hcanonical := isCanonical_float x
  have hpos : (2 : ℚ) ^ 1074 ≠ 0 := pow_ne_zero _ two_ne_zero
  change (∃ b, Binary.ofFloat? x = some b ∧ b.value = q) ↔ x.toModel.unpack.isFinite ∧
    q * 2 ^ 1074 = units x.toModel.unpack
  rw [ofFloat?_eq_ofUnpacked?]
  cases h : x.toModel.unpack with
  | infinity | notANumber => exact iff_of_false (fun ⟨_, h, _⟩ => nomatch h) fun h => nomatch h.1
  | zero s =>
    have hvalue : Binary.value ⟨s == .negative, 0, -1074⟩ = 0 := by simp [Binary.value]
    constructor
    · rintro ⟨b, hb, rfl⟩
      obtain rfl := Option.some.inj hb
      exact ⟨rfl, by rw [hvalue, zero_mul, units_zero, Int.cast_zero]⟩
    · rintro ⟨-, hq⟩
      rw [units_zero, Int.cast_zero] at hq
      exact ⟨_, rfl, hvalue.trans ((mul_eq_zero_iff_right hpos).mp hq).symm⟩
  | finite s m e hm =>
    rw [h] at hcanonical
    rw [← value_mul_two_pow hm hcanonical.1]
    constructor
    · rintro ⟨b, hb, rfl⟩
      obtain rfl := Option.some.inj hb
      exact ⟨rfl, rfl⟩
    · rintro ⟨-, hq⟩
      exact ⟨_, rfl, (mul_right_cancel₀ hpos hq).symm⟩

variable {p q : ℚ}

theorem Denotes.isFinite (h : Denotes x p) : x.isFinite := (denotes_iff_unitsOf.mp h).1

theorem exists_denotes (h : x.isFinite) : ∃ q, Denotes x q :=
  ⟨unitsOf x / 2 ^ 1074, denotes_iff_unitsOf.mpr
    ⟨h, div_mul_cancel₀ _ (pow_ne_zero _ two_ne_zero)⟩⟩

/-- Finite numbers are ordered like the rational numbers that they are. -/
theorem Denotes.le_iff (hx : Denotes x p) (hy : Denotes y q) : x ≤ y ↔ p ≤ q := by
  obtain ⟨hxfinite, hp⟩ := denotes_iff_unitsOf.mp hx
  obtain ⟨hyfinite, hq⟩ := denotes_iff_unitsOf.mp hy
  have hpos : (0 : ℚ) < 2 ^ 1074 := pow_pos two_pos _
  rw [float_le_iff_unitsOf hxfinite hyfinite, ← mul_le_mul_iff_left₀ hpos, hp, hq, Int.cast_le]

theorem Denotes.unique (hp : Denotes x p) (hq : Denotes x q) : p = q := by
  have hself : x ≤ x := (hp.le_iff hp).mpr le_rfl
  exact le_antisymm ((hp.le_iff hq).mp hself) ((hq.le_iff hp).mp hself)

end IdleGame
