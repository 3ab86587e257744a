import IdleGame.Proofs.Float.Rounding

/-!
# Differences of floating point numbers

The difference of two numbers is rounded, but not so that its sign is lost: what is not above a
number leaves something that is not negative, unless both are infinite. And a rounded difference is
below the tolerance, within which numbers count as equal, exactly when the exact difference is below
the middle between the tolerance and the number before it.

## Main definitions

* `infinity` - the infinite number of a sign

## Main results

* `abs_sub_lt_tolerance_iff` - which numbers are within the tolerance of each other
* `zero_le_sub_iff` - what is left of a number that is not negative
-/

namespace IdleGame

open Float.Model Float.Model.UnpackedFloat

variable {n : Nat} {u v : UnpackedFloat} {x y : Float} {p q : ℚ}

/-! ## Units of a difference -/

theorem unpack_sub (x y : Float) :
    (x - y).toModel.unpack = UnpackedFloat.unpack .binary64 (UnpackedFloat.pack .binary64
      (UnpackedFloat.sub .binary64 x.toModel.unpack y.toModel.unpack)) := rfl

/-- Equal numbers leave a zero, of whichever sign. -/
theorem unpack_sub_of_eq (hx : x.isFinite) (hy : y.isFinite) (h : unitsOf x = unitsOf y) :
    ∃ s, (x - y).toModel.unpack = .zero s := by
  rw [unpack_sub]
  rcases unpack_pack_sub (isCanonical_float x) (isCanonical_float y) hx hy with
    hsub | ⟨-, s, hzero⟩
  · change units x.toModel.unpack = units y.toModel.unpack at h
    rw [h, Int.sub_self] at hsub
    exact ⟨.positive, hsub⟩
  · rw [hzero]
    exact ⟨s, unpack_packedZero⟩

/-- Different finite numbers leave what the difference of their units is rounded to. -/
theorem unpack_sub_of_ne (hx : x.isFinite) (hy : y.isFinite) (h : unitsOf x ≠ unitsOf y) :
    (x - y).toModel.unpack = ofUnits (unitsOf x - unitsOf y) :=
  (unpack_pack_sub (isCanonical_float x) (isCanonical_float y) hx hy).resolve_right
    fun hzero => h hzero.1

/-! ## The tolerance -/

theorem IsCanonical.abs (h : IsCanonical u) : IsCanonical u.abs := by
  cases u <;> exact h

theorem unpack_abs (x : Float) : x.abs.toModel.unpack = x.toModel.unpack.abs :=
  unpack_pack_of_isCanonical (isCanonical_float x).abs

theorem units_abs (u : UnpackedFloat) : units u.abs = (units u).natAbs := by
  cases u with
  | infinity | notANumber | zero => rfl
  | finite s m e h => rw [UnpackedFloat.abs, units_positive, natAbs_units]

theorem unpack_tolerance :
    tolerance.toModel.unpack = .finite .positive (2 ^ 52) (-104) (Nat.two_pow_pos 52) := rfl

theorem unitsOf_tolerance : unitsOf tolerance = (2 ^ 1022 : Nat) := by
  have hscale : 52 + (-104 + 1074 : Int).toNat = 1022 := rfl
  rw [unitsOf, unpack_tolerance, units_positive, ← Nat.pow_add]
  exact congrArg (fun k : Nat => ((2 ^ k : Nat) : Int)) hscale

theorem isFinite_abs : x.abs.isFinite = x.isFinite := by
  change x.abs.toModel.unpack.isFinite = x.toModel.unpack.isFinite
  rw [unpack_abs]
  cases x.toModel.unpack <;> rfl

/-- A number is within the tolerance of zero when it is finite and has fewer units. -/
theorem abs_lt_tolerance_iff :
    x.abs < tolerance ↔ x.isFinite ∧ (unitsOf x).natAbs < 2 ^ 1022 := by
  by_cases hfinite : x.isFinite
  · have hunits : unitsOf x.abs = (unitsOf x).natAbs := by
      rw [unitsOf, unpack_abs, units_abs, unitsOf]
    rw [float_lt_iff_unitsOf (isFinite_abs.trans hfinite) rfl, hunits, unitsOf_tolerance,
      Int.ofNat_lt, and_iff_right hfinite]
  · refine iff_of_false ?_ fun h => hfinite h.1
    rw [lt_iff_compare, unpack_abs, unpack_tolerance]
    change ¬ x.toModel.unpack.isFinite at hfinite
    cases h : x.toModel.unpack with
    | infinity | notANumber => exact nofun
    | zero | finite => rw [h] at hfinite; exact absurd rfl hfinite

theorem two_pow_sub_pos {j k : Nat} (h : j < k) : 0 < 2 ^ k - 2 ^ j :=
  Nat.sub_pos_of_lt (Nat.pow_lt_pow_right Nat.one_lt_two h)

/-- Two finite numbers are within the tolerance when their difference in units is below the middle
between the tolerance and the number before it. -/
theorem abs_sub_lt_tolerance_iff_unitsOf (hx : x.isFinite) (hy : y.isFinite) :
    (x - y).abs < tolerance ↔ (unitsOf x - unitsOf y).natAbs < 2 ^ 1022 - 2 ^ 968 := by
  have hmiddle := two_pow_sub_pos (j := 968) (k := 1022) (by decide)
  rw [abs_lt_tolerance_iff]
  by_cases hunits : unitsOf x = unitsOf y
  · obtain ⟨s, hzero⟩ := unpack_sub_of_eq hx hy hunits
    have hfinite : (x - y).isFinite := congrArg UnpackedFloat.isFinite hzero
    have hnone : unitsOf (x - y) = 0 := congrArg units hzero
    rw [hunits, Int.sub_self, hnone, Int.natAbs_zero]
    exact iff_of_true ⟨hfinite, hmiddle.trans_le (Nat.sub_le _ _)⟩ hmiddle
  · have hsub := unpack_sub_of_ne hx hy hunits
    obtain ⟨s, n, hn, hdifference⟩ := exists_apply_eq (sub_ne_zero.mpr hunits)
    have hnatAbs : (s.apply (n : Int)).natAbs = n := by
      cases s <;> simp [Sign.apply]
    rw [hdifference] at hsub ⊢
    have hhigh : 968 + 54 = 1022 := rfl
    have hnearest := nearest_mul_lt_iff (k := 968) hn
    rw [hhigh] at hnearest
    rw [hnatAbs, ← hnearest]
    -- From the middle on the difference is rounded to the tolerance, or to more.
    rcases ofUnits_apply (s := s) hn with ⟨m, e, h, hvalue, -, -, hrounded⟩ | ⟨hvalue, hlarge⟩
    · rw [hvalue] at hsub
      have hfinite : (x - y).isFinite := congrArg UnpackedFloat.isFinite hsub
      rw [and_iff_right hfinite, unitsOf, hsub, natAbs_units, hrounded]
    · rw [hvalue] at hsub
      have hfinite : (x - y).isFinite = false := congrArg UnpackedFloat.isFinite hsub
      refine iff_of_false (fun h => ?_) (Nat.not_lt.mpr hlarge)
      rw [hfinite] at h
      cases h.1

/-- Whole numbers of units are compared with a difference of powers of two like the rational numbers
that they make. -/
theorem natAbs_lt_two_pow_sub_iff {d : Int} {r : ℚ} {i j k all high low : Nat}
    (hall : i + high = all) (hhigh : j + k = high) (hlow : i + j = low) (hd : r * 2 ^ all = d) :
    d.natAbs < 2 ^ high - 2 ^ k ↔ |r| < 1 / 2 ^ i - 1 / 2 ^ low := by
  have hpos : (0 : ℚ) < 2 ^ all := pow_pos two_pos _
  have hle : 2 ^ k ≤ 2 ^ high := Nat.pow_le_pow_right Nat.two_pos (by omega)
  have hnatAbs : (d.natAbs : ℚ) = |r| * 2 ^ all := by
    rw [Nat.cast_natAbs, Int.cast_abs, ← hd, abs_mul, abs_of_pos hpos]
  have hmiddle : ((2 ^ high - 2 ^ k : Nat) : ℚ) = (1 / 2 ^ i - 1 / 2 ^ low) * 2 ^ all := by
    rw [Nat.cast_sub hle, ← hall, ← hhigh, ← hlow, pow_add 2 i (j + k), pow_add 2 i j]
    push_cast
    rw [pow_add 2 j k]
    field_simp
  rw [← Nat.cast_lt (α := ℚ), hnatAbs, hmiddle, mul_lt_mul_iff_left₀ hpos]

theorem abs_sub_lt_tolerance_iff_denotes (hx : Denotes x p) (hy : Denotes y q) :
    (x - y).abs < tolerance ↔ |p - q| < 1 / 2 ^ 52 - 1 / 2 ^ 106 := by
  obtain ⟨hxfinite, hp⟩ := denotes_iff_unitsOf.mp hx
  obtain ⟨hyfinite, hq⟩ := denotes_iff_unitsOf.mp hy
  have hdifference : (p - q) * 2 ^ 1074 = (unitsOf x - unitsOf y : Int) := by
    rw [sub_mul, hp, hq, Int.cast_sub]
  rw [abs_sub_lt_tolerance_iff_unitsOf hxfinite hyfinite]
  exact natAbs_lt_two_pow_sub_iff (j := 54) rfl rfl rfl hdifference

/-! ## What is not finite -/

theorem eq_special_of_not_isFinite (h : ¬ x.isFinite) :
    x = 0.0 / 0.0 ∨ x = 1.0 / 0.0 ∨ x = -1.0 / 0.0 := by
  refine Binary.eq_special_of_eq_none ?_
  change ¬ x.toModel.unpack.isFinite at h
  rw [ofFloat?_eq_ofUnpacked?]
  cases hx : x.toModel.unpack with
  | infinity | notANumber => rfl
  | zero | finite => rw [hx] at h; exact absurd rfl h

/-- The infinite number of a sign. -/
def infinity : Sign → Float
  | .positive => 1.0 / 0.0
  | .negative => -1.0 / 0.0

/-- There is only one infinite number of each sign. -/
theorem eq_infinity {s : Sign} (hx : x.toModel.unpack = .infinity s) : x = infinity s := by
  have hinfinite : ¬ x.isFinite := by
    change ¬ x.toModel.unpack.isFinite
    rw [hx]
    exact nofun
  rcases eq_special_of_not_isFinite hinfinite with rfl | rfl | rfl
  · cases hx
  · cases s with
    | positive => rfl
    | negative => cases hx
  · cases s with
    | positive => cases hx
    | negative => rfl

theorem eq_infinity_iff : x = 1.0 / 0.0 ↔ x.toModel.unpack = .infinity .positive :=
  ⟨fun h => h ▸ rfl, eq_infinity⟩

theorem not_isFinite_unpack_pack (h : ¬ u.isFinite) :
    ¬ (UnpackedFloat.unpack .binary64 (UnpackedFloat.pack .binary64 u)).isFinite := by
  cases u with
  | infinity s => cases s <;> exact nofun
  | notANumber => exact nofun
  | zero | finite => exact absurd rfl h

/-- A difference is only finite for finite numbers. -/
theorem not_isFinite_sub (h : ¬ (x.isFinite ∧ y.isFinite)) : ¬ (x - y).isFinite := by
  change ¬ (x.toModel.unpack.isFinite ∧ y.toModel.unpack.isFinite) at h
  change ¬ (x - y).toModel.unpack.isFinite
  rw [unpack_sub]
  refine not_isFinite_unpack_pack ?_
  cases hx : x.toModel.unpack with
  | notANumber => exact nofun
  | infinity s =>
    cases hy : y.toModel.unpack with
    | infinity s' => cases s <;> cases s' <;> exact nofun
    | notANumber | zero | finite => exact nofun
  | zero | finite =>
    cases hy : y.toModel.unpack with
    | infinity | notANumber => exact nofun
    | zero | finite => rw [hx, hy] at h; exact absurd ⟨rfl, rfl⟩ h

/-- What is not finite is within the tolerance of no number, not even of itself. -/
theorem not_abs_sub_lt_tolerance (h : ¬ (x.isFinite ∧ y.isFinite)) :
    ¬ (x - y).abs < tolerance :=
  fun hclose => not_isFinite_sub h (abs_lt_tolerance_iff.mp hclose).1

/-- Numbers are within the tolerance when they are finite and their exact difference is below the
middle between the tolerance and the number before it. -/
theorem abs_sub_lt_tolerance_iff :
    (x - y).abs < tolerance ↔
      ∃ p q, Denotes x p ∧ Denotes y q ∧ |p - q| < 1 / 2 ^ 52 - 1 / 2 ^ 106 := by
  by_cases hfinite : x.isFinite ∧ y.isFinite
  · obtain ⟨p, hp⟩ := exists_denotes hfinite.1
    obtain ⟨q, hq⟩ := exists_denotes hfinite.2
    rw [abs_sub_lt_tolerance_iff_denotes hp hq]
    constructor
    · exact fun h => ⟨p, q, hp, hq, h⟩
    · rintro ⟨p', q', hp', hq', h⟩
      rwa [hp.unique hp', hq.unique hq']
  · exact iff_of_false (not_abs_sub_lt_tolerance hfinite)
      fun ⟨_, _, hp, hq, _⟩ => hfinite ⟨hp.isFinite, hq.isFinite⟩

/-! ## What is left -/

theorem isPositive_ofUnits (hn : 0 < n) : IsPositive (ofUnits n) := by
  rcases ofUnits_apply (s := .positive) hn with ⟨m, e, h, hvalue, -⟩ | ⟨hvalue, -⟩ <;>
    exact hvalue ▸ trivial

/-- What is not above a finite number leaves something that is not negative. -/
theorem zero_le_sub_of_isFinite (hx : x.isFinite) (hy : y.isFinite) (h : y ≤ x) : 0.0 ≤ x - y := by
  rw [zero_le_iff]
  rw [float_le_iff_unitsOf hy hx] at h
  by_cases hunits : unitsOf x = unitsOf y
  · exact .inr (unpack_sub_of_eq hx hy hunits)
  · obtain ⟨n, hn⟩ := Int.eq_ofNat_of_zero_le (Int.sub_nonneg_of_le h)
    rw [unpack_sub_of_ne hx hy hunits, hn]
    exact .inl (isPositive_ofUnits (by omega))

/-- Where one of the numbers is infinite, so is what is left, unless both are. -/
theorem sub_of_infinite (hu : IsPositive u ∨ ∃ s, u = .zero s)
    (hv : (v.compare u).any Ordering.isLE) (h : ¬ (u.isFinite ∧ v.isFinite)) :
    u = .infinity .positive ∧ v = .infinity .positive ∨
      UnpackedFloat.sub .binary64 u v = .infinity .positive := by
  cases v with
  | notANumber => cases u <;> cases hv
  | infinity s =>
    cases s with
    | positive =>
      cases u with
      | infinity s => cases s with
        | positive => exact .inl ⟨rfl, rfl⟩
        | negative => cases hv
      | notANumber | zero | finite => cases hv
    | negative =>
      refine .inr ?_
      cases u with
      | infinity s => cases s with
        | positive => rfl
        | negative => exact hu.elim nofun nofun
      | notANumber => exact hu.elim nofun nofun
      | zero | finite => rfl
  | zero | finite =>
    refine .inr ?_
    cases u with
    | infinity s => cases s with
      | positive => rfl
      | negative => exact hu.elim nofun nofun
    | notANumber => exact hu.elim nofun nofun
    | zero | finite => exact absurd ⟨rfl, rfl⟩ h

/-- What is not above a number leaves something that is not negative, unless both are infinite. -/
theorem zero_le_sub_iff (hx : 0.0 ≤ x) (hy : y ≤ x) :
    0.0 ≤ x - y ↔ ¬ (x = 1.0 / 0.0 ∧ y = 1.0 / 0.0) := by
  by_cases hinfinite : x = 1.0 / 0.0 ∧ y = 1.0 / 0.0
  · obtain ⟨rfl, rfl⟩ := hinfinite
    exact iff_of_false (by decide +kernel) (not_not_intro ⟨rfl, rfl⟩)
  refine iff_of_true ?_ hinfinite
  by_cases hfinite : x.isFinite ∧ y.isFinite
  · exact zero_le_sub_of_isFinite hfinite.1 hfinite.2 hy
  rw [eq_infinity_iff, eq_infinity_iff] at hinfinite
  rw [le_iff_compare] at hy
  have hsub := (sub_of_infinite (zero_le_iff.mp hx) hy hfinite).resolve_left hinfinite
  rw [zero_le_iff, unpack_sub, hsub]
  exact .inl trivial

end IdleGame
