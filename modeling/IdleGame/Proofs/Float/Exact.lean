import IdleGame.Proofs.Float.Special
import IdleGame.Proofs.Float.Sum

/-!
# Numbers that are not rounded

A number with at most 53 digits is written with all of them, and dividing it by a power of two moves
the exponent and no digit. So a whole number below `2 ^ 53` is exact as a floating point number, and
so is that number over `2 ^ 53`.

## Main definitions

* `Binary.value` - the rational number with these parts
* `Denotes` - a floating point number is exactly a rational one

## Main results

* `roundWithAccuracy_exact` - nothing is rounded where all digits behind the 53rd are zero
* `unpack_pack_of_normal` - a number with 53 digits stays what it is when it is packed
* `denotes_toFloat_div` - whole numbers below `2 ^ 53` over `2 ^ 53` are exact
-/

namespace IdleGame

open Float.Model Float.Model.UnpackedFloat

/-- The number `± significand · 2 ^ exponent`. -/
def Binary.value (b : Binary) : ℚ :=
  (if b.negative then -1 else 1) * (b.significand * 2 ^ b.exponent)

/-- A floating point number is finite and exactly a rational number. -/
def Denotes (x : Float) (q : ℚ) : Prop := ∃ b, Binary.ofFloat? x = some b ∧ b.value = q

variable {s : Sign} {m k n : Nat} {e : Int}

/-! ## Digits that are zero -/

theorem shiftRight_exact (m k : Nat) :
    (⟨m * 2 ^ k, false, false⟩ : ExtendedMantissa) >>> k = ⟨m, false, false⟩ := by
  induction k generalizing m with
  | zero => simp [HShiftRight.hShiftRight, Nat.repeat]
  | succ k ih =>
    -- The last of the shifts takes the one zero that the others have left.
    change ExtendedMantissa.shiftRightOne
      ((⟨m * 2 ^ (k + 1), false, false⟩ : ExtendedMantissa) >>> k) = _
    rw [Nat.pow_succ', ← Nat.mul_assoc, ih, ExtendedMantissa.shiftRightOne]
    simp

/-- A mantissa whose last digits are zero is shifted without a remainder. -/
theorem shiftToTargetExponent_exact
    (h : (Format.binary64.targetExponent (totalExponent (m * 2 ^ k) e) - e).toNat = k) :
    shiftToTargetExponent .binary64 (m * 2 ^ k) e .exact = (⟨m, false, false⟩, e + k) := by
  rw [shiftToTargetExponent, shiftToExponent]
  simp only [h, ExtendedMantissa.ofMantissaAndAccuracy, shiftRight_exact]

theorem log2_eq_of_bounds (hm : 2 ^ 52 ≤ m) (hm' : m < 2 ^ 53) : m.log2 = 52 :=
  (Nat.log2_eq_iff (by omega)).mpr ⟨hm, hm'⟩

theorem log2_mul_two_pow (h : m ≠ 0) : (m * 2 ^ k).log2 = m.log2 + k := by
  induction k with
  | zero => simp
  | succ k ih =>
    have hne : m * 2 ^ k ≠ 0 := Nat.mul_ne_zero h (Nat.two_pow_pos k).ne'
    rw [Nat.pow_succ', Nat.mul_left_comm, Nat.log2_two_mul hne, ih, Nat.add_assoc]

/-- Nothing is rounded where all digits behind the 53rd are zero. -/
theorem roundWithAccuracy_exact (hm : 2 ^ 52 ≤ m) (hm' : m < 2 ^ 53) (he : -1074 ≤ e + k) :
    roundWithAccuracy .binary64 s (m * 2 ^ k) e .exact =
      .finite s m (e + k) (Nat.lt_of_lt_of_le (Nat.two_pow_pos 52) hm) := by
  have hlog := log2_eq_of_bounds hm hm'
  have hfirst : (Format.binary64.targetExponent (totalExponent (m * 2 ^ k) e) - e).toNat = k := by
    rw [targetExponent_binary64, totalExponent, log2_mul_two_pow (by omega), hlog]
    omega
  -- The second shift is for a digit that rounding adds, and here it adds none.
  have hsecond := shiftToTargetExponent_exact (m := m) (k := 0) (e := e + k) (by
    rw [targetExponent_binary64, totalExponent, Nat.pow_zero, Nat.mul_one, hlog]
    omega)
  simp only [Nat.pow_zero, Nat.mul_one, Int.ofNat_zero, Int.add_zero] at hsecond
  have hrounded : (⟨m, false, false⟩ : ExtendedMantissa).roundedMantissa = m := rfl
  rw [roundWithAccuracy, shiftToTargetExponent_exact hfirst]
  simp only [hrounded, hsecond]
  rw [dif_neg (by omega)]

/-! ## Packing -/

/-- A digit in front of others counts as much as their number says. -/
theorem toNat_one_append (x : BitVec n) : (1#1 ++ x).toNat = 2 ^ n + x.toNat := by
  have hor := Nat.two_pow_add_eq_or_of_lt x.isLt 1
  rw [BitVec.toNat_append, Nat.shiftLeft_eq, Nat.mul_comm]
  exact hor.symm.trans (by rw [Nat.mul_one])

/-- A number with 53 digits and an exponent in range stays what it is when it is packed. -/
theorem unpack_pack_of_normal (hm : 2 ^ 52 ≤ m) (hm' : m < 2 ^ 53) (he : -1074 ≤ e)
    (he' : e ≤ 971) (hpos : 0 < m) :
    UnpackedFloat.unpack .binary64 (UnpackedFloat.pack .binary64 (.finite s m e hpos)) =
      .finite s m e hpos := by
  have hbias : e + Format.binary64.exponentBias + Format.binary64.mantissaBitsWithoutImplicit =
      e + 1075 := by
    change e + 1023 + 52 = _
    omega
  rw [UnpackedFloat.pack]
  simp only [hbias, log2_eq_of_bounds hm hm']
  rw [if_neg (by change ¬ 2048 ≤ _; omega),
    if_pos (show 52 + 1 = Format.binary64.mantissaBits from rfl), UnpackedFloat.unpack]
  have hexponent : (BitVec.ofNat 11 (e + 1075).toNat).toNat = (e + 1075).toNat := by
    rw [BitVec.toNat_ofNat, Nat.mod_eq_of_lt (by omega)]
  have hfinite : BitVec.ofNat 11 (e + 1075).toNat ≠ -1#11 := by
    intro h
    have hnat := congrArg BitVec.toNat h
    rw [hexponent] at hnat
    change (e + 1075).toNat = 2047 at hnat
    omega
  have hnormal : BitVec.ofNat 11 (e + 1075).toNat ≠ 0#11 := by
    intro h
    have hnat := congrArg BitVec.toNat h
    rw [hexponent] at hnat
    change (e + 1075).toNat = 0 at hnat
    omega
  -- The first digit is not written, and is put back in front of the others.
  have hmantissa : (1#1 ++ BitVec.ofNat 52 m).toNat = m := by
    rw [toNat_one_append, BitVec.toNat_ofNat]
    omega
  have hunbiased : ((e + 1075).toNat : Int) - ((Format.binary64.exponentBias : Int) +
      (Format.binary64.mantissaBitsWithoutImplicit : Int)) = e := by
    change ((e + 1075).toNat : Int) - (1023 + 52) = e
    omega
  simp only [unpackExponent_packComponents, unpackMantissa_packComponents,
    ofBitVec_unpackSign_packComponents]
  rw [if_neg hfinite, if_neg hnormal]
  simp only [hexponent, hmantissa, hunbiased]

/-! ## Unpacking -/

/-- The parts of an unpacked number, if it is finite. -/
def Binary.ofUnpacked? : UnpackedFloat → Option Binary
  | .finite s m e _ => some ⟨s == .negative, m, e⟩
  | .zero s => some ⟨s == .negative, 0, -1074⟩
  | .infinity _ | .notANumber => none

theorem toNat_unpackSign (b : BitVec Format.binary64.numBits) :
    (unpackSign b).toNat = b.toNat / Nat.pow 2 63 := by
  have hlt : b.toNat < 2 ^ 64 := b.isLt
  simp [unpackSign, BitVec.extractLsb, Nat.shiftRight_eq_div_pow]
  omega

/-- The first bit is set for negative numbers. -/
theorem isNegative_ofBitVec_unpackSign (b : BitVec Format.binary64.numBits) :
    (Sign.ofBitVec (unpackSign b) == .negative) = decide (Nat.pow 2 63 ≤ b.toNat) := by
  have hsign := toNat_unpackSign b
  by_cases hnegative : Nat.pow 2 63 ≤ b.toNat
  · have hone : unpackSign b ≠ 0#1 := by
      intro hzero
      rw [hzero] at hsign
      exact absurd (Nat.lt_of_div_eq_zero (Nat.two_pow_pos 63) hsign.symm)
        (Nat.not_lt.mpr hnegative)
    rw [Sign.ofBitVec, if_neg hone, decide_eq_true hnegative]
    rfl
  · have hzero : unpackSign b = 0#1 :=
      BitVec.eq_of_toNat_eq (hsign.trans (Nat.div_eq_of_lt (Nat.not_le.mp hnegative)))
    rw [Sign.ofBitVec, if_pos hzero, decide_eq_false hnegative]
    rfl

/-- The parts of a floating point number are those that it is unpacked into. -/
theorem ofFloat?_eq_ofUnpacked? (x : Float) :
    Binary.ofFloat? x = Binary.ofUnpacked? x.toModel.unpack := by
  change Binary.ofBits? x.toBits =
    Binary.ofUnpacked? (UnpackedFloat.unpack .binary64 x.toBits.toBitVec)
  generalize x.toBits = word
  have hexponent : (@unpackExponent .binary64 word.toBitVec).toNat =
      word.toNat / Nat.pow 2 52 % Nat.pow 2 11 := toNat_unpackExponent _
  have hmantissa : (@unpackMantissa .binary64 word.toBitVec).toNat = word.toNat % Nat.pow 2 52 :=
    toNat_unpackMantissa _
  have hsign : (Sign.ofBitVec (@unpackSign .binary64 word.toBitVec) == .negative) =
      decide (Nat.pow 2 63 ≤ word.toNat) := isNegative_ofBitVec_unpackSign _
  rw [Binary.ofBits?, UnpackedFloat.unpack]
  simp only [← hexponent, ← hmantissa, ← hsign]
  -- Both sides tell the exponents apart in the same way.
  by_cases hall : @unpackExponent .binary64 word.toBitVec = -1#11
  · have hall' : (@unpackExponent .binary64 word.toBitVec).toNat = 2047 :=
      congrArg BitVec.toNat hall
    rw [if_pos hall', if_pos hall]
    split <;> rfl
  · have hall' : (@unpackExponent .binary64 word.toBitVec).toNat ≠ 2047 :=
      fun h => hall (BitVec.eq_of_toNat_eq h)
    rw [if_neg hall', if_neg hall]
    by_cases hzero : @unpackExponent .binary64 word.toBitVec = 0#11
    · have hzero' : (@unpackExponent .binary64 word.toBitVec).toNat = 0 :=
        congrArg BitVec.toNat hzero
      rw [if_pos hzero', if_pos hzero]
      split
      · rename_i hempty
        rw [hempty]
        rfl
      · rw [Binary.ofUnpacked?, hzero']
        rfl
    · have hzero' : (@unpackExponent .binary64 word.toBitVec).toNat ≠ 0 :=
        fun h => hzero (BitVec.eq_of_toNat_eq h)
      rw [if_neg hzero', if_neg hzero, Binary.ofUnpacked?, toNat_one_append]
      rfl

/-! ## Whole numbers and their quotients -/

theorem scaled_bounds (hpos : 0 < n) (hn : n < 2 ^ 53) :
    2 ^ 52 ≤ n * 2 ^ (52 - n.log2) ∧ n * 2 ^ (52 - n.log2) < 2 ^ 53 := by
  have hlog : n.log2 < 53 := (Nat.log2_lt hpos.ne').mpr hn
  have hscaled : (n * 2 ^ (52 - n.log2)).log2 = 52 := by
    rw [log2_mul_two_pow hpos.ne']
    omega
  exact (Nat.log2_eq_iff (Nat.mul_pos hpos (Nat.two_pow_pos _)).ne').mp hscaled

/-- A whole number below `2 ^ 53` is written with zeros behind its digits up to the 53rd. -/
theorem round_exact (hpos : 0 < n) (hn : n < 2 ^ 53) :
    UnpackedFloat.round .binary64 s n 0 =
      .finite s (n * 2 ^ (52 - n.log2)) ((n.log2 : Int) - 52)
        (Nat.mul_pos hpos (Nat.two_pow_pos _)) := by
  have hlog : n.log2 < 53 := (Nat.log2_lt hpos.ne').mpr hn
  have htarget : Format.binary64.targetExponent (totalExponent n 0) = (n.log2 : Int) - 52 := by
    rw [targetExponent_binary64, totalExponent]
    omega
  have hshift : ((0 : Int) - ((n.log2 : Int) - 52)).toNat = 52 - n.log2 := by omega
  have hexponent : (0 : Int) - ((52 - n.log2 : Nat) : Int) = (n.log2 : Int) - 52 := by omega
  obtain ⟨hlow, hhigh⟩ := scaled_bounds hpos hn
  have hround := roundWithAccuracy_exact (s := s) (k := 0) (e := (n.log2 : Int) - 52) hlow hhigh
    (by omega)
  rw [UnpackedFloat.round, htarget, decreaseExponent]
  simp only [hshift, hexponent, Nat.shiftLeft_eq]
  simpa using hround

/-- Dividing a number with 53 digits by `2 ^ 53` gives one digit more, a zero, and no remainder. -/
theorem divCore_two_pow (hm : 2 ^ 52 ≤ m) (hm' : m < 2 ^ 53) (he : -1020 ≤ e) :
    divCore .binary64 m e (2 ^ 52) 1 = (m * 2 ^ 1, e - 54, .exact) := by
  have htarget : Format.binary64.targetExponent
      (totalExponent m e - totalExponent (2 ^ 52) 1) = e - 54 := by
    rw [targetExponent_binary64, totalExponent, totalExponent, log2_eq_of_bounds hm hm',
      Nat.log2_two_pow]
    omega
  have hmin : min (e - 1) (e - 54) = e - 54 := by omega
  have hshift : (e - 1 - (e - 54)).toNat = 53 := by omega
  have hdividend : m <<< 53 = (m * 2 ^ 1) * 2 ^ 52 := by
    rw [Nat.shiftLeft_eq, Nat.mul_assoc, ← Nat.pow_add]
  rw [divCore, htarget, hmin, hshift, hdividend]
  simp only [Nat.mul_div_cancel _ (Nat.two_pow_pos 52), Nat.mul_mod_left, accuracyOfFraction,
    if_true]

/-- Dividing a number with 53 digits by `2 ^ 53` lowers its exponent. -/
theorem div_two_pow_exact (hm : 2 ^ 52 ≤ m) (hm' : m < 2 ^ 53) (hpos : 0 < m) (he : -1020 ≤ e) :
    UnpackedFloat.div .binary64 (.finite .positive m e hpos)
        (.finite .positive (2 ^ 52) 1 (Nat.two_pow_pos 52)) =
      .finite .positive m (e - 53) hpos := by
  have hround := roundWithAccuracy_exact (s := .positive) (k := 1) (e := e - 54) hm hm' (by omega)
  have hexponent : e - 54 + (1 : Nat) = e - 53 := by omega
  simp only [hexponent] at hround
  rw [UnpackedFloat.div, divCore_two_pow hm hm' he]
  exact hround

/-- Whole numbers below `2 ^ 53` are exact. -/
theorem unpack_toFloat {word : UInt64} (hpos : 0 < word.toNat) (hword : word.toNat < 2 ^ 53) :
    word.toFloat.toModel.unpack =
      .finite .positive (word.toNat * 2 ^ (52 - word.toNat.log2)) ((word.toNat.log2 : Int) - 52)
        (Nat.mul_pos hpos (Nat.two_pow_pos _)) := by
  have hlog : word.toNat.log2 < 53 := (Nat.log2_lt hpos.ne').mpr hword
  obtain ⟨hlow, hhigh⟩ := scaled_bounds hpos hword
  change UnpackedFloat.unpack .binary64
    (UnpackedFloat.pack .binary64
      (UnpackedFloat.normalize .binary64 (word.toNat : Int) 0 .positive)) = _
  rw [UnpackedFloat.normalize, Int.compare_eq_gt.mpr (Int.natCast_pos.mpr hpos)]
  dsimp only
  rw [Int.toNat_natCast, round_exact hpos hword]
  exact unpack_pack_of_normal hlow hhigh (by omega) (by omega) _

/-- Over `2 ^ 53` they keep their digits. -/
theorem unpack_toFloat_div {word : UInt64} (hpos : 0 < word.toNat) (hword : word.toNat < 2 ^ 53) :
    (word.toFloat / 9007199254740992.0).toModel.unpack =
      .finite .positive (word.toNat * 2 ^ (52 - word.toNat.log2))
        ((word.toNat.log2 : Int) - 52 - 53) (Nat.mul_pos hpos (Nat.two_pow_pos _)) := by
  have hlog : word.toNat.log2 < 53 := (Nat.log2_lt hpos.ne').mpr hword
  obtain ⟨hlow, hhigh⟩ := scaled_bounds hpos hword
  have hdivisor : (9007199254740992.0 : Float).toModel.unpack =
      .finite .positive (2 ^ 52) 1 (Nat.two_pow_pos 52) := rfl
  change UnpackedFloat.unpack .binary64 (UnpackedFloat.pack .binary64
    (UnpackedFloat.div .binary64 word.toFloat.toModel.unpack _)) = _
  rw [unpack_toFloat hpos hword, hdivisor, div_two_pow_exact hlow hhigh _ (by omega)]
  exact unpack_pack_of_normal hlow hhigh (by omega) (by omega) _

/-- Whole numbers below `2 ^ 53` over `2 ^ 53` are exact. -/
theorem denotes_toFloat_div {word : UInt64} (hword : word.toNat < 2 ^ 53) :
    Denotes (word.toFloat / 9007199254740992.0) (word.toNat / 2 ^ 53) := by
  rcases Nat.eq_zero_or_pos word.toNat with hzero | hpos
  · obtain rfl : word = 0 := UInt64.toNat_inj.mp hzero
    refine ⟨⟨false, 0, -1074⟩, (ofFloat?_eq_ofUnpacked? _).trans rfl, ?_⟩
    simp [Binary.value]
  · have hlog : word.toNat.log2 < 53 := (Nat.log2_lt hpos.ne').mpr hword
    refine ⟨⟨false, word.toNat * 2 ^ (52 - word.toNat.log2), (word.toNat.log2 : Int) - 52 - 53⟩,
      ?_, ?_⟩
    · rw [ofFloat?_eq_ofUnpacked?, unpack_toFloat_div hpos hword]
      rfl
    · -- The zeros that were written behind the digits are taken back by the exponent.
      have hexponent :
          (word.toNat.log2 : Int) - 52 - 53 = -((52 - word.toNat.log2 : Nat) + 53) := by
        omega
      rw [Binary.value, hexponent, zpow_neg, zpow_add₀ two_ne_zero, zpow_natCast]
      push_cast
      field_simp
      norm_num

end IdleGame
