import IdleGame.Binary

/-!
# Numbers without digits

There is one number that is not finite for each sign, and one that stands for what is not a number.

## Main results

* `Binary.eq_special_of_eq_none` - a floating point number that is not finite is one of these three
-/

namespace IdleGame

open Float.Model

theorem float_eq_of_toNat_toBits_eq {x y : Float} (h : x.toBits.toNat = y.toBits.toNat) :
    x = y := by
  obtain ⟨⟨a, ha⟩⟩ := x
  obtain ⟨⟨b, hb⟩⟩ := y
  obtain rfl : a = b := UInt64.toNat_inj.mp h
  rfl

theorem toNat_unpackExponent (b : BitVec Format.binary64.numBits) :
    (UnpackedFloat.unpackExponent b).toNat = b.toNat / Nat.pow 2 52 % Nat.pow 2 11 := by
  simp [UnpackedFloat.unpackExponent, BitVec.extractLsb, Nat.shiftRight_eq_div_pow]

theorem toNat_unpackMantissa (b : BitVec Format.binary64.numBits) :
    (UnpackedFloat.unpackMantissa b).toNat = b.toNat % Nat.pow 2 52 := by
  simp [UnpackedFloat.unpackMantissa, BitVec.extractLsb]

/-- A floating point number that is not finite is infinite or not a number. -/
theorem Binary.eq_special_of_eq_none {x : Float} (h : ofFloat? x = none) :
    x = 0.0 / 0.0 ∨ x = 1.0 / 0.0 ∨ x = -1.0 / 0.0 := by
  have hbiased : x.toBits.toNat / 2 ^ 52 % 2 ^ 11 = 2047 := by
    unfold ofFloat? ofBits? at h
    dsimp only at h
    split at h
    · assumption
    · split at h <;> cases h
  have hlt : x.toBits.toNat < 2 ^ 64 := x.toBits.toNat_lt
  by_cases hfraction : x.toBits.toNat % 2 ^ 52 = 0
  -- Without a fraction only the sign is left open.
  · have hwords : x.toBits.toNat = 0x7FF0000000000000 ∨ x.toBits.toNat = 0xFFF0000000000000 := by
      omega
    right
    refine hwords.imp (fun hword => ?_) fun hword => ?_
    · exact float_eq_of_toNat_toBits_eq (hword.trans (by decide +kernel))
    · exact float_eq_of_toNat_toBits_eq (hword.trans (by decide +kernel))
  -- With one the pattern is the only one that is kept for what is not a number.
  · have hexponent : @UnpackedFloat.unpackExponent Format.binary64 x.toBits.toBitVec =
        -1#11 := BitVec.eq_of_toNat_eq ((toNat_unpackExponent _).trans hbiased)
    have hmantissa : @UnpackedFloat.unpackMantissa Format.binary64 x.toBits.toBitVec ≠
        0#52 := fun hzero =>
      hfraction ((toNat_unpackMantissa _).symm.trans (congrArg BitVec.toNat hzero))
    have hnan := x.toModel.valid.eq_packedNaN hexponent hmantissa
    exact .inl (float_eq_of_toNat_toBits_eq ((congrArg BitVec.toNat hnan).trans
      (by decide +kernel)))

end IdleGame
