import IdleGame.Decimal.Text

/-!
# Digits written and read

The digits of a number, in any base up to sixteen, read back as that number. So a number is
determined by its digits.

## Main results

* `Decimal.ofDigits?_toDigits` - digits read back
* `digitsOf_injective` - different numbers have different digits
-/

namespace IdleGame

namespace Decimal

variable {base n : Nat}

theorem digitValue?_digitChar {d : Nat} (h : d < 16) : digitValue? d.digitChar = some d := by
  have hall : ∀ d < 16, digitValue? (Nat.digitChar d) = some d := by decide
  exact hall d h

theorem ofDigits?_concat (digits : List Char) (c : Char) :
    ofDigits? base (digits ++ [c]) = (ofDigits? base digits).bind fun n =>
      (digitValue? c).bind fun v => if v < base then some (n * base + v) else none := by
  rw [ofDigits?, List.foldlM_append]
  simp [ofDigits?]

/-- What is no digit of a base is not read in it. -/
theorem ofDigits?_eq_none {digits : List Char} {c : Char} (h : c ∈ digits)
    (hc : ∀ v, digitValue? c = some v → base ≤ v) : ofDigits? base digits = none := by
  obtain ⟨before, after, rfl⟩ := List.append_of_mem h
  have hconcat : ofDigits? base (before ++ [c]) = none := by
    rw [ofDigits?_concat, Option.bind_eq_none_iff]
    intro n _
    rw [Option.bind_eq_none_iff]
    intro v hv
    exact if_neg (Nat.not_lt.mpr (hc v hv))
  rw [ofDigits?] at hconcat ⊢
  rw [List.append_cons, List.foldlM_append, hconcat]
  rfl

/-- The digits of a number read back as the number. -/
theorem ofDigits?_toDigits (hbase : 1 < base) (hbase' : base ≤ 16) (n : Nat) :
    ofDigits? base (Nat.toDigits base n) = some n := by
  induction n using Nat.strongRecOn with
  | ind n ih =>
    -- The last digit is the remainder, and those before it are the digits of the quotient.
    rw [Nat.toDigits_eq_if hbase]
    split
    · rename_i hn
      have hempty : ofDigits? base [] = some 0 := rfl
      rw [← List.nil_append [_], ofDigits?_concat, hempty, digitValue?_digitChar (by omega)]
      simp [hn]
    · rename_i hn
      have hmod : n % base < base := Nat.mod_lt n (by omega)
      have hdiv : n / base < n := Nat.div_lt_self (by omega) hbase
      rw [ofDigits?_concat, ih _ hdiv, digitValue?_digitChar (by omega)]
      simp [hmod, Nat.div_add_mod']

end Decimal

theorem ofDigits?_digitsOf (n : Nat) : Decimal.ofDigits? 10 (digitsOf n) = some n :=
  Decimal.ofDigits?_toDigits (by decide) (by decide) n

theorem isDigit_of_mem_digitsOf {n : Nat} {c : Char} (h : c ∈ digitsOf n) : c.isDigit :=
  Nat.isDigit_of_mem_toDigits (by decide) (by decide) h

theorem digitsOf_ne_nil (n : Nat) : digitsOf n ≠ [] := Nat.toDigits_ne_nil

/-- Different numbers have different digits. -/
theorem digitsOf_injective {m n : Nat} (h : digitsOf m = digitsOf n) : m = n := by
  have hread := ofDigits?_digitsOf m
  rw [h, ofDigits?_digitsOf] at hread
  exact (Option.some.inj hread).symm

end IdleGame
