import IdleGame.Proofs.Decimal.Digits
import Mathlib.Tactic.Set

/-!
# The form of numbers in data

A number that is written for data begins with digits, perhaps behind a sign, and shows a point or an
exponent behind them. So it is never taken for an integer.

## Main definitions

* `Decimal.Fractional` - digits with a point or an exponent behind them

## Main results

* `Decimal.write_data` - numbers in data have that form
-/

namespace IdleGame.Decimal

/-- Digits with a point or an exponent behind them. There is at most one point. -/
inductive Fractional : List Char → Prop
  | mk {whole rest : List Char} {mark : Char} (hwhole : whole ≠ [])
      (hdigits : ∀ c ∈ whole, c.isDigit) (hmark : mark = '.' ∨ mark = 'e')
      (hrest : ∀ c ∈ rest, c.isDigit ∨ c = 'e' ∨ c = '-') : Fractional (whole ++ mark :: rest)

variable {d : Decimal}

theorem isDigit_of_mem_digits {c : Char} (h : c ∈ d.digits) : c.isDigit :=
  isDigit_of_mem_digitsOf h

theorem isDigit_of_mem_zeros {n : Nat} {c : Char} (h : c ∈ List.replicate n '0') : c.isDigit := by
  rw [(List.mem_replicate.mp h).2]
  rfl

/-- Digits with a point behind the first of them, and a place in any case. -/
theorem fractional_point {digits : List Char} {n : Nat} (hdigits : ∀ c ∈ digits, c.isDigit)
    (hn : 0 < n) (hne : digits ≠ []) :
    Fractional (digits.take n ++
      '.' :: (digits.drop n ++ List.replicate (1 - (digits.drop n).length) '0')) := by
  refine .mk ?_ (fun c hc => hdigits c (List.mem_of_mem_take hc)) (.inl rfl) fun c hc => .inl ?_
  · rw [Ne, List.take_eq_nil_iff]
    rintro (hzero | hnil)
    · exact Nat.ne_of_gt hn hzero
    · exact hne hnil
  · rcases List.mem_append.mp hc with hc | hc
    · exact hdigits c (List.mem_of_mem_drop hc)
    · exact isDigit_of_mem_zeros hc

theorem fractional_positional (d : Decimal) : Fractional (d.positional 1) := by
  unfold positional
  dsimp only
  generalize hbelow : (-d.exponent).toNat = below
  generalize hpadded : List.replicate (below + 1 - d.digits.length) '0' ++ d.digits ++
    List.replicate d.exponent.toNat '0' = padded
  have hdigits : ∀ c ∈ padded, c.isDigit := by
    subst hpadded
    intro c hc
    rcases List.mem_append.mp hc with hc | hc
    · rcases List.mem_append.mp hc with hc | hc
      · exact isDigit_of_mem_zeros hc
      · exact isDigit_of_mem_digits hc
    · exact isDigit_of_mem_zeros hc
  -- The zeros in front make room for the point.
  have hlength : below < padded.length := by
    simp only [← hpadded, List.length_append, List.length_replicate]
    omega
  -- There is at least one place, so the point is written.
  have hplaces (places : List Char) :
      ¬ (places ++ List.replicate (1 - places.length) '0').isEmpty := fun hempty => by
    have hnone := congrArg List.length (List.isEmpty_iff.mp hempty)
    simp only [List.length_append, List.length_replicate, List.length_nil] at hnone
    omega
  rw [if_neg (hplaces _)]
  exact fractional_point hdigits (by omega) (List.length_pos_iff.mp (by omega))

theorem fractional_scientific (d : Decimal) : Fractional d.scientific := by
  unfold scientific
  set exponent := if d.leading < 0 then '-' :: digitsOf d.leading.natAbs
    else digitsOf d.leading.natAbs with hexponent
  have hmem : ∀ c ∈ exponent, c.isDigit ∨ c = 'e' ∨ c = '-' := by
    intro c hc
    rw [hexponent] at hc
    split at hc
    · rcases List.mem_cons.mp hc with rfl | hc
      · exact .inr (.inr rfl)
      · exact .inl (isDigit_of_mem_digitsOf hc)
    · exact .inl (isDigit_of_mem_digitsOf hc)
  have hdigits : ∀ c ∈ d.digits, c.isDigit := fun c => isDigit_of_mem_digits
  rcases hd : d.digits with _ | ⟨c, _ | ⟨c', rest⟩⟩
  · exact absurd hd (digitsOf_ne_nil _)
  · rw [hd] at hdigits
    exact .mk (List.cons_ne_nil c []) hdigits (.inr rfl) hmem
  -- With more digits than one the point comes first, and the exponent is part of what follows.
  · rw [hd, List.forall_mem_cons] at hdigits
    refine @Fractional.mk [c] _ '.' (List.cons_ne_nil c []) (by simpa using hdigits.1) (.inl rfl) ?_
    intro x hx
    rcases List.mem_append.mp hx with hx | hx
    · exact .inl (hdigits.2 x hx)
    · rcases List.mem_cons.mp hx with rfl | hx
      · exact .inr (.inl rfl)
      · exact hmem x hx

/-- A number that is written for data has a point or an exponent behind its first digits. -/
theorem write_data (d : Decimal) :
    ∃ body, Fractional body ∧
      (d.write Layout.data = body ∨ d.write Layout.data = '-' :: body) := by
  unfold write
  set body := if d.isPositional Layout.data then d.positional Layout.data.leastPlaces
    else d.scientific with hbody
  refine ⟨body, ?_, ?_⟩
  · rw [hbody]
    split
    · exact fractional_positional d
    · exact fractional_scientific d
  · cases d.negative
    · exact .inl rfl
    · exact .inr rfl

end IdleGame.Decimal
