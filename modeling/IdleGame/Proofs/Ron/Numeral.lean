import IdleGame.Proofs.Decimal.Text
import IdleGame.Ron.Numeral

/-!
# Numerals of RON read

The digits of a natural number are read as that number. A number with a point or an exponent is not
read as an integer but as the decimal that it denotes.

## Main results

* `Ron.natural?_lt` - a natural number fits the width that it is read with
* `Ron.natural?_digitsOf` - the digits of a number that fits read back as the number
* `Ron.number?_write` - a number that is written for data is read as its decimal
-/

namespace IdleGame.Ron

variable {bits n : Nat} {lexeme cs body : List Char}

/-- A natural number fits the width that it is read with. -/
theorem natural?_lt (h : natural? bits lexeme = some n) : n < Nat.pow 2 bits := by
  obtain ⟨read, -, h⟩ := Option.bind_eq_some_iff.mp h
  dsimp only at h
  split at h
  · rename_i hfits
    obtain rfl := Option.some.inj h
    have hholds := (Bool.and_eq_true_iff.mp hfits).2
    unfold IntegerType.holds at hholds
    rw [if_neg Bool.false_ne_true] at hholds
    split at hholds
    · rw [of_decide_eq_true hholds]
      exact Nat.pow_pos (by decide)
    · exact of_decide_eq_true hholds
  · cases h

/-! ## Characters of numerals -/

/-- A digit, a point, an exponent mark or a sign. -/
def IsNumeralChar (c : Char) : Prop := c.isDigit ∨ c = '.' ∨ c = 'e' ∨ c = '-'

theorem isNumeralChar_of_fractional (h : Decimal.Fractional body) :
    ∀ c ∈ body, IsNumeralChar c := by
  obtain ⟨-, hdigits, hmark, hrest⟩ := h
  intro c hc
  rcases List.mem_append.mp hc with hc | hc
  · exact .inl (hdigits c hc)
  · rcases List.mem_cons.mp hc with rfl | hc
    · exact .inr (hmark.imp_right .inl)
    · exact (hrest c hc).imp_right fun h => .inr h

theorem notMem_of_numeral {c : Char} (h : ∀ c ∈ cs, IsNumeralChar c)
    (hc : ¬ (c.isDigit ∨ c = '.' ∨ c = 'e' ∨ c = '-') := by decide) : c ∉ cs :=
  fun hmem => hc (h c hmem)

/-- A character that is no sign is what is left in front. -/
theorem splitSign_of_isDigit {c : Char} (h : c.isDigit) :
    Decimal.splitSign (c :: cs) = (false, c :: cs) := by
  unfold Decimal.splitSign
  split
  · rename_i heq
    obtain ⟨rfl, -⟩ := List.cons.inj heq
    cases h
  · rename_i heq
    obtain ⟨rfl, -⟩ := List.cons.inj heq
    cases h
  · rfl

/-- Without a letter that announces another base a numeral is decimal. -/
theorem splitBase_of_numeral (h : ∀ c ∈ cs, IsNumeralChar c) : splitBase cs = (10, cs) := by
  unfold splitBase
  split
  · exact absurd (by simp) (notMem_of_numeral (c := 'b') h)
  · exact absurd (by simp) (notMem_of_numeral (c := 'o') h)
  · exact absurd (by simp) (notMem_of_numeral (c := 'x') h)
  · rfl

theorem isIntegerDigit_of_isDigit {c : Char} (h : c.isDigit) : isIntegerDigit c := by
  have hrange : '0' ≤ c ∧ c ≤ '9' := by simpa [Char.isDigit, Char.le_def] using h
  simp [isIntegerDigit, Decimal.digitValue?, hrange]

theorem takeWhile_isIntegerDigit {digits : List Char} (h : ∀ c ∈ digits, c.isDigit)
    (tail : List Char) : (digits ++ tail).takeWhile isIntegerDigit =
      digits ++ tail.takeWhile isIntegerDigit :=
  List.takeWhile_append_of_pos fun c hc => isIntegerDigit_of_isDigit (h c hc)

theorem dropWhile_isIntegerDigit {digits : List Char} (h : ∀ c ∈ digits, c.isDigit)
    (tail : List Char) : (digits ++ tail).dropWhile isIntegerDigit =
      tail.dropWhile isIntegerDigit :=
  List.dropWhile_append_of_pos fun c hc => isIntegerDigit_of_isDigit (h c hc)

/-! ## Natural numbers -/

theorem magnitude?_digitsOf (n : Nat) : magnitude? 10 (digitsOf n) = some n := by
  have hchars : ∀ c ∈ digitsOf n, IsNumeralChar c := fun c hc => .inl (isDigit_of_mem_digitsOf hc)
  have hunderscore : '_' ∉ digitsOf n := notMem_of_numeral hchars
  unfold magnitude?
  rw [if_neg, List.filter_eq_self.mpr, ofDigits?_digitsOf]
  · refine fun c hc => decide_eq_true ?_
    rintro rfl
    exact hunderscore hc
  · rintro (hnil | hhead)
    · exact digitsOf_ne_nil n hnil
    · exact hunderscore (List.mem_of_mem_head? hhead)

theorem integer?_digitsOf (n : Nat) : integer? (digitsOf n) = some ⟨false, n, none⟩ := by
  have hdigits : ∀ c ∈ digitsOf n, c.isDigit := fun c => isDigit_of_mem_digitsOf
  have hsign : Decimal.splitSign (digitsOf n) = (false, digitsOf n) := by
    rcases h : digitsOf n with _ | ⟨c, rest⟩
    · rfl
    · exact splitSign_of_isDigit (hdigits c (h ▸ List.mem_cons_self))
  have htake := takeWhile_isIntegerDigit hdigits []
  have hdrop := dropWhile_isIntegerDigit hdigits []
  rw [List.append_nil, List.takeWhile_nil, List.append_nil] at htake
  rw [List.append_nil, List.dropWhile_nil] at hdrop
  simp only [integer?, hsign, splitBase_of_numeral fun c hc => .inl (hdigits c hc), htake, hdrop,
    magnitude?_digitsOf]
  rfl

/-- The digits of a number that fits a width read back as the number. -/
theorem natural?_digitsOf (h : n < Nat.pow 2 bits) : natural? bits (digitsOf n) = some n := by
  rw [natural?, integer?_digitsOf]
  simpa [IntegerType.holds] using h

/-! ## Decimals -/

/-- The name of a type does not begin with a point. -/
theorem ofName?_point : IntegerType.ofName? ('.' :: cs) = none := rfl

/-- The mark of an exponent is a digit, but not of a decimal integer. -/
theorem magnitude?_eq_none (h : 'e' ∈ cs) : magnitude? 10 cs = none := by
  unfold magnitude?
  split
  · rfl
  · refine Decimal.ofDigits?_eq_none (List.mem_filter.mpr ⟨h, by decide⟩) fun v hv => ?_
    obtain rfl := Option.some.inj hv
    decide

section

variable {negative : Bool} (h : Decimal.Fractional body)
  (hsign : Decimal.splitSign lexeme = (negative, body))

include h hsign

/-- A number with a point or an exponent is no integer. -/
theorem integer?_eq_none : integer? lexeme = none := by
  have hchars := isNumeralChar_of_fractional h
  simp only [integer?, hsign, splitBase_of_numeral hchars]
  obtain ⟨-, hdigits, rfl | rfl, -⟩ := h
  -- What follows a point would have to be the name of a type.
  · rw [dropWhile_isIntegerDigit hdigits, Option.bind_eq_bind, Option.bind_eq_none_iff]
    intro magnitude _
    rw [List.dropWhile_cons_of_neg (by decide)]
    dsimp only
    rw [ofName?_point]
    rfl
  · rw [takeWhile_isIntegerDigit hdigits, List.takeWhile_cons_of_pos (by decide),
      magnitude?_eq_none (List.mem_append_right _ List.mem_cons_self)]
    rfl

theorem special?_eq_none : special? lexeme = none := by
  have hchars := isNumeralChar_of_fractional h
  simp only [special?, hsign]
  rw [if_neg, if_neg]
  · rintro rfl
    exact absurd List.mem_cons_self (notMem_of_numeral hchars)
  · rintro rfl
    exact absurd List.mem_cons_self (notMem_of_numeral hchars)

end

theorem splitPrecision_of_notMem (h : 'f' ∉ lexeme) : splitPrecision lexeme = (lexeme, none) := by
  unfold splitPrecision
  split
  · rename_i heq
    exact absurd (List.mem_reverse.mp (heq ▸ by simp)) h
  · rename_i heq
    exact absurd (List.mem_reverse.mp (heq ▸ by simp)) h
  · rfl

theorem dropUnderscores?_of_notMem {allowed : Bool} (h : '_' ∉ lexeme) :
    dropUnderscores? allowed lexeme = some lexeme := by
  induction lexeme generalizing allowed with
  | nil => rfl
  | cons c cs ih =>
    rw [List.mem_cons, not_or] at h
    unfold dropUnderscores?
    rw [if_neg (Ne.symm h.1)]
    dsimp only
    rw [ih h.2]
    rfl

theorem decimal?_eq (hchars : ∀ c ∈ lexeme, IsNumeralChar c) (hspecial : special? lexeme = none) :
    decimal? lexeme = (Decimal.read? lexeme).map fun d => (d.toFloat, none) := by
  simp only [decimal?, splitPrecision_of_notMem (notMem_of_numeral hchars), hspecial,
    dropUnderscores?_of_notMem (notMem_of_numeral hchars), Option.bind_eq_bind, Option.bind_some,
    reduceCtorEq, if_false]
  exact Option.map_eq_bind.symm

/-- A number with a point or an exponent is read as the decimal that it denotes. -/
theorem number?_fractional (h : Decimal.Fractional body)
    (hlexeme : lexeme = body ∨ lexeme = '-' :: body) :
    number? lexeme = (Decimal.read? lexeme).map Decimal.toFloat := by
  have hchars : ∀ c ∈ lexeme, IsNumeralChar c := by
    have hbody := isNumeralChar_of_fractional h
    rcases hlexeme with rfl | rfl
    · exact hbody
    · exact List.forall_mem_cons.mpr ⟨.inr (.inr (.inr rfl)), hbody⟩
  have hsign : ∃ negative, Decimal.splitSign lexeme = (negative, body) := by
    rcases hlexeme with rfl | rfl
    · obtain @⟨whole, rest, mark, hwhole, hdigits, -, -⟩ := h
      obtain ⟨c, whole, rfl⟩ := List.exists_cons_of_ne_nil hwhole
      exact ⟨false, splitSign_of_isDigit (hdigits c List.mem_cons_self)⟩
    · exact ⟨true, rfl⟩
  obtain ⟨negative, hsign⟩ := hsign
  have hspecial := special?_eq_none h hsign
  simp only [number?, integer?_eq_none h hsign, decimal?_eq hchars hspecial, Option.map_map,
    Function.comp_def]

/-- A number that is written for data is read as the decimal that is written. -/
theorem number?_write (d : Decimal) :
    number? (d.write Layout.data) = (Decimal.read? (d.write Layout.data)).map Decimal.toFloat := by
  obtain ⟨body, hbody, hwrite⟩ := d.write_data
  exact number?_fractional hbody hwrite

end IdleGame.Ron
