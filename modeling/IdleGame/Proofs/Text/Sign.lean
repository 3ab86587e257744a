/-!
# Texts with a sign between two parts

A text that is put together from two parts with a sign between them can be taken apart in as many
ways as the sign stands in it. It is taken apart in one way only where the sign is known not to
stand in the first part, or not to stand in the second.

## Main results

* `Text.append_sign_eq_append_sign_iff` - in which ways such a text can be taken apart
* `Text.append_sign_inj`, `Text.append_first_sign_inj` - when there is only one
-/

namespace IdleGame.Text

variable {sign : Char} {before before' after after' : List Char}

/-- Two texts that are made of two parts with a sign between are equal when the parts are, or when
the sign between the parts of one stands inside a part of the other. -/
theorem append_sign_eq_append_sign_iff :
    before ++ sign :: after = before' ++ sign :: after' ↔
      before = before' ∧ after = after' ∨
        (∃ part, before = before' ++ sign :: part ∧ after' = part ++ sign :: after) ∨
        ∃ part, before' = before ++ sign :: part ∧ after = part ++ sign :: after' := by
  rw [List.append_eq_append_iff]
  constructor
  · rintro (⟨_ | ⟨c, part⟩, rfl, h⟩ | ⟨_ | ⟨c, part⟩, rfl, h⟩)
    · exact .inl ⟨(List.append_nil _).symm, (List.cons.inj h).2⟩
    · obtain ⟨rfl, rfl⟩ := List.cons.inj h
      exact .inr (.inr ⟨part, rfl, rfl⟩)
    · exact .inl ⟨List.append_nil _, (List.cons.inj h).2.symm⟩
    · obtain ⟨rfl, rfl⟩ := List.cons.inj h
      exact .inr (.inl ⟨part, rfl, rfl⟩)
  · rintro (⟨rfl, rfl⟩ | ⟨part, rfl, rfl⟩ | ⟨part, rfl, rfl⟩)
    · exact .inl ⟨[], by simp, rfl⟩
    · exact .inr ⟨sign :: part, rfl, rfl⟩
    · exact .inl ⟨sign :: part, rfl, rfl⟩

/-- A sign that stands in neither second part tells the parts. -/
theorem append_sign_inj (h : sign ∉ after) (h' : sign ∉ after') :
    before ++ sign :: after = before' ++ sign :: after' ↔ before = before' ∧ after = after' := by
  rw [append_sign_eq_append_sign_iff, or_iff_left]
  rintro (⟨part, -, rfl⟩ | ⟨part, -, rfl⟩)
  · exact h' (by simp)
  · exact h (by simp)

/-- A sign that stands in neither first part tells the parts. -/
theorem append_first_sign_inj (h : sign ∉ before) (h' : sign ∉ before') :
    before ++ sign :: after = before' ++ sign :: after' ↔ before = before' ∧ after = after' := by
  rw [append_sign_eq_append_sign_iff, or_iff_left]
  rintro (⟨part, rfl, -⟩ | ⟨part, rfl, -⟩)
  · exact h (by simp)
  · exact h' (by simp)

end IdleGame.Text
