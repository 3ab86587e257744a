import IdleGame.Proofs.World.Change
import Mathlib.Data.Set.Operations

/-!
# Places of random sources

A source is saved by its position and set back to it later. The built-in generator keeps its word
away from zero, so it is set back exactly; every built-in source stands at the saved position again
when it is set back.

## Main definitions

* `RandomSource.resume` - a source set back to a saved position
* `Follows` - a source after draws and after being set back
* `KeepsPlace` - a source that can be set back to every position that it has had
* `Xorshift.seeded` - the sources that the built-in generator starts from

## Main results

* `Xorshift.nextWord_ne_zero` - a word that is not zero is followed by one that is not
* `keepsPlace_xorshift`, `keepsPlace_script`, `keepsPlace_constant` - the built-in sources keep
  their place
-/

namespace IdleGame

open Relation (ReflTransGen)

/-- The source set back to a saved position, if there is one. -/
def RandomSource.resume {ρ : Type} [RandomSource ρ] (r : ρ) : Option UInt64 → ρ
  | some position => RandomSource.restore r position
  | none => r

variable {ρ : Type} [RandomSource ρ]

/-- A source after some draws, and after being set back to any positions. -/
def Follows : ρ → ρ → Prop :=
  ReflTransGen fun r r' =>
    r' = (RandomSource.next r).2 ∨ ∃ position, r' = RandomSource.restore r position

theorem Drawn.follows {r r' : ρ} (h : Drawn r r') : Follows r r' := by
  induction h with
  | refl => exact .refl
  | tail _ hnext ih => exact ih.tail (.inl hnext)

theorem follows_resume (r : ρ) (position : Option UInt64) :
    Follows r (RandomSource.resume r position) := by
  rcases position with _ | position
  · exact .refl
  · exact .single (.inr ⟨position, rfl⟩)

/-- A source that, set back to a position that it has had, stands there again. -/
def KeepsPlace (r₀ : ρ) : Prop :=
  ∀ r r', Follows r₀ r → Follows r r' →
    RandomSource.position? (RandomSource.resume r' (RandomSource.position? r)) =
      RandomSource.position? r

/-- What every draw and every setting back keeps is kept by what follows. -/
theorem Follows.preserve {motive : ρ → Prop} {r r' : ρ}
    (hnext : ∀ r, motive r → motive (RandomSource.next r).2)
    (hrestore : ∀ r position, motive r → motive (RandomSource.restore r position))
    (h : Follows r r') (hr : motive r) : motive r' := by
  induction h with
  | refl => exact hr
  | tail _ hstep ih =>
    rcases hstep with rfl | ⟨position, rfl⟩
    · exact hnext _ ih
    · exact hrestore _ position ih

section Words

variable {w : Nat} {x : BitVec w} {k : Nat}

/-- A word that a shift to the left maps to itself is zero: every bit stands for one further
down. -/
theorem eq_zero_of_shiftLeft_eq (hk : 0 < k) (h : x <<< k = x) : x = 0#w := by
  have hbit : ∀ i, x.getLsbD i = false := by
    intro i
    induction i using Nat.strongRecOn with
    | _ i ih =>
      rw [← h, BitVec.getLsbD_shiftLeft]
      by_cases hik : i < k
      · simp [hik]
      · simp [ih (i - k) (by omega)]
  exact BitVec.eq_of_getLsbD_eq fun i _ => by simpa using hbit i

/-- A word that a shift to the right maps to itself is zero: every bit stands for one further
up. -/
theorem eq_zero_of_ushiftRight_eq (hk : 0 < k) (h : x >>> k = x) : x = 0#w := by
  -- From the top bit down: `n` bounds how far below the width a bit is.
  have hbit : ∀ n i, w ≤ i + n → x.getLsbD i = false := by
    intro n
    induction n with
    | zero => exact fun i hi => BitVec.getLsbD_of_ge x i hi
    | succ n ih =>
      intro i hi
      rw [← h, BitVec.getLsbD_ushiftRight]
      exact ih (k + i) (by omega)
  exact BitVec.eq_of_getLsbD_eq fun i _ => by simpa using hbit w i (Nat.le_add_left _ _)

theorem xor_shiftLeft_ne_zero (hk : 0 < k) (h : x ≠ 0#w) : x ^^^ (x <<< k) ≠ 0#w := fun h' =>
  h (eq_zero_of_shiftLeft_eq hk (BitVec.xor_eq_zero_iff.mp h').symm)

theorem xor_ushiftRight_ne_zero (hk : 0 < k) (h : x ≠ 0#w) : x ^^^ (x >>> k) ≠ 0#w := fun h' =>
  h (eq_zero_of_ushiftRight_eq hk (BitVec.xor_eq_zero_iff.mp h').symm)

end Words

namespace Xorshift

/-- The sources that the built-in generator starts from. -/
def seeded : Set Xorshift := Set.range ofWord

theorem nextWord_toBitVec (g : Xorshift) :
    g.nextWord.toBitVec =
      let x := g.word.toBitVec ^^^ (g.word.toBitVec <<< 13)
      let y := x ^^^ (x >>> 7)
      y ^^^ (y <<< 17) := by
  simp [nextWord]

/-- A word that is not zero is followed by one that is not. -/
theorem nextWord_ne_zero {g : Xorshift} (h : g.word ≠ 0) : g.nextWord ≠ 0 := by
  have hword : g.word.toBitVec ≠ 0#64 := fun h' => h (UInt64.toBitVec_inj.mp h')
  intro h'
  -- Each of the three shifts keeps a word away from zero.
  refine xor_shiftLeft_ne_zero (k := 17) (by omega) (xor_ushiftRight_ne_zero (k := 7) (by omega)
    (xor_shiftLeft_ne_zero (k := 13) (by omega) hword)) ?_
  rw [← nextWord_toBitVec, h']
  rfl

theorem ofWord_word_ne_zero (word : UInt64) : (ofWord word).word ≠ 0 := by
  unfold ofWord
  split <;> simp_all

theorem ofWord_of_ne_zero {word : UInt64} (h : word ≠ 0) : ofWord word = ⟨word⟩ := by
  rw [ofWord, if_neg h]

/-- Whatever follows a generator whose word is not zero has such a word. -/
theorem word_ne_zero_of_follows {g g' : Xorshift} (h : Follows g g') (hg : g.word ≠ 0) :
    g'.word ≠ 0 :=
  h.preserve (motive := fun g => g.word ≠ 0) (fun _ => nextWord_ne_zero)
    (fun _ position _ => ofWord_word_ne_zero position) hg

/-- Set back to the position of another, a generator is that other. -/
theorem resume_position {g g' : Xorshift} (h : g.word ≠ 0) :
    RandomSource.resume g' (RandomSource.position? g) = g :=
  ofWord_of_ne_zero h

end Xorshift

/-- The built-in generator keeps its place, whatever it starts from. -/
theorem keepsPlace_xorshift (word : UInt64) : KeepsPlace (Xorshift.ofWord word) := by
  intro g g' hg _
  have hne := Xorshift.word_ne_zero_of_follows hg (Xorshift.ofWord_word_ne_zero word)
  rw [Xorshift.resume_position hne]

/-- A script keeps its place. -/
theorem keepsPlace_script (s : Script) : KeepsPlace s := by
  intro t t' _ _
  change some (UInt64.ofNat (UInt64.ofNat t.drawn).toNat) = some (UInt64.ofNat t.drawn)
  rw [UInt64.ofNat_toNat]

/-- A constant has no place to keep. -/
theorem keepsPlace_constant (x : Float) : KeepsPlace (Generator.constant x) := by
  intro g g' hg hg'
  have hconstant : ∀ {g g' : Generator}, Follows g g' → g = .constant x → g' = .constant x :=
    fun h => h.preserve (motive := fun g => g = .constant x) (by rintro _ rfl; rfl)
      (by rintro _ _ rfl; rfl)
  obtain rfl := hconstant hg rfl
  obtain rfl := hconstant hg' rfl
  rfl

end IdleGame
