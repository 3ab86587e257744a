import IdleGame.Proofs.Float.Exact
import IdleGame.Proofs.Random

/-!
# The sequence of the built-in generator

Each of the three shifts of the built-in generator can be undone, so a step can be, and different
words are never followed by the same one. There are only finitely many words: the sequence comes
back to the word that it started from.

A program may hold several generators, draw from them in any order, copy them and set them back to
any word. The numbers that one of them draws from then on only depend on the word that it was
copied from or set back to.

## Main definitions

* `RandomSource.numbers` - the numbers that a source draws one after the other
* `Handling`, `Handling.applyAll` - what is done with generators
* `Handling.drawn` - the numbers that one of them draws meanwhile

## Main results

* `Xorshift.bijOn_nextWord` - steps permute the words that are not zero
* `Xorshift.exists_period` - every sequence comes back to its start
* `Xorshift.denotes_fraction` - every number drawn is a whole number over `2 ^ 53`
* `Handling.drawn_eq_numbers` - a generator draws its own numbers, whatever is done with the others
* `Handling.generators_resume_exactly` - all of this together
-/

namespace IdleGame

/-- The first numbers that a source draws. -/
def RandomSource.numbers {ρ : Type} [RandomSource ρ] : Nat → ρ → List Float
  | 0, _ => []
  | n + 1, r => (RandomSource.next r).1 :: numbers n (RandomSource.next r).2

section Words

variable {w k : Nat} {f : BitVec w → BitVec w}

/-- Words that get added what they are mapped to stay apart, if no word but zero is mapped to
itself. -/
theorem xor_injective (hxor : ∀ x y, f (x ^^^ y) = f x ^^^ f y) (hfixed : ∀ x, f x = x → x = 0#w) :
    Function.Injective fun x => x ^^^ f x := by
  intro x y h
  have hsum : f (x ^^^ y) = x ^^^ y := by
    calc f (x ^^^ y) = x ^^^ (x ^^^ f x) ^^^ f y := by
          rw [hxor, ← BitVec.xor_assoc x x, BitVec.xor_self, BitVec.zero_xor]
      _ = x ^^^ (y ^^^ f y) ^^^ f y := by
          rw [show x ^^^ f x = y ^^^ f y from h]
      _ = x ^^^ y := by
          rw [BitVec.xor_assoc, BitVec.xor_assoc, BitVec.xor_self, BitVec.xor_zero]
  exact BitVec.xor_eq_zero_iff.mp (hfixed _ hsum)

theorem xor_shiftLeft_injective (hk : 0 < k) :
    Function.Injective fun x : BitVec w => x ^^^ (x <<< k) :=
  xor_injective (fun x y => BitVec.shiftLeft_xor_distrib x y k) fun _ => eq_zero_of_shiftLeft_eq hk

theorem xor_ushiftRight_injective (hk : 0 < k) :
    Function.Injective fun x : BitVec w => x ^^^ (x >>> k) :=
  xor_injective (fun x y => BitVec.ushiftRight_xor_distrib x y k) fun _ =>
    eq_zero_of_ushiftRight_eq hk

end Words

namespace Xorshift

open Function (Injective)

/-- Different words are followed by different ones. -/
theorem nextWord_injective : Injective nextWord := by
  intro g g' h
  have hwords := congrArg UInt64.toBitVec h
  rw [nextWord_toBitVec, nextWord_toBitVec] at hwords
  -- The shifts are undone from the last one to the first.
  have hfirst := xor_shiftLeft_injective (k := 13) (by omega)
    (xor_ushiftRight_injective (k := 7) (by omega)
      (xor_shiftLeft_injective (k := 17) (by omega) hwords))
  obtain ⟨word⟩ := g
  obtain ⟨word'⟩ := g'
  exact congrArg mk (UInt64.toBitVec_inj.mp hfirst)

theorem word_injective : Injective word := by
  rintro ⟨word⟩ ⟨word'⟩ rfl
  rfl

instance : Finite Xorshift := Finite.of_injective word word_injective

theorem step_injective : Injective step := fun _ _ h => nextWord_injective (congrArg word h)

/-- Steps permute the words that are not zero. -/
theorem bijOn_nextWord :
    Set.BijOn (fun word => nextWord ⟨word⟩) {word | word ≠ 0} {word | word ≠ 0} := by
  have hmaps : Set.MapsTo (fun word => nextWord ⟨word⟩) {word | word ≠ 0} {word | word ≠ 0} :=
    fun word hword => nextWord_ne_zero hword
  -- There are only finitely many words, so it is enough that none is reached from two others.
  refine ((Set.toFinite _).injOn_iff_bijOn_of_mapsTo hmaps).mp ?_
  intro word _ word' _ h
  exact congrArg Xorshift.word (nextWord_injective h)

/-- The sequence that begins at a word comes back to it, and then goes on as before. -/
theorem exists_period (g : Xorshift) : ∃ n, 0 < n ∧ ∀ m, step^[m + n] g = step^[m] g := by
  obtain ⟨n, hn, hperiod⟩ := step_injective.mem_periodicPts g
  refine ⟨n, hn, fun m => ?_⟩
  rw [Function.iterate_add_apply, hperiod]

/-- A number that is drawn consists of the upper 53 bits of a word. -/
theorem denotes_fraction (word : UInt64) :
    Denotes (fraction word) ((word >>> 11).toNat / 2 ^ 53) ∧ (word >>> 11).toNat < 2 ^ 53 := by
  have hlt : (word >>> 11).toNat < 2 ^ 53 := by
    have hword := word.toNat_lt
    rw [UInt64.toNat_shiftRight, Nat.shiftRight_eq_div_pow]
    exact (Nat.div_lt_iff_lt_mul (Nat.two_pow_pos _)).mpr hword
  exact ⟨denotes_toFloat_div hlt, hlt⟩

end Xorshift

/-- What a program does with the generators that it holds and calls by number. -/
inductive Handling where
  | draw (i : Nat)
  /-- Puts a copy of a generator behind the others. -/
  | fork (i : Nat)
  | restore (i : Nat) (word : UInt64)
deriving DecidableEq

namespace Handling

open Xorshift (step)

theorem exists_of_mem_modify {ρ : Type} {rs : List ρ} {i : Nat} {f : ρ → ρ} {r' : ρ}
    (h : r' ∈ rs.modify i f) :
    ∃ r ∈ rs, r' = r ∨ r' = f r := by
  obtain ⟨j, hj⟩ := List.mem_iff_getElem?.mp h
  rw [List.getElem?_modify] at hj
  obtain ⟨r, hr, rfl⟩ := Option.map_eq_some_iff.mp hj
  refine ⟨r, List.mem_of_getElem? hr, ?_⟩
  split
  · exact .inr rfl
  · exact .inl rfl

section Sources

variable {ρ : Type} [RandomSource ρ]

/-- The sources after one of them has been handled. -/
def apply : Handling → List ρ → List ρ
  | .draw i, rs => rs.modify i fun r => (RandomSource.next r).2
  | .fork i, rs => rs ++ rs[i]?.toList
  | .restore i word, rs => rs.modify i (RandomSource.restore · word)

/-- The sources after all that is done with them. -/
def applyAll (hs : List Handling) (rs : List ρ) : List ρ := hs.foldl (fun rs h => h.apply rs) rs

/-- The number that the source with number `j` draws when one of them is handled. -/
def number? (j : Nat) : Handling → List ρ → Option Float
  | .draw i, rs => if i = j then rs[j]?.map fun r => (RandomSource.next r).1 else none
  | .fork _, _ | .restore _ _, _ => none

/-- The numbers that the source with number `j` draws in the course of all that is done with the
sources. -/
def drawn (j : Nat) : List Handling → List ρ → List Float
  | [], _ => []
  | h :: hs, rs => (h.number? j rs).toList ++ drawn j hs (h.apply rs)

variable {rs : List ρ} {r : ρ} {h : Handling} {hs : List Handling} {i j : Nat} {word : UInt64}

theorem getElem?_draw_self (hr : rs[j]? = some r) :
    ((draw j).apply rs)[j]? = some (RandomSource.next r).2 := by
  rw [apply, List.getElem?_modify, hr]
  simp

theorem getElem?_restore_self (hr : rs[j]? = some r) :
    ((restore j word).apply rs)[j]? = some (RandomSource.restore r word) := by
  rw [apply, List.getElem?_modify, hr]
  simp

theorem getElem?_fork (hr : rs[j]? = some r) : ((fork i).apply rs)[j]? = some r := by
  rw [apply, List.getElem?_append_left (List.getElem?_eq_some_iff.mp hr).1, hr]

/-- A copy stands where the one that was copied stands. -/
theorem getElem?_fork_length (hr : rs[i]? = some r) :
    ((fork i).apply rs)[rs.length]? = some r := by
  rw [apply, hr, List.getElem?_append_right (Nat.le_refl _)]
  simp

/-- A source that is not set back stays where it is, but for its own draws. -/
theorem getElem?_apply_of_ne (hdraw : h ≠ draw j) (hrestore : ∀ word, h ≠ restore j word)
    (hr : rs[j]? = some r) : (h.apply rs)[j]? = some r := by
  cases h with
  | draw i =>
    have hne : i ≠ j := fun heq => hdraw (congrArg draw heq)
    rw [apply, List.getElem?_modify, hr]
    simp [hne]
  | fork i => exact getElem?_fork hr
  | restore i word =>
    have hne : i ≠ j := fun heq => hrestore word (congrArg (restore · word) heq)
    rw [apply, List.getElem?_modify, hr]
    simp [hne]

theorem number?_of_ne (hdraw : h ≠ draw j) : h.number? j rs = none := by
  cases h with
  | draw i => exact if_neg fun heq => hdraw (congrArg draw heq)
  | fork i => rfl
  | restore i word => rfl

/-- A source that is not set back draws its own numbers, one for each of its draws, whatever is done
with the others in between. -/
theorem drawn_eq_numbers (hrestore : ∀ word, restore j word ∉ hs) (hr : rs[j]? = some r) :
    drawn j hs rs = RandomSource.numbers (hs.count (draw j)) r := by
  induction hs generalizing rs r with
  | nil => rfl
  | cons h hs ih =>
    have hlater : ∀ word, restore j word ∉ hs := fun word hmem =>
      hrestore word (List.mem_cons_of_mem h hmem)
    rw [drawn]
    by_cases hdraw : h = draw j
    · subst hdraw
      have hnumber : (draw j).number? j rs = some (RandomSource.next r).1 := by
        rw [number?, if_pos rfl, hr, Option.map_some]
      rw [hnumber, ih hlater (getElem?_draw_self hr), List.count_cons_self]
      rfl
    · have hset : ∀ word, h ≠ restore j word := by
        rintro word rfl
        exact hrestore word List.mem_cons_self
      rw [number?_of_ne hdraw, ih hlater (getElem?_apply_of_ne hdraw hset hr),
        List.count_cons_of_ne hdraw]
      rfl

/-- A source that is there after all that is done follows one that was there before. -/
theorem exists_follows_of_mem_apply {r' : ρ} (hr' : r' ∈ h.apply rs) : ∃ r ∈ rs, Follows r r' := by
  cases h with
  | draw i =>
    obtain ⟨r, hr, rfl | rfl⟩ := exists_of_mem_modify hr'
    · exact ⟨r', hr, .refl⟩
    · exact ⟨r, hr, .single (.inl rfl)⟩
  | fork i =>
    rcases List.mem_append.mp hr' with hr' | hr'
    · exact ⟨r', hr', .refl⟩
    · exact ⟨r', List.mem_of_getElem? (Option.mem_toList.mp hr'), .refl⟩
  | restore i word =>
    obtain ⟨r, hr, rfl | rfl⟩ := exists_of_mem_modify hr'
    · exact ⟨r', hr, .refl⟩
    · exact ⟨r, hr, .single (.inr ⟨word, rfl⟩)⟩

theorem exists_follows_of_mem_applyAll {r' : ρ} (hr' : r' ∈ applyAll hs rs) :
    ∃ r ∈ rs, Follows r r' := by
  induction hs generalizing rs with
  | nil => exact ⟨r', hr', .refl⟩
  | cons h hs ih =>
    obtain ⟨r, hr, hfollows⟩ := ih hr'
    obtain ⟨r₀, hr₀, hfirst⟩ := exists_follows_of_mem_apply hr
    exact ⟨r₀, hr₀, hfirst.trans hfollows⟩

end Sources

variable {gs : List Xorshift} {g : Xorshift} {hs between later : List Handling}
  {seeds : List UInt64} {i j : Nat} {word : UInt64}

theorem word_ne_zero_of_mem (h : g ∈ applyAll hs (seeds.map Xorshift.ofWord)) : g.word ≠ 0 := by
  obtain ⟨g₀, hg₀, hfollows⟩ := exists_follows_of_mem_applyAll h
  obtain ⟨seed, -, rfl⟩ := List.mem_map.mp hg₀
  exact Xorshift.word_ne_zero_of_follows hfollows (Xorshift.ofWord_word_ne_zero seed)

/-- Whichever generator is set back to where another one stood draws the numbers of that one. -/
theorem drawn_of_restore (hg : g.word ≠ 0) (hposition : RandomSource.position? g = some word)
    (hj : j < gs.length) (hlater : ∀ word, restore j word ∉ later) :
    drawn j later ((restore j word).apply gs) =
      RandomSource.numbers (later.count (draw j)) g := by
  have hword : RandomSource.restore gs[j] word = g := by
    have hresume : RandomSource.resume gs[j] (RandomSource.position? g) = g :=
      Xorshift.resume_position hg
    rwa [hposition] at hresume
  have hset : ((restore j word).apply gs)[j]? = some g := by
    rw [getElem?_restore_self (List.getElem?_eq_getElem hj), hword]
  exact drawn_eq_numbers hlater hset

/-- Of generators that begin at any seeds, and are drawn from, copied and set back to any words in
any order, none ever stands at zero. Steps permute the words that are not zero; so no two of them
meet, and every sequence is periodic from its start. Every number drawn is a whole number below
`2 ^ 53` over `2 ^ 53`. A copy and the one it was copied from both draw the numbers that the latter
would have drawn, whatever is done with the other; and so does every generator that is set back to
where that one stood. -/
theorem generators_resume_exactly (seeds : List UInt64) (hs : List Handling) :
    let gs := applyAll hs (seeds.map Xorshift.ofWord)
    (∀ g ∈ gs, g.word ≠ 0) ∧
      Set.BijOn (fun word => Xorshift.nextWord ⟨word⟩) {word | word ≠ 0} {word | word ≠ 0} ∧
      (∀ g g' n, g ≠ g' → step^[n] g ≠ step^[n] g') ∧
      (∀ g, ∃ n, 0 < n ∧ ∀ m, step^[m + n] g = step^[m] g) ∧
      (∀ g : Xorshift, ∃ k < 2 ^ 53, Denotes (RandomSource.next g).1 ((k : Nat) / 2 ^ 53)) ∧
      (∀ i g, gs[i]? = some g → ∀ j ∈ [i, gs.length], ∀ later, (∀ word, restore j word ∉ later) →
        drawn j later ((fork i).apply gs) = RandomSource.numbers (later.count (draw j)) g) ∧
      ∀ (i : Nat) (g : Xorshift), gs[i]? = some g →
        ∃ word, RandomSource.position? g = some word ∧ ∀ between j,
          j < (applyAll between gs).length → ∀ later, (∀ word, restore j word ∉ later) →
            drawn j later ((restore j word).apply (applyAll between gs)) =
              RandomSource.numbers (later.count (draw j)) g := by
  intro gs
  refine ⟨fun g hg => word_ne_zero_of_mem hg, Xorshift.bijOn_nextWord, ?_, Xorshift.exists_period,
    ?_, ?_, ?_⟩
  · intro g g' n hne heq
    exact hne (Xorshift.step_injective.iterate n heq)
  · intro g
    obtain ⟨hdenotes, hlt⟩ := Xorshift.denotes_fraction g.nextWord
    exact ⟨_, hlt, hdenotes⟩
  · intro i g hi j hj later hlater
    refine drawn_eq_numbers hlater ?_
    rcases List.mem_pair.mp hj with rfl | rfl
    · exact getElem?_fork hi
    · exact getElem?_fork_length hi
  · intro i g hi
    have hmem : g ∈ gs := List.mem_of_getElem? hi
    have hposition : RandomSource.position? g = some g.word := rfl
    refine ⟨g.word, hposition, fun between j hj later hlater => ?_⟩
    exact drawn_of_restore (word_ne_zero_of_mem hmem) hposition hj hlater

/-- Of two generators the second is drawn from, and then the first is set back to where it stands.
The two draws of the first that follow are what the second would have drawn, although it is drawn
from in between. -/
theorem pair_resumes_exactly :
    ∃ g word, (applyAll [draw 1] ([0, 7].map Xorshift.ofWord))[1]? = some g ∧
      RandomSource.position? g = some word ∧
      drawn 0 [draw 0, draw 1, draw 0]
          ((restore 0 word).apply (applyAll [draw 1] ([0, 7].map Xorshift.ofWord))) =
        RandomSource.numbers 2 g := by
  obtain ⟨-, -, -, -, -, -, hrestored⟩ := generators_resume_exactly [0, 7] [draw 1]
  obtain ⟨word, hposition, hdrawn⟩ := hrestored 1 _ rfl
  exact ⟨_, word, rfl, hposition, hdrawn [] 0 (by decide) [draw 0, draw 1, draw 0] (by simp)⟩

end Handling

end IdleGame
