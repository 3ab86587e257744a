/-!
# Random sources

A game draws all its chance from one source of numbers in `[0, 1)`. A source is plain data: a draw
returns the number together with the source that stands one draw further on, so keeping the old
source keeps the old position.

## Main definitions

* `RandomSource` - what a source of random numbers offers
* `Xorshift` - the built-in generator, whose position is one nonzero word
* `Script` - a fixed list of numbers, repeated for ever
* `Generator` - one of the built-in generator, a script or a constant
-/

namespace IdleGame

/-- A source of random numbers. -/
class RandomSource (ρ : Type) where
  /-- The next number, and the source after drawing it. -/
  next : ρ → Float × ρ
  /-- The position of the source as one word, if it has one. -/
  position? : ρ → Option UInt64
  /-- The source at a position that `position?` gave. -/
  restore : ρ → UInt64 → ρ

/-- A generator of 64-bit words by three shifts. The word zero would stay zero for ever. -/
structure Xorshift where
  word : UInt64
deriving DecidableEq

namespace Xorshift

/-- The generator at a word, where zero stands for one. -/
def ofWord (word : UInt64) : Xorshift := ⟨if word = 0 then 1 else word⟩

/-- The next word of the sequence. -/
def nextWord (g : Xorshift) : UInt64 :=
  let x := g.word ^^^ (g.word <<< 13)
  let x := x ^^^ (x >>> 7)
  x ^^^ (x <<< 17)

/-- The generator one word further on. -/
def step (g : Xorshift) : Xorshift := ⟨g.nextWord⟩

/-- The upper 53 bits of a word as a fraction of `2 ^ 53`, so that the quotient is exact. -/
def fraction (word : UInt64) : Float := (word >>> 11).toFloat / 9007199254740992.0

instance : RandomSource Xorshift where
  next g := (fraction g.nextWord, g.step)
  position? g := some g.word
  restore _ word := ofWord word

end Xorshift

/-- Numbers to draw in order, over and over. -/
structure Script where
  numbers : List Float
  /-- How many numbers have been drawn. -/
  drawn : Nat
deriving DecidableEq

namespace Script

/-- The largest number that a script draws. -/
def largest : Float := 0.9999999999999998

/-- A number moved into `[0, 1)`; what is not a number stays as it is. -/
def confine (x : Float) : Float :=
  if x < 0.0 then 0.0 else if largest < x then largest else x

/-- The number at the current position; an empty script draws zero and stays where it is. -/
def next (s : Script) : Float × Script :=
  -- Without numbers the remainder is the count itself, and there is nothing to find there.
  match s.numbers[s.drawn % s.numbers.length]? with
  | some x => (confine x, { s with drawn := s.drawn + 1 })
  | none => (0.0, s)

instance : RandomSource Script where
  next := Script.next
  position? s := some (UInt64.ofNat s.drawn)
  restore s word := { s with drawn := word.toNat }

end Script

/-- The sources that a game can be given. -/
inductive Generator where
  | xorshift (g : Xorshift)
  | script (s : Script)
  /-- Draws one number for ever and has no position to restore. -/
  | constant (x : Float)
deriving DecidableEq

namespace Generator

/-- The built-in generator for a seed. -/
def ofSeed (seed : UInt64) : Generator := .xorshift (.ofWord seed)

instance : RandomSource Generator where
  next
    | .xorshift g => let (x, g) := RandomSource.next g; (x, .xorshift g)
    | .script s => let (x, s) := RandomSource.next s; (x, .script s)
    | .constant x => (x, .constant x)
  position?
    | .xorshift g => RandomSource.position? g
    | .script s => RandomSource.position? s
    | .constant _ => none
  restore
    | .xorshift g, word => .xorshift (RandomSource.restore g word)
    | .script s, word => .script (RandomSource.restore s word)
    | .constant x, _ => .constant x

end Generator

end IdleGame
