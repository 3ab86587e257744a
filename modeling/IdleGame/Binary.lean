/-!
# Binary floating point numbers as integers

A finite 64-bit floating point number is `± significand · 2 ^ exponent` for integers
`significand < 2 ^ 53` and `exponent ≥ -1074`. Whatever has to be exact about a number (its
decimal text, its remainder under division) is computed here on that pair, in integer arithmetic.

## Main definitions

* `Binary` - the sign, significand and exponent of a finite number
* `Binary.ofFloat?` / `Binary.toFloat` - between numbers and such triples
* `remainder` - the remainder of a division that truncates towards zero
-/

namespace IdleGame

/-- The number `significand · 2 ^ exponent`, negated when `negative` holds. The sign is kept apart
so that both zeros can be told from each other. -/
structure Binary where
  negative : Bool
  significand : Nat
  exponent : Int
deriving DecidableEq, Repr

namespace Binary

/-- The number whose bit pattern is `word`; infinities and the non-numbers have none. -/
def ofBits? (word : UInt64) : Option Binary :=
  let negative := decide (Nat.pow 2 63 ≤ word.toNat)
  let biased : Nat := word.toNat / Nat.pow 2 52 % Nat.pow 2 11
  let fraction : Nat := word.toNat % Nat.pow 2 52
  if biased = 2047 then none
  else if biased = 0 then some ⟨negative, fraction, -1074⟩
  else some ⟨negative, Nat.pow 2 52 + fraction, (biased : Int) - 1075⟩

/-- The parts of a finite number. -/
def ofFloat? (x : Float) : Option Binary :=
  ofBits? x.toBits

/-- How far the significand is shifted left to make its top bit the hidden bit, as far as the
exponent allows. -/
def normalShift (b : Binary) : Nat :=
  min (52 - Nat.log2 b.significand) (b.exponent + 1074).toNat

/-- The bit pattern of `b`, for a significand below `2 ^ 53` and an exponent in range. -/
def toBits (b : Binary) : UInt64 :=
  let sign : Nat := if b.negative then Nat.pow 2 63 else 0
  let significand : Nat := b.significand * Nat.pow 2 b.normalShift
  let exponent : Int := b.exponent - b.normalShift
  if significand < Nat.pow 2 52 then
    UInt64.ofNat (sign + significand)
  else
    UInt64.ofNat (sign + (exponent + 1075).toNat * Nat.pow 2 52 + (significand - Nat.pow 2 52))

/-- The floating point number with these parts. -/
def toFloat (b : Binary) : Float :=
  if b.significand = 0 then (if b.negative then -0.0 else 0.0) else Float.ofBits b.toBits

/-- The significand of `b` over the smaller exponent `e ≤ b.exponent`. -/
def scaledTo (b : Binary) (e : Int) : Nat :=
  b.significand * Nat.pow 2 (b.exponent - e).toNat

/-- The remainder of `a` by `b`. Over the smaller of both exponents the two numbers are integers,
and the remainder of those is below `2 ^ 53` and has that exponent, so nothing is rounded. The
result has the sign of `a`. -/
def remainder (a b : Binary) : Binary :=
  let e := min a.exponent b.exponent
  ⟨a.negative, a.scaledTo e % b.scaledTo e, e⟩

end Binary

/-- The remainder of `x / y` with the quotient truncated towards zero: exact, and with the sign of
`x`. It is not a number when `x` is infinite, `y` is zero or either is not a number. -/
def remainder (x y : Float) : Float :=
  match Binary.ofFloat? x, Binary.ofFloat? y with
  | some a, some b => if b.significand = 0 then 0.0 / 0.0 else (a.remainder b).toFloat
  -- An infinite divisor goes into a finite number zero times.
  | some _, none => if y.isNaN then 0.0 / 0.0 else x
  | none, _ => 0.0 / 0.0

end IdleGame
