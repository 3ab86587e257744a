import IdleGame.Decimal

/-!
# The shortest decimal that reads back

Among the decimals that round to a given floating point number there are some with the fewest
digits, and among those one is nearest to the number. The numbers that round to `m · 2 ^ e` form an
interval around it, which reaches half way to each neighbour and contains its ends exactly when `m`
is even. A decimal with the fewest digits is a multiple of the largest power of ten that has a
multiple in the interval; and if a power of ten has one there, so does one of the two neighbours of
the number on that grid.
-/

namespace IdleGame

namespace Binary

/-- Four times the significand, so that the ends of the rounding interval are integers too. -/
def center (b : Binary) : Nat := 4 * b.significand

/-- The lower end of the rounding interval in units of `2 ^ (exponent - 2)`. Below a power of two
the numbers stand twice as dense. -/
def lowerEnd (b : Binary) : Nat :=
  if b.significand = Nat.pow 2 52 then b.center - 1 else b.center - 2

/-- The upper end of the rounding interval in the same units. -/
def upperEnd (b : Binary) : Nat := b.center + 2

/-- The factor that turns units of `2 ^ (exponent - 2)` into the common unit of the interval and
the grid of multiples of `10 ^ k`. -/
def unitFactor (b : Binary) (k : Int) : Nat :=
  Nat.pow 2 (b.exponent - 2).toNat * Nat.pow 10 (-k).toNat

/-- The step of the grid of multiples of `10 ^ k` in that common unit. -/
def gridStep (b : Binary) (k : Int) : Nat :=
  Nat.pow 2 (2 - b.exponent).toNat * Nat.pow 10 k.toNat

/-- Whether `c · 10 ^ k` rounds to `b`. -/
def admits (b : Binary) (k : Int) (c : Nat) : Bool :=
  let point := c * b.gridStep k
  let low := b.lowerEnd * b.unitFactor k
  let high := b.upperEnd * b.unitFactor k
  if b.significand % 2 = 0 then decide (low ≤ point ∧ point ≤ high)
  else decide (low < point ∧ point < high)

/-- The neighbour of `b` on the grid of multiples of `10 ^ k` that rounds to `b`; the nearer one
if both do, and the larger one if they are equally near. -/
def onGrid? (b : Binary) (k : Int) : Option Nat :=
  let value := b.center * b.unitFactor k
  let step := b.gridStep k
  let below := value / step
  let above := below + 1
  -- Every other point of the grid lies further away on the side of one of these two.
  if b.admits k below then
    if b.admits k above ∧ above * step - value ≤ value - below * step then some above
    else some below
  else if b.admits k above then some above
  else none

/-- Tries the grids of `10 ^ k`, `10 ^ (k - 1)`, … and takes the first that has a hit. -/
def firstGrid (b : Binary) : Nat → Int → Decimal
  | 0, _ => ⟨b.negative, 0, 0⟩
  | n + 1, k =>
    match b.onGrid? k with
    | some c => ⟨b.negative, c, k⟩
    | none => firstGrid b n (k - 1)

/-- A power of ten above every number of the interval, but by little. -/
def topExponent (b : Binary) : Int :=
  -- The factor is a little more than the logarithm of two to the base ten.
  ((Nat.log2 b.significand : Int) + b.exponent) * 30103 / 100000 + 2

/-- The shortest decimal that rounds to `b`, the nearest of these to `b`. Seventeen digits always
suffice, so the search is over after twenty-one grids. -/
def shortest (b : Binary) : Decimal :=
  if b.significand = 0 then ⟨b.negative, 0, 0⟩ else b.firstGrid 21 b.topExponent

end Binary

end IdleGame
