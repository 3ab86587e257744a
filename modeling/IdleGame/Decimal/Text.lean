import IdleGame.Decimal.Shortest

/-!
# Numbers as text

Two ways of writing a floating point number: with the fewest digits that read back, laid out as a
`Layout` says, or with a fixed number of places.

## Main definitions

* `Layout` - where positional notation ends and how many places it has at least
* `Float.text` in the form `Layout.write` - the shortest text in a layout
* `writeFixed` - the exact value rounded to a number of places
-/

namespace IdleGame

/-- The decimal digits of a natural number. -/
def digitsOf (n : Nat) : List Char := Nat.toDigits 10 n

/-- How numbers are laid out. The position of the leading digit is the power of ten it counts. -/
structure Layout where
  /-- Numbers with the leading digit below this position are written with an exponent. -/
  lowest : Option Int
  /-- Numbers with the leading digit above this position are written with an exponent. -/
  highest : Option Int
  /-- Positional numbers have at least this many places. -/
  leastPlaces : Nat

namespace Layout

/-- For players: positional throughout, and no places where none are needed. -/
def plain : Layout := ⟨none, none, 0⟩

/-- For data: positional from `0.0001` to below `10 ^ 16`, and always with a place, so that the
text shows a fractional number. -/
def data : Layout := ⟨some (-4), some 15, 1⟩

end Layout

namespace Decimal

/-- The digits of the coefficient. -/
def digits (d : Decimal) : List Char := digitsOf d.coefficient

/-- The position of the leading digit. -/
def leading (d : Decimal) : Int := d.digits.length - 1 + d.exponent

/-- A decimal point between the digits, with at least `places` places. -/
def positional (places : Nat) (d : Decimal) : List Char :=
  let below := (-d.exponent).toNat
  -- Enough zeros in front for at least one digit before the point.
  let padded := List.replicate (below + 1 - d.digits.length) '0' ++ d.digits
    ++ List.replicate d.exponent.toNat '0'
  let whole := padded.take (padded.length - below)
  let fraction := padded.drop (padded.length - below)
  let fraction := fraction ++ List.replicate (places - fraction.length) '0'
  if fraction.isEmpty then whole else whole ++ '.' :: fraction

/-- One digit before the point, and the position of that digit as an exponent. -/
def scientific (d : Decimal) : List Char :=
  let mantissa := match d.digits with
    | [] => []
    | [c] => [c]
    | c :: rest => c :: '.' :: rest
  let exponent := if d.leading < 0 then '-' :: digitsOf d.leading.natAbs
    else digitsOf d.leading.natAbs
  mantissa ++ 'e' :: exponent

/-- Whether a layout writes `d` positionally; zero always is. -/
def isPositional (layout : Layout) (d : Decimal) : Bool :=
  d.coefficient = 0 ||
    (layout.lowest.all (decide <| · ≤ d.leading) && layout.highest.all (decide <| d.leading ≤ ·))

/-- The text of `d` in a layout. -/
def write (layout : Layout) (d : Decimal) : List Char :=
  let unsigned := if d.isPositional layout then d.positional layout.leastPlaces else d.scientific
  if d.negative then '-' :: unsigned else unsigned

end Decimal

/-- The texts of numbers that have no digits. -/
def writeSpecial (x : Float) : List Char :=
  if x.isNaN then "NaN".toList else if x < 0.0 then "-inf".toList else "inf".toList

/-- The text of a number in a layout, with the fewest digits that read back. -/
def Layout.write (layout : Layout) (x : Float) : String :=
  String.ofList <| match Binary.ofFloat? x with
    | some b => b.shortest.write layout
    | none => writeSpecial x

/-- The integer nearest to `num / den`; a tie goes to the even one. -/
def roundHalfEven (num den : Nat) : Nat :=
  let quotient := num / den
  let rest := 2 * (num % den)
  if den < rest ∨ (rest = den ∧ quotient % 2 = 1) then quotient + 1 else quotient

/-- The value of `b` rounded to a multiple of `10 ^ -places`, a tie going to the even one. -/
def Binary.rounded (places : Nat) (b : Binary) : Decimal :=
  let num := b.significand * Nat.pow 2 b.exponent.toNat * Nat.pow 10 places
  ⟨b.negative, roundHalfEven num (Nat.pow 2 (-b.exponent).toNat), -places⟩

/-- The text of a number with exactly `places` places. -/
def writeFixed (places : Nat) (x : Float) : String :=
  String.ofList <| match Binary.ofFloat? x with
    | some b => (b.rounded places).write { Layout.plain with leastPlaces := places }
    | none => writeSpecial x

end IdleGame
