import IdleGame.Binary

/-!
# Decimal numbers

A decimal number is `± coefficient · 10 ^ exponent`. This is what numerals in text denote, and what
a floating point number is turned into before it is written.

## Main definitions

* `Decimal` - sign, coefficient and exponent
* `Decimal.toFloat` - the nearest floating point number
* `Decimal.read?` - the decimal that a plain numeral such as `-12.5e3` denotes
* `readFloat?` - the number that such a numeral, `inf`, `infinity` or `nan` denotes
-/

namespace IdleGame

/-- The number `coefficient · 10 ^ exponent`, negated when `negative` holds. -/
structure Decimal where
  negative : Bool
  coefficient : Nat
  exponent : Int
deriving DecidableEq, Repr

namespace Decimal

/-- A power of ten not far from the size of a nonzero decimal, found without long arithmetic. -/
def magnitude (d : Decimal) : Int :=
  (Nat.log2 d.coefficient * 30103 / 100000 : Nat) + d.exponent

/-- The floating point number nearest to `d`; a tie goes to the even significand. Numbers far
outside the range need no rounding: they are infinite or zero. -/
def toFloat (d : Decimal) : Float :=
  let size :=
    if d.coefficient = 0 then 0.0
    else if 400 < d.magnitude then 1.0 / 0.0
    else if d.magnitude < -400 then 0.0
    -- Here the powers of ten are small enough to be computed.
    else Float.ofScientific d.coefficient (decide (d.exponent < 0)) d.exponent.natAbs
  if d.negative then -size else size

/-- The value of a digit of a base up to sixteen. -/
def digitValue? (c : Char) : Option Nat :=
  if '0' ≤ c ∧ c ≤ '9' then some (c.toNat - '0'.toNat)
  else if 'a' ≤ c ∧ c ≤ 'f' then some (c.toNat - 'a'.toNat + 10)
  else if 'A' ≤ c ∧ c ≤ 'F' then some (c.toNat - 'A'.toNat + 10)
  else none

/-- The number that a row of digits denotes in `base`, or `none` at a character that is no digit
of that base. -/
def ofDigits? (base : Nat) (digits : List Char) : Option Nat :=
  digits.foldlM (fun acc c => do
    let v ← digitValue? c
    if v < base then some (acc * base + v) else none) 0

/-- A sign that may stand in front of a numeral, and what follows it. -/
def splitSign : List Char → Bool × List Char
  | '-' :: rest => (true, rest)
  | '+' :: rest => (false, rest)
  | cs => (false, cs)

/-- The exponent that a numeral ends with: nothing, or a mark, a sign that may be missing and at
least one digit. -/
def readExponent? : List Char → Option Int
  | [] => some 0
  | mark :: rest =>
    let (negative, digits) := splitSign rest
    if (mark = 'e' ∨ mark = 'E') ∧ digits ≠ [] then
      (ofDigits? 10 digits).map fun n => if negative then -(n : Int) else n
    else none

/-- The decimal that a numeral denotes: a sign that may be missing, digits with at most one point
and at least one digit, and an exponent that may be missing. -/
def read? (text : List Char) : Option Decimal := do
  let (negative, body) := splitSign text
  let whole := body.takeWhile Char.isDigit
  let afterWhole := body.dropWhile Char.isDigit
  let (places, tail) := match afterWhole with
    | '.' :: r => (r.takeWhile Char.isDigit, r.dropWhile Char.isDigit)
    | r => ([], r)
  if whole ++ places = [] then none
  else
    let coefficient ← ofDigits? 10 (whole ++ places)
    let exponent ← readExponent? tail
    some ⟨negative, coefficient, exponent - places.length⟩

end Decimal

/-- The number that a text denotes: a plain numeral, or one of the words `inf`, `infinity` and
`nan` in any case of ASCII letters, with a sign that may be missing. -/
def readFloat? (text : List Char) : Option Float :=
  match Decimal.read? text with
  | some d => some d.toFloat
  | none =>
    let (negative, word) := Decimal.splitSign text
    let word := String.ofList (word.map Char.toLower)
    if word = "inf" ∨ word = "infinity" then some (if negative then -1.0 / 0.0 else 1.0 / 0.0)
    else if word = "nan" then some (0.0 / 0.0)
    else none

end IdleGame
