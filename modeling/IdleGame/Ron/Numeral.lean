import IdleGame.Decimal
import IdleGame.Ron

/-!
# Numerals of RON

A numeral is an integer, in one of four bases and perhaps with the name of its type behind it, or a
decimal number. An underscore may stand between digits.

## Main definitions

* `Ron.Integer` - what an integer numeral says
* `Ron.integer?`, `Ron.decimal?` - the readings of a numeral
* `Ron.natural?`, `Ron.number?` - a numeral as a natural number of some width and as any number
-/

namespace IdleGame.Ron

/-- The type that is named behind an integer. -/
structure IntegerType where
  signed : Bool
  bits : Nat
deriving DecidableEq, Repr

/-- What an integer numeral says. -/
structure Integer where
  negative : Bool
  magnitude : Nat
  type : Option IntegerType
deriving DecidableEq, Repr

namespace IntegerType

/-- Whether an integer of a type can have this sign and magnitude. -/
def holds (t : IntegerType) (negative : Bool) (magnitude : Nat) : Bool :=
  if t.signed then
    if negative then magnitude ≤ Nat.pow 2 (t.bits - 1) else magnitude < Nat.pow 2 (t.bits - 1)
  else if negative then magnitude = 0 else magnitude < Nat.pow 2 t.bits

/-- The type with a name. -/
def ofName? : List Char → Option IntegerType
  | ['i', '8'] => some ⟨true, 8⟩
  | ['i', '1', '6'] => some ⟨true, 16⟩
  | ['i', '3', '2'] => some ⟨true, 32⟩
  | ['i', '6', '4'] => some ⟨true, 64⟩
  | ['u', '8'] => some ⟨false, 8⟩
  | ['u', '1', '6'] => some ⟨false, 16⟩
  | ['u', '3', '2'] => some ⟨false, 32⟩
  | ['u', '6', '4'] => some ⟨false, 64⟩
  | _ => none

end IntegerType

/-- The base that a numeral announces, and what follows. -/
def splitBase : List Char → Nat × List Char
  | '0' :: 'b' :: rest => (2, rest)
  | '0' :: 'o' :: rest => (8, rest)
  | '0' :: 'x' :: rest => (16, rest)
  | cs => (10, cs)

/-- Whether a character can stand among the digits of an integer. -/
def isIntegerDigit (c : Char) : Bool := (Decimal.digitValue? c).isSome || c = '_'

/-- The number that digits denote. An underscore may not stand before them. -/
def magnitude? (base : Nat) (digits : List Char) : Option Nat :=
  if digits = [] ∨ digits.head? = some '_' then none
  else Decimal.ofDigits? base (digits.filter (· ≠ '_'))

/-- The integer that a numeral denotes. -/
def integer? (lexeme : List Char) : Option Integer := do
  let (negative, body) := Decimal.splitSign lexeme
  let (base, body) := splitBase body
  let magnitude ← magnitude? base (body.takeWhile isIntegerDigit)
  match body.dropWhile isIntegerDigit with
  | [] => some ⟨negative, magnitude, none⟩
  | suffix => do some ⟨negative, magnitude, some (← IntegerType.ofName? suffix)⟩

/-- Drops underscores that stand behind a digit or an exponent mark; others are refused. `allowed`
tells whether one may stand here. -/
def dropUnderscores? : Bool → List Char → Option (List Char)
  | _, [] => some []
  | allowed, c :: rest =>
    -- Underscores in a row are allowed where one is.
    if c = '_' then if allowed then dropUnderscores? allowed rest else none
    else
      let allowed :=
        if c.isDigit || c = 'e' || c = 'E' then true else if c = '.' then false else allowed
      (dropUnderscores? allowed rest).map (c :: ·)

/-- How a decimal number is kept. -/
inductive Precision where
  | single
  | double
deriving DecidableEq, Repr

/-- The precision that is named behind a number, and the number before. -/
def splitPrecision (lexeme : List Char) : List Char × Option Precision :=
  match lexeme.reverse with
  | '2' :: '3' :: 'f' :: rest => (rest.reverse, some .single)
  | '4' :: '6' :: 'f' :: rest => (rest.reverse, some .double)
  | _ => (lexeme, none)

/-- The single precision number nearest to a decimal, as a number. -/
def toSingle (d : Decimal) : Float :=
  let size :=
    if d.coefficient = 0 then 0.0
    else if 60 < d.magnitude then 1.0 / 0.0
    else if d.magnitude < -60 then 0.0
    else (Float32.ofScientific d.coefficient (decide (d.exponent < 0)) d.exponent.natAbs).toFloat
  if d.negative then -size else size

/-- A number without digits: infinite, or not a number. -/
def special? (word : List Char) : Option Float :=
  let (negative, word) := Decimal.splitSign word
  if word = ['i', 'n', 'f'] then some (if negative then -1.0 / 0.0 else 1.0 / 0.0)
  else if word = ['N', 'a', 'N'] then some (0.0 / 0.0)
  else none

/-- Whether a name is that of a number without digits. -/
def Name.isSpecial (n : Name) : Bool :=
  !n.raw && (special? (splitPrecision n.text.toList).1).isSome

/-- The number that a decimal numeral or a word denotes, and the precision that it names. -/
def decimal? (lexeme : List Char) : Option (Float × Option Precision) := do
  let (body, precision) := splitPrecision lexeme
  match special? body with
  | some x => some (x, precision)
  | none =>
    let d ← Decimal.read? (← dropUnderscores? false body)
    some (if precision = some .single then toSingle d else d.toFloat, precision)

/-- A numeral as a natural number of some width. A named type has to be the one of that width. -/
def natural? (bits : Nat) (lexeme : List Char) : Option Nat := do
  let n ← integer? lexeme
  let type : IntegerType := ⟨false, bits⟩
  if n.type.all (· = type) && type.holds n.negative n.magnitude then some n.magnitude else none

/-- A numeral as a number of double precision. -/
def float? (lexeme : List Char) : Option Float := do
  let (x, precision) ← decimal? lexeme
  if precision = some .single then none else some x

/-- A numeral as any number: an integer of up to 64 bits if it is one, else a decimal. Integers have
no negative zero. -/
def number? (lexeme : List Char) : Option Float :=
  match integer? lexeme with
  | some n =>
    -- Without a named type a negative integer is signed and any other is not.
    let type := n.type.getD ⟨n.negative, 64⟩
    if type.holds n.negative n.magnitude then
      some (Decimal.toFloat ⟨n.negative && n.magnitude != 0, n.magnitude, 0⟩)
    else (decimal? lexeme).map Prod.fst
  | none => (decimal? lexeme).map Prod.fst

end IdleGame.Ron
