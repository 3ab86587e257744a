import IdleGame.Value

/-!
# Entities

An entity is a row of a game outside its variables, such as a shipment or a card: a bag of
properties with a kind and an id that is never used twice.

## Main definitions

* `EntityId` - the id of an entity, written `e` and a number
* `EntityId.maxNumber` - the largest number that can be written so
* `EntityId.parse` - reads an id, with or without the `e`
* `Entity` - id, kind and properties
-/

namespace IdleGame

/-- What keeps a text from being a natural number of 64 bits. -/
inductive NumeralError where
  | empty
  | invalidDigit
  | tooLarge
deriving DecidableEq, Repr

namespace NumeralError

/-- The error in words. -/
def message : NumeralError → String
  | empty => "cannot parse integer from empty string"
  | invalidDigit => "invalid digit found in string"
  | tooLarge => "number too large to fit in target type"

end NumeralError

/-- Reads decimal digits after the number read so far. The first character that is no digit or
makes the number reach `bound` decides the error. -/
def readDigits (bound : Nat) : Nat → List Char → Except NumeralError Nat
  | n, [] => .ok n
  | n, c :: rest =>
    if ¬ c.isDigit then .error .invalidDigit
    else if bound ≤ n * 10 + (c.toNat - '0'.toNat) then .error .tooLarge
    else readDigits bound (n * 10 + (c.toNat - '0'.toNat)) rest

/-- Reads a natural number below `bound`. A plus sign may stand in front of the digits. -/
def readNat (bound : Nat) (text : List Char) : Except NumeralError Nat :=
  match text with
  | [] => .error .empty
  | ['+'] => .error .invalidDigit
  | '+' :: digits => readDigits bound 0 digits
  | digits => readDigits bound 0 digits

/-- The id of an entity. Ids are handed out in increasing order. -/
structure EntityId where
  number : Nat
deriving DecidableEq, Repr

namespace EntityId

/-- The largest number that an id can have as a text or in a snapshot. -/
def maxNumber : Nat := Nat.pow 2 64 - 1

/-- The id as text. -/
def display (id : EntityId) : String := String.ofList ('e' :: digitsOf id.number)

/-- The id that a text denotes: a number, with an `e` in front or not. -/
def parse (text : String) : Except NumeralError EntityId :=
  (readNat (maxNumber + 1) (match text.toList with | 'e' :: rest => rest | cs => cs)).map
    EntityId.mk

end EntityId

/-- An entity. -/
structure Entity where
  id : EntityId
  kind : String
  properties : Values
deriving DecidableEq

namespace Entity

/-- The value of a property. -/
def get? (e : Entity) (name : String) : Option Value := e.properties.get? name

/-- A property as a number, zero if there is none. -/
def number (e : Entity) (name : String) : Float := ((e.get? name).map Value.toNumber).getD 0.0

/-- The entity with a property written. -/
def set (e : Entity) (name : String) (v : Value) : Entity :=
  { e with properties := e.properties.insert name v }

/-- The entity with properties written one after the other. -/
def patch (e : Entity) (properties : Values) : Entity :=
  { e with properties := e.properties.extend properties.entries }

end Entity

end IdleGame
