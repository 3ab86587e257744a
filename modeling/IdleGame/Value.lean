import IdleGame.Decimal.Text
import IdleGame.Fault
import IdleGame.Table
import IdleGame.Text.Blank

/-!
# Game values

State variables and entity properties hold numbers, booleans or strings, and every value can be
read as each of the three.

## Main definitions

* `Value` - a number, a boolean or a string
* `VarKind` - the kind a variable is declared with
* `Value.number`, `Value.isTruthy`, `Value.display` - a value read as each kind
* `Value.coerce` - a value turned into a kind
* `Values` - named values in order
-/

namespace IdleGame

/-- The kind of a value, and the declared kind of a state variable. -/
inductive VarKind where
  | number
  | boolean
  | string
deriving DecidableEq, Repr, Inhabited

/-- A scalar of a game. -/
inductive Value where
  | bool (b : Bool)
  | number (x : Float)
  | string (s : String)
deriving DecidableEq

/-- Named values in order: the game state, the properties of an entity, parameters. -/
abbrev Values := Table Value

namespace VarKind

/-- The value that a variable of this kind has without an initial value. -/
def zero : VarKind → Value
  | number => .number 0.0
  | boolean => .bool false
  | string => .string ""

/-- The name of a kind. -/
def name : VarKind → String
  | number => "number"
  | boolean => "boolean"
  | string => "string"

/-- The kind authored with a name. Booleans have a short name too. -/
def ofName? (name : String) : Option VarKind :=
  if name = "bool" then some boolean else [number, boolean, string].find? (·.name = name)

end VarKind

namespace Value

/-- What a missing name reads as. -/
def missing : Value := .number 0.0

instance : Inhabited Value := ⟨missing⟩

/-- The kind of a value. -/
def kind : Value → VarKind
  | .bool _ => .boolean
  | .number _ => .number
  | .string _ => .string

/-- The value as a number: booleans count one and zero, and a string counts what it reads as
without the blanks around it, or zero. -/
def toNumber : Value → Float
  | .bool b => if b then 1.0 else 0.0
  | .number x => x
  | .string s => (readFloat? (Text.trim s.toList)).getD 0.0

/-- The boolean that the value is. -/
def bool? : Value → Option Bool
  | .bool b => some b
  | _ => none

/-- The string that the value is. -/
def string? : Value → Option String
  | .string s => some s
  | _ => none

/-- The value as a condition: nonzero numbers and nonempty strings hold. -/
def isTruthy : Value → Bool
  | .bool b => b
  | .number x => x != 0.0 && !x.isNaN
  | .string s => s != ""

/-- The value as text. -/
def display : Value → String
  | .bool b => if b then "true" else "false"
  | .number x => Layout.plain.write x
  | .string s => s

/-- The most places that a number can be shown with. -/
def maxPlaces : Nat := 65535

/-- The value as text, numbers with the given number of places. -/
def displayWith (places : Option Nat) (v : Value) : Except Fault String :=
  match v, places with
  -- Too many places are a fault also for numbers that show none.
  | .number x, some p => if maxPlaces < p then .error .tooManyPlaces else .ok (writeFixed p x)
  | v, _ => .ok v.display

/-- The value turned into a kind. -/
def coerce (v : Value) : VarKind → Value
  | .number => .number v.toNumber
  | .boolean => .bool v.isTruthy
  | .string => .string v.display

/-- Values of the kind asked for stay as they are. -/
theorem coerce_kind (v : Value) : v.coerce v.kind = v := by
  cases v <;> rfl

@[simp] theorem kind_coerce (v : Value) (k : VarKind) : (v.coerce k).kind = k := by
  cases k <;> rfl

end Value

end IdleGame
