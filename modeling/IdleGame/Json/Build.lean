import IdleGame.Decimal.Shortest
import IdleGame.Json

/-!
# Building JSON values

## Main definitions

* `Json.ofNat`, `Json.ofFloat`, `Json.text` - values without parts
* `Json.record`, `Json.variant`, `Json.ofOption` - the forms of records, variants and options
-/

namespace IdleGame.Json

/-- A natural number. -/
def ofNat (n : Nat) : Json := .number ⟨false, n, 0⟩ true

/-- A number with the fewest digits that read back. JSON has no infinite numbers; those are null. -/
def ofFloat (x : Float) : Json :=
  match Binary.ofFloat? x with
  | some b => .number b.shortest false
  | none => .null

/-- A string. -/
def text (s : String) : Json := .string (some s)

/-- What an option holds, or null. -/
def ofOption {α : Type} (f : α → Json) : Option α → Json
  | some a => f a
  | none => .null

/-- The items of a list. -/
def ofList {α : Type} (f : α → Json) (as : List α) : Json := .array (as.map f)

/-- Named values. -/
def record (fields : List (String × Json)) : Json :=
  .object (fields.map fun (name, v) => (some name, v))

/-- What follows a tag. -/
def variant (tag : String) (payload : Json) : Json := record [(tag, payload)]

end IdleGame.Json
