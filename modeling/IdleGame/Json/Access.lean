import IdleGame.Json

/-!
# Looking into JSON values

## Main definitions

* `Json.member?` - a member of an object
* `Json.asString?`, `Json.asBool?`, `Json.asNat?`, `Json.asItems?` - what a value holds
-/

namespace IdleGame.Json

/-- The last member of an object with a name. -/
def member? (name : String) : Json → Option Json
  | .object members => (members.reverse.find? (·.1 == some name)).map (·.2)
  | _ => none

/-- A string. -/
def asString? : Json → Option String
  | .string s => s
  | _ => none

/-- A boolean. -/
def asBool? : Json → Option Bool
  | .bool b => some b
  | _ => none

/-- A natural number. -/
def asNat? : Json → Option Nat
  | .number d true => if d.negative then none else some d.coefficient
  | _ => none

/-- The items of an array. -/
def asItems? : Json → Option (List Json)
  | .array items => some items
  | _ => none

end IdleGame.Json
