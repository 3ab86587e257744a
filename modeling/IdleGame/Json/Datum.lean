import IdleGame.Datum
import IdleGame.Json

/-!
# Data in JSON

Records are objects, or arrays of their fields in order. A variant is its tag as a string, or an
object with the tag as its only name. Data may be nested 127 deep; what is ignored may be nested
deeper.

## Main definitions

* `Json.Node` - a JSON value and the nesting left below it
* `Json.document?` - the datum that a text holds
-/

namespace IdleGame.Json

/-- A JSON value, with how many more arrays and objects may be entered. -/
structure Node where
  json : Json
  room : Nat

namespace Node

/-- The nodes of values inside an array or an object. -/
def enter (room : Nat) (items : List Json) : Option (List Node) :=
  match room with
  | 0 => none
  | room + 1 => some (items.map (⟨·, room⟩))

/-- The named nodes of an object. -/
def members? (room : Nat) (members : List (Option String × Json)) :
    Option (List (String × Node)) :=
  match room with
  | 0 => none
  | room + 1 => members.mapM fun (name, item) => name.map (·, ⟨item, room⟩)

/-- A number that is not infinite. -/
def number? (d : Decimal) : Option Float := if d.toFloat.isFinite then some d.toFloat else none

/-- The items of an array. -/
def list? (n : Node) : Option (List Node) :=
  match n.json with
  | .array items => enter n.room items
  | _ => none

/-- The members of an object. -/
def table? (n : Node) : Option (List (String × Node)) :=
  match n.json with
  | .object members => members? n.room members
  | _ => none

/-- The fields of a record. -/
def fields? (fields : List Field) (n : Node) : Option (Fields Node) :=
  match n.json with
  | .array _ => do Field.align? fields (← n.list?)
  | _ => do Field.select? (fun _ => true) fields (← n.table?)

/-- A tag and what follows it. -/
def variant? (n : Node) : Option (String × Payload Node) :=
  match n.json with
  | .string (some tag) => some (tag, ⟨true, none, none, fun _ => none⟩)
  | .object [_] => do
    match ← n.table? with
    | [(tag, payload)] =>
      let isNull := match payload.json with
        | .null => true
        | _ => false
      some (tag, ⟨isNull, some payload, payload.list?, fun fields => payload.fields? fields⟩)
    | _ => none
  | _ => none

instance : Datum Node where
  room := room
  bool? n := match n.json with
    | .bool b => some b
    | _ => none
  float? n := match n.json with
    | .number d _ => number? d
    | _ => none
  nat? bits n := match n.json with
    | .number d true =>
      if d.negative = false ∧ d.coefficient < Nat.pow 2 bits then some d.coefficient else none
    | _ => none
  string? n := match n.json with
    | .string s => s
    | _ => none
  value? n := match n.json with
    | .bool b => some (.bool b)
    | .number d _ => (number? d).map .number
    | .string s => s.map .string
    | _ => none
  option? n := match n.json with
    | .null => some none
    | _ => some (some n)
  list? := list?
  table? := table?
  record? _ fields n := n.fields? fields
  variant? := variant?

end Node

/-- The datum that a JSON value is. -/
def datum (json : Json) : Node := ⟨json, 127⟩

/-- The datum that a text holds. -/
def document? (text : String) : Option Node := (parse? text).map datum

end IdleGame.Json
