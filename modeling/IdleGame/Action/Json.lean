import IdleGame.Action
import IdleGame.Expr.Json

/-!
# Actions in JSON

## Main definitions

* `Action.toJson`, `Choice.toJson` - the JSON that an action and a branch of a random action are
  authored as
-/

namespace IdleGame

namespace Action

/-- A tag with a name and an expression. -/
def assignment (tag field name : String) (e : Expr) : Json :=
  .variant tag (.record [(field, .text name), ("value", e.toJson)])

/-- A tag with a name and named expressions. -/
def listing (tag field name entries : String) (es : List (String × Expr)) : Json :=
  .variant tag (.record [(field, .text name), (entries, Expr.entriesToJson es)])

mutual

/-- An action: its tag and its fields. -/
def toJson : Action → Json
  | .set id e => assignment "set" "target" id e
  | .add id e => assignment "add" "target" id e
  | .multiply id e => assignment "multiply" "target" id e
  | .branch c yes no =>
    .variant "if" (.record
      [("condition", c.toJson), ("then", .array (toJsons yes)), ("else", .array (toJsons no))])
  | .random choices => .variant "random" (.record [("choices", .array (choicesToJson choices))])
  | .message template kind =>
    .variant "message" (.record [("text", .text template), ("kind", .text kind.name)])
  | .emit event data => listing "emit" "event" event "data" data
  | .trigger event params => listing "trigger" "event" event "params" params
  | .spawn kind properties => listing "spawn" "kind" kind "properties" properties
  | .forEach kind filter body =>
    .variant "for_each" (.record [("kind", .text kind), ("filter", .ofOption Expr.toJson filter),
      ("actions", .array (toJsons body))])
  | .setProp name e => assignment "set_prop" "property" name e
  | .addProp name e => assignment "add_prop" "property" name e
  | .despawn => .text "despawn"

/-- The actions of a list. -/
def toJsons : List Action → List Json
  | [] => []
  | a :: as => toJson a :: toJsons as

/-- The branches of a random action. -/
def choicesToJson : List Choice → List Json
  | [] => []
  | .mk weight actions :: cs =>
    .record [("weight", .ofFloat weight), ("actions", .array (toJsons actions))] :: choicesToJson cs

end

/-- A list of actions. -/
def listToJson (as : List Action) : Json := .array (toJsons as)

end Action

/-- A branch of a random action. -/
def Choice.toJson (c : Choice) : Json :=
  .record [("weight", .ofFloat c.weight), ("actions", Action.listToJson c.actions)]

end IdleGame
