import IdleGame.Action
import IdleGame.Expr.Datum

/-!
# Authored actions

## Main definitions

* `Action.ofDatum?`, `Action.listOfDatum?` - the action and the actions that a datum denotes
* `Choice.ofDatum?` - the branch of a random action
-/

namespace IdleGame

variable {δ : Type} [Datum δ]

/-- The kind of a message. -/
def MessageKind.ofDatum? : δ → Option MessageKind := Datum.tag? ofName?

/-- A branch of a random action, given how its actions are read. -/
def Choice.read? (action? : δ → Option Action) (d : δ) : Option Choice := do
  let fields ← Datum.record? "Choice" [⟨"weight", []⟩, ⟨"actions", []⟩] d
  return .mk (← fields.required? "weight" Datum.float?)
    (← fields.withDefault? "actions" [] (Datum.listOf? action?))

namespace Action

/-- The name in the field `name` and the expression in the field `value`. -/
def readAssignment? (name : String) (payload : Payload δ) : Option (String × Expr) := do
  let fields ← payload.fields? [⟨name, []⟩, ⟨"value", []⟩]
  return (← fields.required? name Datum.string?, ← fields.required? "value" Expr.ofDatum?)

/-- The name in the field `name` and the named expressions in the field `entries`. -/
def readEntries? (name entries : String) (payload : Payload δ) :
    Option (String × List (String × Expr)) := do
  let fields ← payload.fields? [⟨name, []⟩, ⟨entries, []⟩]
  return (← fields.required? name Datum.string?,
    ← fields.withDefault? entries [] Expr.entriesOfDatum?)

/-- The action that a datum denotes, if it is nested less than `fuel` deep. -/
def read? : Nat → δ → Option Action
  | 0, _ => none
  | fuel + 1, d => do
    let (tag, payload) ← Datum.variant? d
    match tag with
    | "set" => return (fun (id, e) => .set id e) (← readAssignment? "target" payload)
    | "add" => return (fun (id, e) => .add id e) (← readAssignment? "target" payload)
    | "multiply" => return (fun (id, e) => .multiply id e) (← readAssignment? "target" payload)
    | "if" => do
      let fields ← payload.fields? [⟨"condition", []⟩, ⟨"then", []⟩, ⟨"else", []⟩]
      return .branch (← fields.required? "condition" Expr.ofDatum?)
        (← fields.withDefault? "then" [] (Datum.listOf? (read? fuel)))
        (← fields.withDefault? "else" [] (Datum.listOf? (read? fuel)))
    | "random" => do
      let fields ← payload.fields? [⟨"choices", []⟩]
      return .random (← fields.required? "choices" (Datum.listOf? (Choice.read? (read? fuel))))
    | "message" => do
      let fields ← payload.fields? [⟨"text", []⟩, ⟨"kind", ["type"]⟩]
      return .message (← fields.required? "text" Datum.string?)
        (← fields.withDefault? "kind" .info MessageKind.ofDatum?)
    | "emit" => return (fun (event, es) => .emit event es) (← readEntries? "event" "data" payload)
    | "trigger" =>
      return (fun (event, es) => .trigger event es) (← readEntries? "event" "params" payload)
    | "spawn" =>
      return (fun (kind, es) => .spawn kind es) (← readEntries? "kind" "properties" payload)
    | "for_each" => do
      let fields ← payload.fields? [⟨"kind", []⟩, ⟨"filter", []⟩, ⟨"actions", []⟩]
      return .forEach (← fields.required? "kind" Datum.string?)
        (← fields.optional? "filter" Expr.ofDatum?)
        (← fields.required? "actions" (Datum.listOf? (read? fuel)))
    | "set_prop" => return (fun (name, e) => .setProp name e) (← readAssignment? "property" payload)
    | "add_prop" => return (fun (name, e) => .addProp name e) (← readAssignment? "property" payload)
    | "despawn" => if payload.isEmpty then some .despawn else none
    | _ => none

/-- The action that a datum denotes. An action is nested deeper than the action it is part of, so
the nesting that is left bounds the depth of the action. -/
def ofDatum? (d : δ) : Option Action := read? (Datum.room d + 1) d

/-- A list of actions. -/
def listOfDatum? : δ → Option (List Action) := Datum.listOf? ofDatum?

end Action

/-- A branch of a random action. -/
def Choice.ofDatum? : δ → Option Choice := Choice.read? Action.ofDatum?

end IdleGame
