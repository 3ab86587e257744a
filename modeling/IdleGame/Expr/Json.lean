import IdleGame.Expr
import IdleGame.Json.Build

/-!
# Expressions in JSON

## Main definitions

* `Value.toJson`, `Expr.toJson` - the JSON that a value and an expression are authored as
-/

namespace IdleGame

/-- A value. -/
def Value.toJson : Value → Json
  | .bool b => .bool b
  | .number x => .ofFloat x
  | .string s => .text s

namespace Expr

mutual

/-- An expression: its tag and its operands. -/
def toJson : Expr → Json
  | .lit v => .variant "lit" v.toJson
  | .ref s => .variant "ref" (.text s)
  | .flag s => .variant "flag" (.text s)
  | .param s => .variant "param" (.text s)
  | .prop s => .variant "prop" (.text s)
  | .count s => .variant "count" (.text s)
  | .always => .text "always"
  | .random => .text "random"
  | .arithmetic op es => .variant op.tag (.array (toJsons es))
  | .pow a b => .variant "pow" (.array [toJson a, toJson b])
  | .rounding op a => .variant op.tag (toJson a)
  | .clamp v low high =>
    .variant "clamp" (.record [("value", toJson v), ("min", toJson low), ("max", toJson high)])
  | .comparison op a b => .variant op.tag (.record [("left", toJson a), ("right", toJson b)])
  | .all es => .variant "and" (.array (toJsons es))
  | .any es => .variant "or" (.array (toJsons es))
  | .not a => .variant "not" (toJson a)
  | .choice c yes no =>
    .variant "if" (.record [("condition", toJson c), ("then", toJson yes), ("else", toJson no)])

/-- The expressions of a list. -/
def toJsons : List Expr → List Json
  | [] => []
  | e :: es => toJson e :: toJsons es

end

/-- Named expressions. -/
def entriesToJson (es : List (String × Expr)) : Json :=
  .record (es.map fun (name, e) => (name, e.toJson))

end Expr

end IdleGame
