import IdleGame.Datum
import IdleGame.Expr

/-!
# Authored expressions

## Main definitions

* `Expr.ofDatum?` - the expression that a datum denotes
* `Expr.entriesOfDatum?` - named expressions
-/

namespace IdleGame.Expr

variable {δ : Type} [Datum δ]

/-- The expression that a datum denotes, if it is nested less than `fuel` deep. -/
def read? : Nat → δ → Option Expr
  | 0, _ => none
  | fuel + 1, d => do
    let (tag, payload) ← Datum.variant? d
    match tag with
    | "lit" => return .lit (← Datum.value? (← payload.single?))
    | "ref" => return .ref (← Datum.string? (← payload.single?))
    | "flag" => return .flag (← Datum.string? (← payload.single?))
    | "param" => return .param (← Datum.string? (← payload.single?))
    | "prop" => return .prop (← Datum.string? (← payload.single?))
    | "count" => return .count (← Datum.string? (← payload.single?))
    | "always" | "true" => if payload.isEmpty then some .always else none
    | "random" => if payload.isEmpty then some .random else none
    | "pow" =>
      match ← payload.items? with
      | [base, exponent] => return .pow (← read? fuel base) (← read? fuel exponent)
      | _ => none
    | "clamp" => do
      let fields ← payload.fields? [⟨"value", []⟩, ⟨"min", []⟩, ⟨"max", []⟩]
      return .clamp (← fields.required? "value" (read? fuel))
        (← fields.required? "min" (read? fuel)) (← fields.required? "max" (read? fuel))
    | "and" => return .all (← Datum.listOf? (read? fuel) (← payload.single?))
    | "or" => return .any (← Datum.listOf? (read? fuel) (← payload.single?))
    | "not" => return .not (← read? fuel (← payload.single?))
    | "if" => do
      let fields ← payload.fields? [⟨"condition", []⟩, ⟨"then", []⟩, ⟨"else", []⟩]
      return .choice (← fields.required? "condition" (read? fuel))
        (← fields.required? "then" (read? fuel)) (← fields.required? "else" (read? fuel))
    | tag =>
      match Arithmetic.ofTag? tag, Rounding.ofTag? tag, Comparison.ofTag? tag with
      | some op, _, _ => return .arithmetic op (← Datum.listOf? (read? fuel) (← payload.single?))
      | _, some op, _ => return .rounding op (← read? fuel (← payload.single?))
      | _, _, some op => do
        let fields ← payload.fields? [⟨"left", []⟩, ⟨"right", []⟩]
        return .comparison op (← fields.required? "left" (read? fuel))
          (← fields.required? "right" (read? fuel))
      | none, none, none => none

/-- The expression that a datum denotes. An operand is nested deeper than what it is an operand of,
so the nesting that is left bounds the depth of the expression. -/
def ofDatum? (d : δ) : Option Expr := read? (Datum.room d + 1) d

/-- Named expressions; a repeated name keeps its first place and its last expression. -/
def entriesOfDatum? (d : δ) : Option (List (String × Expr)) :=
  (Datum.tableOf? ofDatum? d).map Table.entries

end IdleGame.Expr
