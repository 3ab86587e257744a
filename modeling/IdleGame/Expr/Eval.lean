import IdleGame.Expr
import IdleGame.Fault
import IdleGame.Random

/-!
# Evaluation of expressions

An expression is evaluated against a view of the game and a random source. Missing names read as
zero, and arithmetic that has no result, such as a division by zero, gives zero. The one fault is a
clamp to a bound that is not a number.

## Main definitions

* `View` - what an expression can read
* `Draws` - computations that draw random numbers and may stop at a fault
* `Expr.eval` - the value of an expression
* `Expr.test`, `Expr.toNumber` - the value read as a condition and as a number
-/

namespace IdleGame

/-- A computation that draws from a random source. The source that it leaves behind is there also
after a fault. -/
def Draws (ρ α : Type) : Type := ρ → Except Fault α × ρ

namespace Draws

variable {ρ α β : Type}

instance : Monad (Draws ρ) where
  pure a s := (.ok a, s)
  bind x f s :=
    match x s with
    | (.ok a, s) => f a s
    | (.error e, s) => (.error e, s)

/-- Stops at a fault. -/
def fault (e : Fault) : Draws ρ α := fun s => (.error e, s)

/-- Draws one number. -/
def next [RandomSource ρ] : Draws ρ Float := fun s =>
  let (x, s) := RandomSource.next s
  (.ok x, s)

@[simp] theorem pure_apply (a : α) (s : ρ) : (pure a : Draws ρ α) s = (.ok a, s) := rfl

theorem bind_apply (x : Draws ρ α) (f : α → Draws ρ β) (s : ρ) :
    (x >>= f) s = match x s with
      | (.ok a, s) => f a s
      | (.error e, s) => (.error e, s) := rfl

end Draws

/-- What an expression can read: variables, parameters, the properties of the entity at hand and
the sizes of the populations. -/
structure View where
  readVariable : String → Option Value
  readParameter : String → Option Value
  readProperty : String → Option Value
  population : String → Nat

namespace Arithmetic

/-- The larger of two numbers, where a number beats what is not one; of two equal ones the
first. -/
def larger (a b : Float) : Float := if a.isNaN then b else if a < b then b else a

/-- The smaller of two numbers, where a number beats what is not one; of two equal ones the
first. -/
def smaller (a b : Float) : Float := if a.isNaN then b else if b < a then b else a

/-- An operation on two numbers. Division by zero gives zero. -/
def apply : Arithmetic → Float → Float → Float
  | add, a, b => a + b
  | sub, a, b => a - b
  | mul, a, b => a * b
  | div, a, b => if b == 0.0 then 0.0 else a / b
  | max, a, b => larger a b
  | min, a, b => smaller a b
  | mod, a, b => if b == 0.0 then 0.0 else remainder a b

end Arithmetic

namespace Rounding

/-- An operation on one number. Halves are rounded away from zero. -/
def apply : Rounding → Float → Float
  | floor, a => a.floor
  | ceil, a => a.ceil
  | round, a => a.round
  | abs, a => a.abs

end Rounding

/-- A power; infinite powers and those that are not a number give zero. -/
def power (base exponent : Float) : Float :=
  let p := base.pow exponent
  if p.isFinite then p else 0.0

/-- The number moved between two bounds. Bounds in the wrong order give the lower one; bounds
without an order have no result. -/
def clamp? (x low high : Float) : Option Float :=
  -- Both comparisons are false where a bound is not a number.
  if high < low then some low
  else if low ≤ high then some (if x < low then low else if high < x then high else x)
  else none

/-- The distance below which two numbers count as equal. -/
def tolerance : Float := 2.220446049250313e-16

/-- Strings are equal when they are the same and never equal anything else; two booleans are equal
when they are the same; everything else is compared as numbers. -/
def Value.isEqual : Value → Value → Bool
  | .string s, .string t => s = t
  | .string _, _ | _, .string _ => false
  | .bool a, .bool b => a = b
  | a, b => (a.toNumber - b.toNumber).abs < tolerance

namespace Comparison

/-- Equality compares values, all else numbers. -/
def apply : Comparison → Value → Value → Bool
  | lt, a, b => a.toNumber < b.toNumber
  | lte, a, b => a.toNumber ≤ b.toNumber
  | gt, a, b => b.toNumber < a.toNumber
  | gte, a, b => b.toNumber ≤ a.toNumber
  | eq, a, b => a.isEqual b
  | neq, a, b => !a.isEqual b

end Comparison

namespace Expr

variable {ρ : Type} [RandomSource ρ]

mutual

/-- The value of an expression. Operands are evaluated from left to right, and those of a
conjunction, a disjunction and a choice only as far as they decide. -/
def eval (view : View) : Expr → Draws ρ Value
  | .lit v => pure v
  | .ref id => pure ((view.readVariable id).getD .missing)
  | .flag id => pure (.bool ((view.readVariable id).any Value.isTruthy))
  | .param name => pure ((view.readParameter name).getD .missing)
  | .prop name => pure ((view.readProperty name).getD .missing)
  | .count kind => pure (.number (Float.ofNat (view.population kind)))
  | .always => pure (.bool true)
  | .random => do return .number (← Draws.next)
  | .arithmetic _ [] => pure (.number 0.0)
  | .arithmetic op (e :: es) => do
    let first ← eval view e
    return .number (← evalFrom view op first.toNumber es)
  | .pow base exponent => do
    let base ← eval view base
    let exponent ← eval view exponent
    return .number (power base.toNumber exponent.toNumber)
  | .rounding op e => do return .number (op.apply (← eval view e).toNumber)
  | .clamp value low high => do
    let value ← eval view value
    -- The bounds are evaluated before they are compared, also where one would do.
    let low ← eval view low
    let high ← eval view high
    match clamp? value.toNumber low.toNumber high.toNumber with
    | some x => return .number x
    | none => Draws.fault .unorderedBounds
  | .comparison op left right => do
    let left ← eval view left
    let right ← eval view right
    return .bool (op.apply left right)
  | .all es => do return .bool (← evalAll view es)
  | .any es => do return .bool (← evalAny view es)
  | .not e => do return .bool (!(← eval view e).isTruthy)
  | .choice condition yes no => do
    -- Of the two branches only the chosen one draws random numbers.
    if (← eval view condition).isTruthy then eval view yes else eval view no

/-- Combines an accumulated number with the operands that are left. -/
def evalFrom (view : View) (op : Arithmetic) (acc : Float) : List Expr → Draws ρ Float
  | [] => pure acc
  | e :: es => do
    let operand ← eval view e
    evalFrom view op (op.apply acc operand.toNumber) es

/-- Whether all conditions hold, asked up to the first that does not. -/
def evalAll (view : View) : List Expr → Draws ρ Bool
  | [] => pure true
  | e :: es => do
    if (← eval view e).isTruthy then evalAll view es else pure false

/-- Whether some condition holds, asked up to the first that does. -/
def evalAny (view : View) : List Expr → Draws ρ Bool
  | [] => pure false
  | e :: es => do
    if (← eval view e).isTruthy then pure true else evalAny view es

end

/-- The value of a condition. -/
def test (view : View) (e : Expr) : Draws ρ Bool := do return (← eval view e).isTruthy

/-- The value of an operand. -/
def toNumber (view : View) (e : Expr) : Draws ρ Float := do return (← eval view e).toNumber

/-- The values of expressions, one after the other. A fault in one does not keep the others from
being evaluated. -/
def evalEach (view : View) : List Expr → ρ → List (Except Fault Value) × ρ
  | [], s => ([], s)
  | e :: es, s =>
    let (v, s) := e.eval view s
    let (vs, s) := evalEach view es s
    (v :: vs, s)

/-- The values of named expressions, in order. -/
def evalEntries (view : View) : List (String × Expr) → Draws ρ (List (String × Value))
  | [] => pure []
  | (name, e) :: es => do
    let v ← eval view e
    let vs ← evalEntries view es
    return (name, v) :: vs

end Expr

end IdleGame
