import IdleGame.Value

/-!
# Expressions

Conditions, costs and operands are authored as expression trees. A condition is an expression read
for its truth; there is no type of its own for it.

## Main definitions

* `Expr` - an expression tree
* `Expr.tag` - the name that an expression is authored with
* `Expr.nodes` - the expression and all its subexpressions, depth first
-/

namespace IdleGame

/-- Operations on a list of numbers, from left to right. -/
inductive Arithmetic where
  | add
  | sub
  | mul
  | div
  | max
  | min
  | mod
deriving DecidableEq, Repr

/-- Operations on one number. -/
inductive Rounding where
  | floor
  | ceil
  | round
  | abs
deriving DecidableEq, Repr

/-- Comparisons of two operands. -/
inductive Comparison where
  | lt
  | lte
  | gt
  | gte
  | eq
  | neq
deriving DecidableEq, Repr

/-- An expression. -/
inductive Expr where
  /-- A value as it stands. -/
  | lit (value : Value)
  /-- The value of a state variable. -/
  | ref (id : String)
  /-- Whether a state variable holds. -/
  | flag (id : String)
  /-- A parameter of the action or event. -/
  | param (name : String)
  /-- A property of the entity at hand. -/
  | prop (name : String)
  /-- The number of live entities of a kind. -/
  | count (kind : String)
  | always
  /-- A random number in `[0, 1)`. -/
  | random
  | arithmetic (op : Arithmetic) (operands : List Expr)
  | pow (base exponent : Expr)
  | rounding (op : Rounding) (operand : Expr)
  | clamp (value low high : Expr)
  | comparison (op : Comparison) (left right : Expr)
  /-- Whether all conditions hold. -/
  | all (conditions : List Expr)
  /-- Whether some condition holds. -/
  | any (conditions : List Expr)
  | not (condition : Expr)
  /-- One of two values, as a condition says. -/
  | choice (condition yes no : Expr)

namespace Arithmetic

/-- All operations. -/
def all : List Arithmetic := [add, sub, mul, div, max, min, mod]

/-- The name that an operation is authored with. -/
def tag : Arithmetic → String
  | add => "add"
  | sub => "sub"
  | mul => "mul"
  | div => "div"
  | max => "max"
  | min => "min"
  | mod => "mod"

/-- The operation authored with a name. -/
def ofTag? (tag : String) : Option Arithmetic := all.find? (·.tag = tag)

@[simp] theorem ofTag?_tag (op : Arithmetic) : ofTag? op.tag = some op := by
  cases op <;> decide

end Arithmetic

namespace Rounding

/-- All operations. -/
def all : List Rounding := [floor, ceil, round, abs]

/-- The name that an operation is authored with. -/
def tag : Rounding → String
  | floor => "floor"
  | ceil => "ceil"
  | round => "round"
  | abs => "abs"

/-- The operation authored with a name. -/
def ofTag? (tag : String) : Option Rounding := all.find? (·.tag = tag)

@[simp] theorem ofTag?_tag (op : Rounding) : ofTag? op.tag = some op := by
  cases op <;> decide

end Rounding

namespace Comparison

/-- All comparisons. -/
def all : List Comparison := [lt, lte, gt, gte, eq, neq]

/-- The name that a comparison is authored with. -/
def tag : Comparison → String
  | lt => "lt"
  | lte => "lte"
  | gt => "gt"
  | gte => "gte"
  | eq => "eq"
  | neq => "neq"

/-- The comparison authored with a name. -/
def ofTag? (tag : String) : Option Comparison := all.find? (·.tag = tag)

@[simp] theorem ofTag?_tag (op : Comparison) : ofTag? op.tag = some op := by
  cases op <;> decide

end Comparison

namespace Expr

instance : Inhabited Expr := ⟨always⟩

/-- The name that an expression is authored with. -/
def tag : Expr → String
  | lit _ => "lit"
  | ref _ => "ref"
  | flag _ => "flag"
  | param _ => "param"
  | prop _ => "prop"
  | count _ => "count"
  | always => "always"
  | random => "random"
  | arithmetic op _ => op.tag
  | pow .. => "pow"
  | rounding op _ => op.tag
  | clamp .. => "clamp"
  | comparison op .. => op.tag
  | all _ => "and"
  | any _ => "or"
  | not _ => "not"
  | choice .. => "if"

mutual

/-- The expression and all its subexpressions, an expression before its parts and the parts from
left to right. -/
def nodes : Expr → List Expr
  | e@(.lit _) | e@(.ref _) | e@(.flag _) | e@(.param _) | e@(.prop _) | e@(.count _)
  | e@.always | e@.random => [e]
  | e@(.arithmetic _ es) | e@(.all es) | e@(.any es) => e :: nodesOfAll es
  | e@(.pow a b) => e :: (nodes a ++ nodes b)
  | e@(.rounding _ a) | e@(.not a) => e :: nodes a
  | e@(.clamp v a b) => e :: (nodes v ++ (nodes a ++ nodes b))
  | e@(.comparison _ a b) => e :: (nodes a ++ nodes b)
  | e@(.choice c a b) => e :: (nodes c ++ (nodes a ++ nodes b))

/-- The nodes of each expression of a list in turn. -/
def nodesOfAll : List Expr → List Expr
  | [] => []
  | e :: es => nodes e ++ nodesOfAll es

end

end Expr

end IdleGame
