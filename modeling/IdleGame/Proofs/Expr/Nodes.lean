import IdleGame.Proofs.Expr.Evaluation

/-!
# The subexpressions of an expression

An expression stands in another one as itself or within one of its operands, at whatever depth. The
nodes of an expression are exactly the expressions that stand in it.

## Main definitions

* `Expr.operands` - the expressions right within an expression
* `Expr.StandsIn` - an expression stands in another, at any depth
* `Expr.Names` - a variable is read somewhere in an expression

## Main results

* `Expr.operands_induction` - what holds of an expression when it holds of its operands
* `Expr.mem_nodes_iff_standsIn` - the nodes are the expressions that stand in an expression
-/

namespace IdleGame.Expr

/-- The expressions right within an expression. -/
def operands : Expr → List Expr
  | .arithmetic _ es | .all es | .any es => es
  | .pow a b | .comparison _ a b => [a, b]
  | .rounding _ a | .not a => [a]
  | .clamp v low high => [v, low, high]
  | .choice c a b => [c, a, b]
  | .lit _ | .ref _ | .flag _ | .param _ | .prop _ | .count _ | .always | .random => []

/-- An expression stands in another one, as itself or within one of its operands. -/
inductive StandsIn (n : Expr) : Expr → Prop
  | self : StandsIn n n
  | operand {e a} (ha : a ∈ e.operands) (h : StandsIn n a) : StandsIn n e

/-- A variable is read somewhere in an expression. -/
def Names (e : Expr) (id : String) : Prop := (ref id).StandsIn e ∨ (flag id).StandsIn e

variable {n e a : Expr} {es : List Expr}

theorem mem_nodesOfAll : n ∈ nodesOfAll es ↔ ∃ e ∈ es, n ∈ e.nodes := by
  induction es with
  | nil => simp [nodesOfAll]
  | cons e es ih => simp [nodesOfAll, ih]

/-- The nodes of an expression are itself and those of its operands. -/
theorem mem_nodes : n ∈ e.nodes ↔ n = e ∨ ∃ a ∈ e.operands, n ∈ a.nodes := by
  cases e <;> simp [nodes, operands, mem_nodesOfAll]

theorem sizeOf_lt_of_mem_operands (h : a ∈ e.operands) : sizeOf a < sizeOf e := by
  cases e with
  | arithmetic op es | all es | any es =>
    have hlt : sizeOf a < sizeOf es := List.sizeOf_lt_of_mem h
    simp only [arithmetic.sizeOf_spec, all.sizeOf_spec, any.sizeOf_spec]
    omega
  | pow | comparison | rounding | not | clamp | choice =>
    simp only [operands, List.mem_cons, List.not_mem_nil, or_false] at h
    rcases h with rfl | rfl | rfl <;> simp <;> omega
  | _ => cases h

/-- What holds of an expression whenever it holds of its operands holds of every expression. -/
theorem operands_induction {motive : Expr → Prop}
    (step : ∀ e, (∀ a ∈ e.operands, motive a) → motive e) (e : Expr) : motive e := by
  induction hsize : sizeOf e using Nat.strongRecOn generalizing e with
  | _ size ih => exact step e fun a ha => ih _ (hsize ▸ sizeOf_lt_of_mem_operands ha) a rfl

/-- What stands in a node of an expression stands in the expression. -/
theorem nodes_subset (h : n ∈ e.nodes) : n.nodes ⊆ e.nodes := by
  induction e using operands_induction with
  | step e ih =>
    rcases mem_nodes.mp h with rfl | ⟨a, ha, hn⟩
    · exact List.Subset.refl _
    · intro m hm
      exact mem_nodes.mpr (.inr ⟨a, ha, ih a ha hn hm⟩)

/-- The nodes of an expression are exactly the expressions that stand in it. -/
theorem mem_nodes_iff_standsIn : n ∈ e.nodes ↔ n.StandsIn e := by
  constructor
  · intro h
    induction e using operands_induction with
    | step e ih =>
      rcases mem_nodes.mp h with rfl | ⟨a, ha, hn⟩
      · exact .self
      · exact .operand ha (ih a ha hn)
  · intro h
    induction h with
    | self => exact mem_nodes_self _
    | operand ha _ ih => exact mem_nodes.mpr (.inr ⟨_, ha, ih⟩)

end IdleGame.Expr
