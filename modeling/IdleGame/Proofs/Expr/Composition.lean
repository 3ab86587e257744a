import IdleGame.Proofs.Expr.Nodes

/-!
# Evaluation as a composition

An evaluation is put together from values at hand, draws and faults. What relates these, and relates
two computations one after the other when it relates their parts, relates the evaluations of an
expression in two views in which all that stands in the expression reads the same. A property of
computations that is passed on in this way is the case of one view.

## Main definitions

* `Draws.Relates` - a relation that is passed on to computations one after the other
* `Draws.Composes` - a property that is passed on to computations one after the other
* `Draws.Silent` - a computation draws nothing
* `View.ReadsLike` - an expression itself reads the same in two views

## Main results

* `Expr.eval_related` - such a relation holds between evaluations in views that read the same
* `Expr.eval_of_composes` - such a property holds of an evaluation
* `Expr.silent_eval` - the evaluation of an expression without random numbers draws nothing
-/

namespace IdleGame

variable {ρ ρ' : Type}

namespace Draws

variable {α β : Type}

/-- A relation between computations that holds between those that have a value at hand and between
those that stop at a fault, and that is passed on to computations one after the other. -/
structure Relates (R : ∀ {α : Type}, Draws ρ α → Draws ρ' α → Prop) : Prop where
  pure {α : Type} (a : α) : R (pure a : Draws ρ α) (pure a : Draws ρ' α)
  fault {α : Type} (e : Fault) : R (fault e : Draws ρ α) (fault e : Draws ρ' α)
  bind {α β : Type} {x : Draws ρ α} {y : Draws ρ' α} {f : α → Draws ρ β} {g : α → Draws ρ' β}
    (hxy : R x y) (hfg : ∀ a, R (f a) (g a)) : R (x >>= f) (y >>= g)

theorem Relates.map {R : ∀ {α : Type}, Draws ρ α → Draws ρ' α → Prop} (hR : Relates R)
    {x : Draws ρ α} {y : Draws ρ' α} {g : α → β} (hxy : R x y) :
    R (do return g (← x) : Draws ρ β) (do return g (← y) : Draws ρ' β) :=
  hR.bind hxy fun _ => hR.pure _

/-- A property of computations that holds of those that do nothing and of those that fault, and that
is passed on to computations one after the other. -/
structure Composes (P : ∀ {α : Type}, Draws ρ α → Prop) : Prop where
  pure {α : Type} (a : α) : P (pure a : Draws ρ α)
  fault {α : Type} (e : Fault) : P (fault e : Draws ρ α)
  bind {α β : Type} {x : Draws ρ α} {f : α → Draws ρ β} (hx : P x) (hf : ∀ a, P (f a)) :
    P (x >>= f)

theorem Composes.map {P : ∀ {α : Type}, Draws ρ α → Prop} (h : Composes P) {x : Draws ρ α}
    {g : α → β} (hx : P x) : P (do return g (← x) : Draws ρ β) :=
  h.bind hx fun _ => h.pure _

/-- A property of computations relates each computation that has it to all others. -/
theorem Composes.relates {P : ∀ {α : Type}, Draws ρ α → Prop} (h : Composes P) :
    Relates (fun x (_ : Draws ρ _) => P x) where
  pure := h.pure
  fault := h.fault
  bind := h.bind

end Draws

/-- What an expression itself reads, its operands left out, is the same in two views. A missing name
is what it reads as. -/
def View.ReadsLike (view view' : View) : Expr → Prop
  | .ref id | .flag id =>
    (view.readVariable id).getD .missing = (view'.readVariable id).getD .missing
  | .param name =>
    (view.readParameter name).getD .missing = (view'.readParameter name).getD .missing
  | .prop name => (view.readProperty name).getD .missing = (view'.readProperty name).getD .missing
  | .count kind => Float.ofNat (view.population kind) = Float.ofNat (view'.population kind)
  | _ => True

theorem View.readsLike_self (view : View) (e : Expr) : view.ReadsLike view e := by
  cases e <;> simp only [ReadsLike]

/-- What a missing name reads as does not hold. -/
theorem Value.isTruthy_getD_missing (v : Option Value) :
    (v.getD .missing).isTruthy = v.any isTruthy := by
  rcases v with _ | v
  · decide
  · rfl

namespace Expr

open Draws

section Related

variable [RandomSource ρ] [RandomSource ρ'] {R : ∀ {α : Type}, Draws ρ α → Draws ρ' α → Prop}
  (hR : Relates R) {view view' : View} {e : Expr} {es : List Expr}

include hR

theorem evalFrom_related {op : Arithmetic} {acc : Float}
    (h : ∀ a ∈ es, R (eval view a) (eval view' a)) :
    R (evalFrom view op acc es) (evalFrom view' op acc es) := by
  induction es generalizing acc with
  | nil =>
    rw [evalFrom, evalFrom]
    exact hR.pure acc
  | cons a es ih =>
    obtain ⟨ha, hes⟩ := List.forall_mem_cons.mp h
    rw [evalFrom, evalFrom]
    exact hR.bind ha fun _ => ih hes

theorem evalUntil_related {stop : Bool} (h : ∀ a ∈ es, R (eval view a) (eval view' a)) :
    R (evalUntil view stop es) (evalUntil view' stop es) := by
  induction es with
  | nil =>
    rw [evalUntil, evalUntil]
    exact hR.pure _
  | cons a es ih =>
    obtain ⟨ha, hes⟩ := List.forall_mem_cons.mp h
    rw [evalUntil, evalUntil]
    refine hR.bind ha fun v => ?_
    -- Both ask on, or neither does: the value that decides is the same.
    split
    · exact hR.pure stop
    · exact ih hes

/-- Evaluations of an expression are related when those of its operands are, when it reads the same
itself, and when draws are related if it is one. -/
theorem eval_related_of_operands (hreads : view.ReadsLike view' e)
    (hnext : e = random → R (next : Draws ρ Float) (next : Draws ρ' Float))
    (h : ∀ a ∈ e.operands, R (eval view a) (eval view' a)) :
    R (eval view e) (eval view' e) := by
  cases e with
  | lit | always =>
    rw [eval, eval]
    exact hR.pure _
  | ref | param | prop | count =>
    rw [eval, eval, hreads]
    exact hR.pure _
  | flag =>
    rw [eval, eval, ← Value.isTruthy_getD_missing, ← Value.isTruthy_getD_missing, hreads]
    exact hR.pure _
  | random =>
    rw [eval, eval]
    exact hR.map (hnext rfl)
  | arithmetic op es =>
    rcases es with _ | ⟨a, es⟩
    · rw [eval, eval]
      exact hR.pure _
    · obtain ⟨ha, hes⟩ := List.forall_mem_cons.mp h
      rw [eval, eval]
      exact hR.bind ha fun _ => hR.map (evalFrom_related hR hes)
  | pow base exponent =>
    simp only [operands, List.forall_mem_cons] at h
    obtain ⟨hbase, hexponent, -⟩ := h
    rw [eval, eval]
    exact hR.bind hbase fun _ => hR.map hexponent
  | rounding op a | not a =>
    rw [eval, eval]
    exact hR.map (h a (List.mem_singleton_self a))
  | clamp x low high =>
    simp only [operands, List.forall_mem_cons] at h
    obtain ⟨hx, hlow, hhigh, -⟩ := h
    rw [eval, eval]
    refine hR.bind hx fun x => hR.bind hlow fun low => hR.bind hhigh fun high => ?_
    -- Bounds without an order stop both evaluations.
    cases clamp? x.toNumber low.toNumber high.toNumber with
    | some y => exact hR.pure _
    | none => exact hR.fault _
  | comparison op left right =>
    simp only [operands, List.forall_mem_cons] at h
    obtain ⟨hleft, hright, -⟩ := h
    rw [eval, eval]
    exact hR.bind hleft fun _ => hR.map hright
  | all es =>
    rw [eval, eval, evalAll_eq_evalUntil, evalAll_eq_evalUntil]
    exact hR.map (evalUntil_related hR h)
  | any es =>
    rw [eval, eval, evalAny_eq_evalUntil, evalAny_eq_evalUntil]
    exact hR.map (evalUntil_related hR h)
  | choice condition yes no =>
    simp only [operands, List.forall_mem_cons] at h
    obtain ⟨hcondition, hyes, hno, -⟩ := h
    rw [eval, eval]
    refine hR.bind hcondition fun v => ?_
    -- The branch that is not chosen is related as well, but nothing depends on it.
    split
    · exact hyes
    · exact hno

/-- Evaluations of an expression are related when whatever stands in it reads the same, and draws
are related if a random number stands in it. -/
theorem eval_related (hreads : ∀ n ∈ e.nodes, view.ReadsLike view' n)
    (hnext : random ∈ e.nodes → R (next : Draws ρ Float) (next : Draws ρ' Float)) :
    R (eval view e) (eval view' e) := by
  induction e using operands_induction with
  | step e ih =>
    have hself : e ∈ e.nodes := mem_nodes_self e
    refine eval_related_of_operands hR (hreads e hself) ?_ ?_
    · rintro rfl
      exact hnext hself
    · intro a ha
      -- What stands in an operand stands in the expression.
      have hnodes : ∀ n ∈ a.nodes, n ∈ e.nodes := fun n hn => mem_nodes.mpr (.inr ⟨a, ha, hn⟩)
      exact ih a ha (fun n hn => hreads n (hnodes n hn)) fun hrandom => hnext (hnodes _ hrandom)

end Related

/-- A property that is passed on holds of every evaluation, if it holds of a draw or there is no
random number in the expression. -/
theorem eval_of_composes [RandomSource ρ] {P : ∀ {α : Type}, Draws ρ α → Prop} (hP : Composes P)
    (view : View) (e : Expr) (h : random ∈ e.nodes → P (next : Draws ρ Float)) :
    P (eval view e : Draws ρ Value) :=
  eval_related hP.relates (fun n _ => view.readsLike_self n) h

end Expr

namespace Draws

variable {α : Type} {x : Draws ρ α} {r r' : ρ}

/-- A computation that draws nothing: its outcome does not depend on the random source, which stays
where it is. -/
def Silent (x : Draws ρ α) : Prop := ∃ outcome, ∀ r, x r = (outcome, r)

theorem Silent.source_eq (h : x.Silent) : (x r).2 = r := by
  obtain ⟨outcome, h⟩ := h
  rw [h]

theorem Silent.outcome_eq (h : x.Silent) : (x r).1 = (x r').1 := by
  obtain ⟨outcome, h⟩ := h
  rw [h, h]

/-- Computations that draw nothing draw nothing one after the other. -/
theorem composes_silent : Composes (Silent (ρ := ρ)) where
  pure a := ⟨.ok a, fun _ => rfl⟩
  fault e := ⟨.error e, fun _ => rfl⟩
  bind := by
    intro α β x f hx hf
    obtain ⟨outcome, hx⟩ := hx
    cases outcome with
    | error e =>
      refine ⟨.error e, fun r => ?_⟩
      rw [bind_apply, hx]
    | ok a =>
      obtain ⟨outcome, hf⟩ := hf a
      refine ⟨outcome, fun r => ?_⟩
      rw [bind_apply, hx]
      exact hf r

end Draws

/-- The evaluation of an expression without random numbers draws nothing. -/
theorem Expr.silent_eval [RandomSource ρ] (view : View) {e : Expr} (h : random ∉ e.nodes) :
    (e.eval view : Draws ρ Value).Silent :=
  eval_of_composes Draws.composes_silent view e fun hrandom => (h hrandom).elim

end IdleGame
