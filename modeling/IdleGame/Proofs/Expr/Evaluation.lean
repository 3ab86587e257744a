import IdleGame.Proofs.Float.Order
import IdleGame.Proofs.Outcome
import Mathlib.Logic.Relation

/-!
# Which subexpressions are evaluated, and when evaluation stops at a fault

Operands are evaluated from left to right and branches only as far as they decide, so which
subexpressions are evaluated, and at which position of the random source, depends on the values of
those before. `Evaluation.Calls` says it one level down: which parts an evaluation starts, each
with the source as it is then. Its closure reaches everything that is evaluated.

## Main definitions

* `Evaluation` - an expression about to be evaluated against a view and a source
* `Evaluation.Calls` - one evaluation starts another
* `Evaluation.UnorderedClamp` - a clamp to a bound that turns out not to be a number
* `Expr.InTurn` - the evaluations of a list of expressions, one after the other

## Main results

* `Evaluation.Faults.source` - where the fault of an evaluation comes from, one level down
* `Evaluation.faults_iff` - an evaluation stops at a fault exactly when it reaches an unordered
  clamp
-/

namespace IdleGame

open Relation (ReflTransGen)

variable {ρ : Type}

namespace Expr

theorem mem_nodes_self (e : Expr) : e ∈ e.nodes := by
  cases e <;> simp [nodes]

@[simp] theorem nodesOfAll_append (es es' : List Expr) :
    nodesOfAll (es ++ es') = nodesOfAll es ++ nodesOfAll es' := by
  induction es with
  | nil => rfl
  | cons e es ih => simp [nodesOfAll, ih]

end Expr

/-- An expression about to be evaluated against a view, at a position of the random source. -/
structure Evaluation (ρ : Type) where
  view : View
  expr : Expr
  source : ρ

variable [RandomSource ρ]

namespace Evaluation

/-- What the evaluation gives, and the source that it leaves behind. -/
def outcome (ev : Evaluation ρ) : Except Fault Value × ρ := ev.expr.eval ev.view ev.source

/-- The evaluation stops at a fault. -/
def Faults (ev : Evaluation ρ) (f : Fault) : Prop := ev.outcome.1 = .error f

/-- One evaluation starts another, of one of its parts. The operands before a part have been
evaluated by then, which says where the source stands and that the part is needed at all. -/
inductive Calls : Evaluation ρ → Evaluation ρ → Prop
  | operand {view r r' op before e after v}
      (h : Expr.eval view (.arithmetic op before) r = (.ok v, r')) :
      Calls ⟨view, .arithmetic op (before ++ e :: after), r⟩ ⟨view, e, r'⟩
  | base {view r base exponent} : Calls ⟨view, .pow base exponent, r⟩ ⟨view, base, r⟩
  | exponent {view r r' base exponent v} (h : Expr.eval view base r = (.ok v, r')) :
      Calls ⟨view, .pow base exponent, r⟩ ⟨view, exponent, r'⟩
  | rounded {view r op e} : Calls ⟨view, .rounding op e, r⟩ ⟨view, e, r⟩
  | clamped {view r x low high} : Calls ⟨view, .clamp x low high, r⟩ ⟨view, x, r⟩
  | low {view r r' x low high v} (h : Expr.eval view x r = (.ok v, r')) :
      Calls ⟨view, .clamp x low high, r⟩ ⟨view, low, r'⟩
  | high {view r r' r'' x low high v l} (h : Expr.eval view x r = (.ok v, r'))
      (hlow : Expr.eval view low r' = (.ok l, r'')) :
      Calls ⟨view, .clamp x low high, r⟩ ⟨view, high, r''⟩
  | left {view r op left right} : Calls ⟨view, .comparison op left right, r⟩ ⟨view, left, r⟩
  | right {view r r' op left right v} (h : Expr.eval view left r = (.ok v, r')) :
      Calls ⟨view, .comparison op left right, r⟩ ⟨view, right, r'⟩
  | conjunct {view r r' before e after}
      (h : Expr.eval view (.all before) r = (.ok (.bool true), r')) :
      Calls ⟨view, .all (before ++ e :: after), r⟩ ⟨view, e, r'⟩
  | disjunct {view r r' before e after}
      (h : Expr.eval view (.any before) r = (.ok (.bool false), r')) :
      Calls ⟨view, .any (before ++ e :: after), r⟩ ⟨view, e, r'⟩
  | negated {view r e} : Calls ⟨view, .not e, r⟩ ⟨view, e, r⟩
  | condition {view r condition yes no} :
      Calls ⟨view, .choice condition yes no, r⟩ ⟨view, condition, r⟩
  | chosen {view r r' condition yes no v} (h : Expr.eval view condition r = (.ok v, r')) :
      Calls ⟨view, .choice condition yes no, r⟩ ⟨view, if v.isTruthy then yes else no, r'⟩

/-- A clamp whose three operands have values, one of the bounds being no number. -/
inductive UnorderedClamp : Evaluation ρ → Prop
  | intro {view r r₁ r₂ r₃ x low high v l h} (hx : Expr.eval view x r = (.ok v, r₁))
      (hlow : Expr.eval view low r₁ = (.ok l, r₂)) (hhigh : Expr.eval view high r₂ = (.ok h, r₃))
      (hnan : l.toNumber.isNaN ∨ h.toNumber.isNaN) :
      UnorderedClamp ⟨view, .clamp x low high, r⟩

/-- An evaluation only starts evaluations of smaller expressions. -/
theorem Calls.size_lt {ev ev' : Evaluation ρ} (h : ev.Calls ev') :
    sizeOf ev'.expr < sizeOf ev.expr := by
  cases h with
  | @operand _ _ _ _ before e after =>
    have := List.sizeOf_lt_of_mem (show e ∈ before ++ e :: after by simp)
    simp only [Expr.arithmetic.sizeOf_spec]
    omega
  | @conjunct _ _ _ before e after =>
    have := List.sizeOf_lt_of_mem (show e ∈ before ++ e :: after by simp)
    simp only [Expr.all.sizeOf_spec]
    omega
  | @disjunct _ _ _ before e after =>
    have := List.sizeOf_lt_of_mem (show e ∈ before ++ e :: after by simp)
    simp only [Expr.any.sizeOf_spec]
    omega
  | chosen =>
    simp only [Expr.choice.sizeOf_spec]
    split <;> omega
  | _ => simp <;> omega

/-- Evaluations read what their starter reads. -/
theorem Calls.view_eq {ev ev' : Evaluation ρ} (h : ev.Calls ev') : ev'.view = ev.view := by
  cases h <;> rfl

end Evaluation

namespace Expr

variable {view : View} {op : Arithmetic} {r r' : ρ} {es : List Expr} {f : Fault}

/-- Combining operands faults at the first of them that does. -/
theorem evalFrom_error_iff {acc : Float} :
    (evalFrom view op acc es r).1 = .error f ↔
      ∃ before e after acc' r', es = before ++ e :: after ∧
        evalFrom view op acc before r = (.ok acc', r') ∧ (e.eval view r').1 = .error f := by
  induction es generalizing acc r with
  | nil => simp [evalFrom]
  | cons e es ih =>
    rw [evalFrom, Draws.bind_error_iff]
    constructor
    · rintro (h | ⟨v, r₁, hv, h⟩)
      · exact ⟨[], e, es, acc, r, rfl, rfl, h⟩
      · obtain ⟨before, e', after, acc', r', rfl, hbefore, h⟩ := ih.mp h
        refine ⟨e :: before, e', after, acc', r', rfl, ?_, h⟩
        rw [evalFrom, Draws.bind_ok_iff]
        exact ⟨v, r₁, hv, hbefore⟩
    · rintro ⟨before, e', after, acc', r', hes, hbefore, h⟩
      rcases before with _ | ⟨e₁, before⟩
      · obtain ⟨rfl, rfl⟩ := List.cons.inj hes
        obtain ⟨-, rfl⟩ := Prod.mk.inj hbefore
        exact .inl h
      · obtain ⟨rfl, rfl⟩ := List.cons.inj hes
        rw [evalFrom, Draws.bind_ok_iff] at hbefore
        obtain ⟨v, r₁, hv, hbefore⟩ := hbefore
        exact .inr ⟨v, r₁, hv, ih.mpr ⟨before, e', after, acc', r', rfl, hbefore, h⟩⟩

/-- Conditions asked up to the first whose truth is `stop`. -/
def evalUntil (view : View) (stop : Bool) : List Expr → Draws ρ Bool
  | [] => pure !stop
  | e :: es => do
    if (← eval view e).isTruthy = stop then pure stop else evalUntil view stop es

theorem evalAll_eq_evalUntil : (evalAll view es : Draws ρ Bool) = evalUntil view false es := by
  induction es with
  | nil => rfl
  | cons e es ih =>
    rw [evalAll, evalUntil]
    congr 1
    funext v
    cases v.isTruthy <;> simp [ih]

theorem evalAny_eq_evalUntil : (evalAny view es : Draws ρ Bool) = evalUntil view true es := by
  induction es with
  | nil => rfl
  | cons e es ih =>
    rw [evalAny, evalUntil]
    congr 1
    funext v
    cases v.isTruthy <;> simp [ih]

/-- Asking conditions faults at one that is asked because none before it stops the asking. -/
theorem evalUntil_error_iff {stop : Bool} :
    (evalUntil view stop es r).1 = .error f ↔
      ∃ before e after r', es = before ++ e :: after ∧
        evalUntil view stop before r = (.ok !stop, r') ∧ (e.eval view r').1 = .error f := by
  induction es generalizing r with
  | nil => simp [evalUntil]
  | cons e es ih =>
    rw [evalUntil, Draws.bind_error_iff]
    constructor
    · rintro (h | ⟨v, r₁, hv, h⟩)
      · exact ⟨[], e, es, r, rfl, rfl, h⟩
      -- A condition that stops the asking leaves nothing that could fault.
      · split at h
        · cases h
        · obtain ⟨before, e', after, r', rfl, hbefore, h⟩ := ih.mp h
          refine ⟨e :: before, e', after, r', rfl, ?_, h⟩
          rw [evalUntil, Draws.bind_ok_iff]
          exact ⟨v, r₁, hv, by rwa [if_neg ‹_›]⟩
    · rintro ⟨before, e', after, r', hes, hbefore, h⟩
      rcases before with _ | ⟨e₁, before⟩
      · obtain ⟨rfl, rfl⟩ := List.cons.inj hes
        obtain ⟨-, rfl⟩ := Prod.mk.inj hbefore
        exact .inl h
      · obtain ⟨rfl, rfl⟩ := List.cons.inj hes
        rw [evalUntil, Draws.bind_ok_iff] at hbefore
        obtain ⟨v, r₁, hv, hbefore⟩ := hbefore
        split at hbefore
        · simp at hbefore
        · refine .inr ⟨v, r₁, hv, ?_⟩
          rw [if_neg ‹_›]
          exact ih.mpr ⟨before, e', after, r', rfl, hbefore, h⟩

/-- An operation faults at the first operand that does; those before it have a result. -/
theorem eval_arithmetic_error_iff :
    (eval view (.arithmetic op es) r).1 = .error f ↔
      ∃ before e after v r', es = before ++ e :: after ∧
        eval view (.arithmetic op before) r = (.ok v, r') ∧ (e.eval view r').1 = .error f := by
  constructor
  · intro h
    rcases es with _ | ⟨e, es⟩
    · simp [eval] at h
    rw [eval, Draws.bind_error_iff] at h
    -- The first operand stands alone: it is where the result starts from.
    rcases h with h | ⟨v, r₁, hv, h⟩
    · exact ⟨[], e, es, _, r, rfl, by rw [eval]; rfl, h⟩
    · obtain ⟨before, e', after, acc, r', rfl, hbefore, h⟩ :=
        evalFrom_error_iff.mp (Draws.map_error_iff.mp h)
      refine ⟨e :: before, e', after, .number acc, r', rfl, ?_, h⟩
      rw [eval, Draws.bind_ok_iff]
      exact ⟨v, r₁, hv, Draws.map_ok_iff.mpr ⟨acc, hbefore, rfl⟩⟩
  · rintro ⟨before, e, after, v, r', rfl, hbefore, h⟩
    rcases before with _ | ⟨e₁, before⟩
    · obtain ⟨-, rfl⟩ := Prod.mk.inj (by simpa [eval] using hbefore)
      rw [List.nil_append, eval, Draws.bind_error_iff]
      exact .inl h
    · rw [eval, Draws.bind_ok_iff] at hbefore
      obtain ⟨v₁, r₁, hv, hbefore⟩ := hbefore
      obtain ⟨acc, hbefore, -⟩ := Draws.map_ok_iff.mp hbefore
      have hlater := evalFrom_error_iff.mpr ⟨before, e, after, acc, r', rfl, hbefore, h⟩
      rw [List.cons_append, eval, Draws.bind_error_iff]
      exact .inr ⟨v₁, r₁, hv, Draws.map_error_iff.mpr hlater⟩

/-- A conjunction faults at a part that is asked because all before it hold. -/
theorem eval_all_error_iff :
    (eval view (.all es) r).1 = .error f ↔
      ∃ before e after r', es = before ++ e :: after ∧
        eval view (.all before) r = (.ok (.bool true), r') ∧ (e.eval view r').1 = .error f := by
  rw [eval, Draws.map_error_iff, evalAll_eq_evalUntil, evalUntil_error_iff]
  simp only [eval, Draws.map_ok_iff, evalAll_eq_evalUntil, Value.bool.injEq, exists_eq_right,
    Bool.not_false]

/-- A disjunction faults at a part that is asked because none before it holds. -/
theorem eval_any_error_iff :
    (eval view (.any es) r).1 = .error f ↔
      ∃ before e after r', es = before ++ e :: after ∧
        eval view (.any before) r = (.ok (.bool false), r') ∧ (e.eval view r').1 = .error f := by
  rw [eval, Draws.map_error_iff, evalAny_eq_evalUntil, evalUntil_error_iff]
  simp only [eval, Draws.map_ok_iff, evalAny_eq_evalUntil, Value.bool.injEq, exists_eq_right,
    Bool.not_true]

end Expr

namespace Evaluation

open IdleGame.Expr

variable {ev ev' : Evaluation ρ} {f : Fault}

/-- A fault of a part that is evaluated is a fault of the whole. -/
theorem Calls.faults (h : ev.Calls ev') (hf : ev'.Faults f) : ev.Faults f := by
  unfold Faults outcome at *
  cases h with
  | operand h => exact eval_arithmetic_error_iff.mpr ⟨_, _, _, _, _, rfl, h, hf⟩
  | base =>
    rw [eval, Draws.bind_error_iff]
    exact .inl hf
  | exponent h =>
    rw [eval, Draws.bind_error_iff]
    exact .inr ⟨_, _, h, Draws.map_error_iff.mpr hf⟩
  | rounded =>
    rw [eval]
    exact Draws.map_error_iff.mpr hf
  | clamped =>
    rw [eval, Draws.bind_error_iff]
    exact .inl hf
  | low h =>
    rw [eval, Draws.bind_error_iff]
    exact .inr ⟨_, _, h, Draws.bind_error_iff.mpr (.inl hf)⟩
  | high h hlow =>
    rw [eval, Draws.bind_error_iff]
    exact .inr ⟨_, _, h, Draws.bind_error_iff.mpr <|
      .inr ⟨_, _, hlow, Draws.bind_error_iff.mpr (.inl hf)⟩⟩
  | left =>
    rw [eval, Draws.bind_error_iff]
    exact .inl hf
  | right h =>
    rw [eval, Draws.bind_error_iff]
    exact .inr ⟨_, _, h, Draws.map_error_iff.mpr hf⟩
  | conjunct h => exact eval_all_error_iff.mpr ⟨_, _, _, _, rfl, h, hf⟩
  | disjunct h => exact eval_any_error_iff.mpr ⟨_, _, _, _, rfl, h, hf⟩
  | negated =>
    rw [eval]
    exact Draws.map_error_iff.mpr hf
  | condition =>
    rw [eval, Draws.bind_error_iff]
    exact .inl hf
  | @chosen view r r' condition yes no v h =>
    rw [eval, Draws.bind_error_iff]
    refine .inr ⟨v, r', h, ?_⟩
    split <;> simp_all

theorem UnorderedClamp.faults (h : ev.UnorderedClamp) : ev.Faults .unorderedBounds := by
  obtain ⟨hx, hlow, hhigh, hnan⟩ := h
  unfold Faults outcome
  rw [eval, Draws.bind_error_iff]
  refine .inr ⟨_, _, hx, Draws.bind_error_iff.mpr <| .inr ⟨_, _, hlow, ?_⟩⟩
  refine Draws.bind_error_iff.mpr <| .inr ⟨_, _, hhigh, ?_⟩
  rw [(clamp?_eq_none_iff _ _ _).mpr hnan]
  rfl

/-- An evaluation that faults is a clamp to an unordered bound, or has started one that faults. -/
theorem Faults.source (h : ev.Faults f) :
    (f = .unorderedBounds ∧ ev.UnorderedClamp) ∨ ∃ ev', ev.Calls ev' ∧ ev'.Faults f := by
  obtain ⟨view, e, r⟩ := ev
  change (e.eval view r).1 = .error f at h
  cases e with
  | lit | ref | flag | param | prop | count | always => simp [eval] at h
  | random =>
    rw [eval, Draws.map_error_iff] at h
    simp [Draws.next] at h
  | arithmetic op es =>
    obtain ⟨before, e, after, v, r', rfl, hbefore, h⟩ := eval_arithmetic_error_iff.mp h
    exact .inr ⟨_, .operand hbefore, h⟩
  | pow base exponent =>
    right
    rw [eval, Draws.bind_error_iff] at h
    rcases h with h | ⟨v, r₁, hv, h⟩
    · exact ⟨_, .base, h⟩
    · exact ⟨_, .exponent hv, Draws.map_error_iff.mp h⟩
  | rounding op e =>
    rw [eval, Draws.map_error_iff] at h
    exact .inr ⟨_, .rounded, h⟩
  | clamp x low high =>
    rw [eval, Draws.bind_error_iff] at h
    rcases h with h | ⟨v, r₁, hx, h⟩
    · exact .inr ⟨_, .clamped, h⟩
    rcases Draws.bind_error_iff.mp h with h | ⟨l, r₂, hlow, h⟩
    · exact .inr ⟨_, .low hx, h⟩
    rcases Draws.bind_error_iff.mp h with h | ⟨b, r₃, hhigh, h⟩
    · exact .inr ⟨_, .high hx hlow, h⟩
    -- All three operands have values: only the comparison of the bounds can fail.
    rcases hclamp : clamp? v.toNumber l.toNumber b.toNumber with _ | y
    · rw [hclamp] at h
      obtain rfl := Except.error.inj h
      exact .inl ⟨rfl, .intro hx hlow hhigh ((clamp?_eq_none_iff _ _ _).mp hclamp)⟩
    · rw [hclamp] at h
      cases h
  | comparison op left right =>
    right
    rw [eval, Draws.bind_error_iff] at h
    rcases h with h | ⟨v, r₁, hv, h⟩
    · exact ⟨_, .left, h⟩
    · exact ⟨_, .right hv, Draws.map_error_iff.mp h⟩
  | all es =>
    obtain ⟨before, e, after, r', rfl, hbefore, h⟩ := eval_all_error_iff.mp h
    exact .inr ⟨_, .conjunct hbefore, h⟩
  | any es =>
    obtain ⟨before, e, after, r', rfl, hbefore, h⟩ := eval_any_error_iff.mp h
    exact .inr ⟨_, .disjunct hbefore, h⟩
  | not e =>
    rw [eval, Draws.map_error_iff] at h
    exact .inr ⟨_, .negated, h⟩
  | choice c yes no =>
    right
    rw [eval, Draws.bind_error_iff] at h
    rcases h with h | ⟨v, r₁, hv, h⟩
    · exact ⟨_, .condition, h⟩
    · refine ⟨_, .chosen hv, ?_⟩
      unfold Faults outcome
      split at h <;> simp_all

/-- An evaluation stops at a fault exactly when it reaches a clamp to an unordered bound. -/
theorem faults_iff :
    ev.Faults f ↔
      f = .unorderedBounds ∧ ∃ ev', ReflTransGen Calls ev ev' ∧ ev'.UnorderedClamp := by
  constructor
  · intro h
    -- An expression that has started another is larger than it, so the search ends.
    induction hsize : sizeOf ev.expr using Nat.strongRecOn generalizing ev with
    | _ n ih =>
      rcases h.source with ⟨rfl, hclamp⟩ | ⟨ev', hcall, h'⟩
      · exact ⟨rfl, ev, .refl, hclamp⟩
      · obtain ⟨rfl, ev'', hreach, hclamp⟩ := ih _ (hsize ▸ hcall.size_lt) h' rfl
        exact ⟨rfl, ev'', .head hcall hreach, hclamp⟩
  · rintro ⟨rfl, ev', hreach, hclamp⟩
    induction hreach using ReflTransGen.head_induction_on with
    | refl => exact hclamp.faults
    | head hcall _ ih => exact hcall.faults ih

/-- What an evaluation reaches reads the same view. -/
theorem view_eq_of_reaches (h : ReflTransGen Calls ev ev') : ev'.view = ev.view := by
  induction h with
  | refl => rfl
  | tail _ hcall ih => exact hcall.view_eq.trans ih

theorem Calls.nodes_subset (h : ev.Calls ev') : ev'.expr.nodes ⊆ ev.expr.nodes := by
  intro e he
  cases h with
  | operand | conjunct | disjunct => simp [nodes, nodesOfAll, he]
  | chosen =>
    dsimp only at he
    split at he <;> simp [nodes, he]
  | _ => simp [nodes, he]

/-- Only subexpressions are reached. -/
theorem mem_nodes_of_reaches (h : ReflTransGen Calls ev ev') : ev'.expr ∈ ev.expr.nodes := by
  induction h using ReflTransGen.head_induction_on with
  | refl => exact mem_nodes_self _
  | head hcall _ ih => exact hcall.nodes_subset ih

end Evaluation

namespace Expr

variable {view : View} {r : ρ} {ev : Evaluation ρ} {f : Fault}

/-- The evaluations that expressions start that are evaluated one after the other. -/
inductive InTurn (view : View) : List Expr → ρ → Evaluation ρ → Prop
  | head {e es r} : InTurn view (e :: es) r ⟨view, e, r⟩
  | tail {e es r r' v ev} (h : eval view e r = (.ok v, r')) (hlater : InTurn view es r' ev) :
      InTurn view (e :: es) r ev

theorem InTurn.view_eq {es : List Expr} (h : InTurn view es r ev) : ev.view = view := by
  induction h with
  | head => rfl
  | tail _ _ ih => exact ih

theorem InTurn.expr_mem {es : List Expr} (h : InTurn view es r ev) : ev.expr ∈ es := by
  induction h with
  | head => exact List.mem_cons_self
  | tail _ _ ih => exact List.mem_cons_of_mem _ ih

theorem not_inTurn_nil : ¬ InTurn view [] r ev := nofun

theorem inTurn_cons {e : Expr} {es : List Expr} :
    InTurn view (e :: es) r ev ↔
      ev = ⟨view, e, r⟩ ∨ ∃ v r', eval view e r = (.ok v, r') ∧ InTurn view es r' ev := by
  constructor
  · rintro (_ | ⟨h, hlater⟩)
    · exact .inl rfl
    · exact .inr ⟨_, _, h, hlater⟩
  · rintro (rfl | ⟨v, r', h, hlater⟩)
    · exact .head
    · exact .tail h hlater

theorem inTurn_singleton {e : Expr} : InTurn view [e] r ev ↔ ev = ⟨view, e, r⟩ := by
  simp [inTurn_cons, not_inTurn_nil]

/-- Evaluating one expression after the other faults where the first or a later one does. -/
theorem exists_inTurn_cons_faults_iff {e : Expr} {es : List Expr} :
    (∃ ev, InTurn view (e :: es) r ev ∧ ev.Faults f) ↔
      (eval view e r).1 = .error f ∨
        ∃ v r', eval view e r = (.ok v, r') ∧ ∃ ev, InTurn view es r' ev ∧ ev.Faults f := by
  constructor
  · rintro ⟨ev, hturn, hf⟩
    rcases inTurn_cons.mp hturn with rfl | ⟨v, r', h, hlater⟩
    · exact .inl hf
    · exact .inr ⟨v, r', h, ev, hlater, hf⟩
  · rintro (hf | ⟨v, r', h, ev, hlater, hf⟩)
    · exact ⟨_, .head, hf⟩
    · exact ⟨ev, .tail h hlater, hf⟩

/-- Evaluating named expressions faults at the first of them that does. -/
theorem evalEntries_error_iff {es : List (String × Expr)} :
    (evalEntries view es r).1 = .error f ↔
      ∃ ev, InTurn view (es.map Prod.snd) r ev ∧ ev.Faults f := by
  induction es generalizing r with
  | nil => simp [evalEntries, not_inTurn_nil]
  | cons e es ih =>
    rw [evalEntries, Draws.bind_error_iff, List.map_cons, exists_inTurn_cons_faults_iff]
    simp only [Draws.map_error_iff, ih]

end Expr

end IdleGame
