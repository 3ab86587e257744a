import IdleGame.Proofs.Session.Evaluation
import IdleGame.Store.Memory

/-!
# When a session stops at a fault

Whatever is authored, evaluation comes to a value unless it reaches a clamp with a bound that is
not a number: all other operators have a value for every operand. A call of a session does nothing
that can fail but evaluate, so it comes to an answer unless it reaches such a clamp.

## Main results

* `Session.answers_iff_clamps_ordered` - evaluation has a value, and a call has an answer, exactly
  when no clamp to an unordered bound is reached
-/

namespace IdleGame

open Relation (ReflTransGen)

variable {ρ σ : Type} [RandomSource ρ]

theorem Expr.eval_ok_iff {view : View} {e : Expr} {r : ρ} :
    (∃ v, (e.eval view r).1 = .ok v) ↔
      ∀ ev, ReflTransGen Evaluation.Calls ⟨view, e, r⟩ ev → ¬ ev.UnorderedClamp := by
  rw [Outcome.exists_eq_ok_iff]
  constructor
  · intro h ev hreach hclamp
    exact h _ (Evaluation.faults_iff.mpr ⟨rfl, ev, hreach, hclamp⟩)
  · intro h f hf
    have hfaults : (Evaluation.mk view e r).Faults f := hf
    obtain ⟨-, ev, hreach, hclamp⟩ := Evaluation.faults_iff.mp hfaults
    exact h ev hreach hclamp

theorem Session.apply_ok_iff [SaveStore σ] {s : Session ρ σ} {op : Operation} :
    (∃ result, s.apply op = .ok result) ↔
      ∀ ev ev', op.Evaluates s ev → ReflTransGen Evaluation.Calls ev ev' →
        ¬ ev'.UnorderedClamp := by
  rw [Outcome.exists_eq_ok_iff]
  constructor
  · intro h ev ev' hev hreach hclamp
    exact h _ (apply_error_iff.mpr
      ⟨ev, hev, Evaluation.faults_iff.mpr ⟨rfl, ev', hreach, hclamp⟩⟩)
  · intro h f hf
    obtain ⟨ev, hev, hf⟩ := apply_error_iff.mp hf
    obtain ⟨-, ev', hreach, hclamp⟩ := Evaluation.faults_iff.mp hf
    exact h ev ev' hev hreach hclamp

/-- Evaluation has a value, and a call of a session has an answer, exactly when no clamp to a bound
that is not a number is reached. -/
theorem Session.answers_iff_clamps_ordered [SaveStore σ] :
    (∀ (view : View) (e : Expr) (r : ρ),
      (∃ v, (e.eval view r).1 = .ok v) ↔
        ∀ ev, ReflTransGen Evaluation.Calls ⟨view, e, r⟩ ev → ¬ ev.UnorderedClamp) ∧
    ∀ (s : Session ρ σ) (op : Operation),
      (∃ result, s.apply op = .ok result) ↔
        ∀ ev ev', op.Evaluates s ev → ReflTransGen Evaluation.Calls ev ev' →
          ¬ ev'.UnorderedClamp :=
  ⟨fun _ _ _ => Expr.eval_ok_iff, fun _ _ => apply_ok_iff⟩

/-- A clamp to a text that reads as what is not a number. -/
def looseClamp : Expr := .clamp (.lit (.number 1.0)) (.lit (.string "nan")) (.lit (.number 5.0))

/-- A game with a function that writes a variable and then clamps to no number. -/
def looseGame : Game where
  identity := { id := "loose", name := "Loose" }
  functions := Table.ofList
    [("cap", [.set "x" (.lit (.number 1.0)), .set "y" looseClamp])]

/-- A clamp to no number has no value, and a function stops at it after its first write. -/
theorem looseClamp_stops :
    (looseClamp.eval ((World.ofGame looseGame ()).view Table.empty none)
      (Xorshift.ofWord 12345)).1 = .error .unorderedBounds ∧
    (Session.ofGame looseGame (Xorshift.ofWord 12345) MemoryStore.empty).apply
      (.play (.perform "cap" Table.empty)) = .error .unorderedBounds :=
  ⟨rfl, rfl⟩

end IdleGame
