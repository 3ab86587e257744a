import IdleGame.Proofs.Expr.Composition
import IdleGame.World
import Mathlib.Logic.Relation

/-!
# How worlds change

Whatever the actions of a game do to its world is done in a few ways: a number is drawn, a variable
is written, a message is logged, an entity comes, goes or gets other properties. A property of
worlds that survives each of these survives every run.

## Main definitions

* `Drawn` - a random source after some draws
* `Draws.Steady` - a computation that touches the random source only by drawing
* `World.Change` - one change of a world, given which variables may be written with which values
* `World.Changes` - some changes, one after the other

## Main results

* `Expr.steady_eval` - evaluation only draws
* `World.draw_changes` - a computation on the random source of a world is a change of it
-/

namespace IdleGame

open Relation (ReflTransGen)

variable {ρ α β : Type} [RandomSource ρ]

/-- A random source after some draws. -/
def Drawn : ρ → ρ → Prop := ReflTransGen fun r r' => r' = (RandomSource.next r).2

namespace Draws

/-- A computation that touches the random source only by drawing. -/
def Steady (x : Draws ρ α) : Prop := ∀ r, Drawn r (x r).2

theorem steady_pure (a : α) : Steady (pure a : Draws ρ α) := fun _ => .refl

theorem steady_fault (e : Fault) : Steady (fault e : Draws ρ α) := fun _ => .refl

theorem steady_next : Steady (next : Draws ρ Float) := fun _ => .single rfl

theorem Steady.bind {x : Draws ρ α} {f : α → Draws ρ β} (hx : x.Steady)
    (hf : ∀ a, (f a).Steady) : (x >>= f).Steady := by
  intro r
  have hr := hx r
  rw [bind_apply]
  rcases hxr : x r with ⟨e | a, r'⟩ <;> rw [hxr] at hr
  · exact hr
  · exact hr.trans (hf a r')

theorem composes_steady : Composes (Steady (ρ := ρ)) where
  pure := steady_pure
  fault := steady_fault
  bind := Steady.bind

theorem Steady.map {x : Draws ρ α} {g : α → β} (hx : x.Steady) :
    (do return g (← x) : Draws ρ β).Steady :=
  hx.bind fun _ => steady_pure _

theorem Steady.ite {c : Prop} [Decidable c] {x y : Draws ρ α} (hx : x.Steady) (hy : y.Steady) :
    (if c then x else y).Steady := by
  split
  · exact hx
  · exact hy

end Draws

namespace Expr

open Draws

variable (view : View)

/-- Evaluation touches the random source only by drawing. -/
theorem steady_eval (e : Expr) : (eval view e : Draws ρ Value).Steady :=
  eval_of_composes composes_steady view e fun _ => steady_next

theorem steady_evalEntries (es : List (String × Expr)) :
    (evalEntries view es : Draws ρ (List (String × Value))).Steady := by
  induction es with
  | nil => exact steady_pure _
  | cons e es ih =>
    rw [evalEntries]
    exact (steady_eval view e.2).bind fun _ => ih.map

end Expr

namespace World

/-- One change of a world. What may be written is up to the game. -/
inductive Change (W : String → Value → Prop) : World ρ → World ρ → Prop
  | drawn {w r} (h : Drawn w.random r) : Change W w { w with random := r }
  | written {w id v} (h : W id v) : Change W w (w.write id v)
  | logged {w m} : Change W w { w with log := w.log.push m }
  | spawned {w kind properties} :
      Change W w { w with population := (w.population.spawn kind properties).2 }
  | modified {w id f} (hid : ∀ e : Entity, (f e).id = e.id)
      (hkind : ∀ e : Entity, (f e).kind = e.kind) :
      Change W w { w with population := w.population.modify id f }
  | removed {w id} : Change W w { w with population := (w.population.remove id).2 }

/-- Changes one after the other. -/
def Changes (W : String → Value → Prop) : World ρ → World ρ → Prop :=
  ReflTransGen (Change W)

variable {W W' : String → Value → Prop} {w w' w'' : World ρ}

theorem Change.mono (hW : ∀ id v, W id v → W' id v) (h : w.Change W w') :
    w.Change W' w' := by
  cases h with
  | drawn h => exact .drawn h
  | written h => exact .written (hW _ _ h)
  | logged => exact .logged
  | spawned => exact .spawned
  | modified hid hkind => exact .modified hid hkind
  | removed => exact .removed

/-- More may be written than is. -/
theorem Changes.mono (hW : ∀ id v, W id v → W' id v) (h : w.Changes W w') :
    w.Changes W' w' := by
  induction h with
  | refl => exact .refl
  | tail _ hchange ih => exact ih.tail (hchange.mono hW)

theorem Changes.refl (w : World ρ) : w.Changes W w := ReflTransGen.refl

theorem Changes.trans (h : w.Changes W w') (h' : w'.Changes W w'') :
    w.Changes W w'' :=
  ReflTransGen.trans h h'

theorem Change.changes (h : w.Change W w') : w.Changes W w' := ReflTransGen.single h

/-- What survives every change survives changes one after the other. -/
theorem Changes.preserve {motive : World ρ → Prop}
    (hstep : ∀ w w', w.Change W w' → motive w → motive w') (h : w.Changes W w')
    (hw : motive w) : motive w' := by
  induction h with
  | refl => exact hw
  | tail _ hchange ih => exact hstep _ _ hchange ih

/-- Changes of a world leave its clock as it is. -/
theorem Changes.clock_eq (h : w.Changes W w') : w'.clock = w.clock :=
  h.preserve (motive := fun w' => w'.clock = w.clock)
    (fun _ _ hchange hw => by cases hchange <;> exact hw) rfl

/-- A computation on the random source of a world is a change of the world. -/
theorem draw_changes {x : Draws ρ α} (hx : x.Steady) {a : α} (h : w.draw x = .ok (a, w')) :
    w.Changes W w' := by
  have hr := hx w.random
  unfold draw at h
  rcases hxw : x w.random with ⟨e | a', r⟩
  · simp [hxw] at h
  · rw [hxw] at h hr
    obtain ⟨-, rfl⟩ := Prod.mk.inj (Except.ok.inj h)
    exact (Change.drawn hr).changes

end World

end IdleGame
