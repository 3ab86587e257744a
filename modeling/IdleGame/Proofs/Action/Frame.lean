import IdleGame.Proofs.Action.Change

/-!
# Variables that actions leave alone

What a list of actions can write is read off its actions at all depths. A variable that none of them
names has, after a run, the value that it had before.

## Main definitions

* `Action.written?` - the variable that an action itself writes
* `Action.Avoids` - no action of a list, at any depth, writes a variable

## Main results

* `Action.Avoids.changes` - a run of a list is a sequence of changes of other variables
* `World.Changes.get?_eq` - such changes leave the variable alone
-/

namespace IdleGame

variable {ρ : Type} [RandomSource ρ] {x : String}

/-- Other variables than one are written, with whatever values. -/
def Besides (x : String) (id : String) (_ : Value) : Prop := id ≠ x

/-- Changes of other variables leave a variable alone. -/
theorem World.Changes.get?_eq {w w' : World ρ} (h : w.Changes (Besides x) w') :
    w'.state.get? x = w.state.get? x := by
  refine h.preserve (motive := fun w' => w'.state.get? x = w.state.get? x) ?_ rfl
  intro w₁ w₂ hchange hw
  cases hchange with
  | written hid =>
    refine Eq.trans ?_ hw
    exact (Table.get?_insert _ _ _ _).trans (if_neg hid)
  | _ => exact hw

namespace Action

/-- The variable that an action itself writes. -/
def written? : Action → Option String
  | .set id _ | .add id _ | .multiply id _ => some id
  | .branch .. | .random .. | .message .. | .emit .. | .trigger .. | .spawn .. | .forEach ..
  | .setProp .. | .addProp .. | .despawn => none

/-- No action of a list, at any depth, writes a variable. -/
def Avoids (x : String) (as : List Action) : Prop := ∀ b ∈ nodesOfAll as, b.written? ≠ some x

instance {as : List Action} : Decidable (Avoids x as) :=
  inferInstanceAs (Decidable (∀ b ∈ nodesOfAll as, b.written? ≠ some x))

variable {env : Surroundings} {target : Option EntityId} {as bs : List Action} {s s' : Scope ρ}

theorem Writes.written?_eq {b : Action} {id : String} {v : Value} (h : b.Writes env id v) :
    b.written? = some id := by
  cases h <;> rfl

/-- A run of a list that avoids a variable changes other variables only. -/
theorem Avoids.changes (h : Avoids x as) (hrun : runAll env target as s = .ok s') :
    s.world.Changes (Besides x) s'.world := by
  refine (runAll_changes hrun).mono ?_
  rintro id v ⟨b, hb, hwrites⟩ rfl
  exact h b hb hwrites.written?_eq

/-- The actions of two lists run one after the other. -/
theorem runAll_append :
    runAll env target (as ++ bs) s =
      runAll env target as s >>= fun s' => runAll env target bs s' := by
  induction as generalizing s with
  | nil => rfl
  | cons a as ih =>
    simp only [List.cons_append, runAll]
    rcases run env target a s with f | s'
    · rfl
    · exact ih

end Action

end IdleGame
