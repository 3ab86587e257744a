import IdleGame.Game
import IdleGame.Proofs.Table

/-!
# The declared variables of a game

While the ids of the declarations are distinct, the initial state and the kinds of a game are the
declarations, entry by entry.

## Main definitions

* `Game.Declares`, `Game.DeclaresNumber` - a variable is declared, as a number

## Main results

* `Game.keys_initialState`, `Game.keys_kinds` - the variables are those that are declared
* `Game.declares_iff`, `Game.declaresNumber_iff` - the kinds tell what is declared
-/

namespace IdleGame.Game

/-- A variable is declared. -/
def Declares (g : Game) (id : String) : Prop := ∃ d ∈ g.declarations, d.id = id

/-- A variable is declared as a number. -/
def DeclaresNumber (g : Game) (id : String) : Prop :=
  ∃ d ∈ g.declarations, d.id = id ∧ d.kind = .number

variable {g : Game} {id : String}

theorem entries_initialState (h : (g.declarations.map VarDecl.id).Nodup) :
    g.initialState.entries = g.declarations.map fun d => (d.id, d.initialValue) :=
  Table.entries_ofList (by simpa [Function.comp_def] using h)

theorem entries_kinds (h : (g.declarations.map VarDecl.id).Nodup) :
    g.kinds.entries = g.declarations.map fun d => (d.id, d.kind) :=
  Table.entries_ofList (by simpa [Function.comp_def] using h)

theorem keys_initialState (h : (g.declarations.map VarDecl.id).Nodup) :
    g.initialState.keys = g.declarations.map VarDecl.id := by
  simp [Table.keys, entries_initialState h, Function.comp_def]

theorem keys_kinds (h : (g.declarations.map VarDecl.id).Nodup) :
    g.kinds.keys = g.declarations.map VarDecl.id := by
  simp [Table.keys, entries_kinds h, Function.comp_def]

theorem kind_initialValue (d : VarDecl) : d.initialValue.kind = d.kind := by
  unfold VarDecl.initialValue
  split
  · exact Value.kind_coerce _ _
  · cases d.kind <;> rfl

section

variable (hnodup : (g.declarations.map VarDecl.id).Nodup)

include hnodup

theorem declares_iff : g.Declares id ↔ id ∈ g.kinds.keys := by
  rw [keys_kinds hnodup, List.mem_map]
  rfl

theorem declaresNumber_iff : g.DeclaresNumber id ↔ g.kinds.get? id = some .number := by
  rw [Table.get?_eq_some_iff, entries_kinds hnodup, List.mem_map]
  simp only [Prod.mk.injEq]
  rfl

end

end IdleGame.Game
