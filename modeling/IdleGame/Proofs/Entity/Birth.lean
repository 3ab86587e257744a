import IdleGame.Proofs.Entity.Population

/-!
# Which ids are handed out

Entities come by being born into a population, with the next id. Whatever else happens to a
population keeps its entities in order and lowers its next id never. So no id is handed out twice,
and none below one that is taken.

## Main definitions

* `Birth` - an id that is handed out, and the population at that moment
* `Population.Grows` - births that lead from one population to another

## Main results

* `Population.Grows.increasing` - the ids that are handed out increase
* `Population.Grows.above` - an id that is handed out is above those of the live entities
-/

namespace IdleGame

/-- The id that an entity is created with, and the population at that moment. -/
structure Birth where
  id : EntityId
  population : Population

namespace Population

/-- The birth of an entity into a population. -/
def birth (p : Population) (kind : String) (properties : Values) : Birth :=
  ⟨(p.spawn kind properties).1, p⟩

/-- Births, one after the other, lead from one population to another. What happens in between
leaves the entities in order and takes back no id. -/
inductive Grows : Population → List Birth → Population → Prop
  | refl {p} : Grows p [] p
  | kept {p p' p'' bs} (hordered : p.Ordered → p'.Ordered) (hnext : p.next ≤ p'.next)
      (hlater : Grows p' bs p'') : Grows p bs p''
  | born {p p' bs kind properties} (hlater : Grows (p.spawn kind properties).2 bs p') :
      Grows p (p.birth kind properties :: bs) p'

namespace Grows

variable {p p' p'' : Population} {bs cs : List Birth}

theorem append (h : p.Grows bs p') (h' : p'.Grows cs p'') : p.Grows (bs ++ cs) p'' := by
  induction h with
  | refl => exact h'
  | kept hordered hnext _ ih => exact .kept hordered hnext (ih h')
  | born _ ih => exact .born (ih h')

/-- Nobody is born. -/
theorem of_kept (hordered : p.Ordered → p'.Ordered) (hnext : p.next ≤ p'.next) : p.Grows [] p' :=
  .kept hordered hnext .refl

theorem of_birth (kind : String) (properties : Values) :
    p.Grows [p.birth kind properties] (p.spawn kind properties).2 :=
  .born .refl

theorem of_modify {id : EntityId} {f : Entity → Entity} (hid : ∀ e, (f e).id = e.id) :
    p.Grows [] (p.modify id f) :=
  .of_kept (ordered_modify hid) (Nat.le_refl _)

theorem of_remove {id : EntityId} : p.Grows [] (p.remove id).2 := by
  refine .of_kept ordered_remove ?_
  unfold remove
  split <;> exact Nat.le_refl _

theorem of_clear : p.Grows [] p.clear := .of_kept (fun _ => ordered_clear) (Nat.le_refl _)

/-- Entities that are restored take no id that has not been taken, if the next one is kept. -/
theorem of_restore {es : List Entity} {n : Nat} (h : p.next ≤ n) : p.Grows [] (restore es n) :=
  .of_kept (fun _ => ordered_restore) (Nat.le_trans h le_next_restore)

theorem next_le (h : p.Grows bs p') : p.next ≤ p'.next := by
  induction h with
  | refl => exact Nat.le_refl _
  | kept _ hnext _ ih => exact Nat.le_trans hnext ih
  | born _ ih => exact Nat.le_of_succ_le ih

/-- The ids that are handed out are not below the next one. -/
theorem next_le_of_mem (h : p.Grows bs p') : ∀ b ∈ bs, p.next ≤ b.id.number := by
  induction h with
  | refl => exact nofun
  | kept _ hnext _ ih => exact fun b hb => Nat.le_trans hnext (ih b hb)
  | born _ ih =>
    intro b hb
    rcases List.mem_cons.mp hb with rfl | hb
    · exact Nat.le_refl _
    · exact Nat.le_of_succ_le (ih b hb)

/-- The ids that are handed out are below the one that comes next. -/
theorem lt_next (h : p.Grows bs p') : ∀ b ∈ bs, b.id.number < p'.next := by
  induction h with
  | refl => exact nofun
  | kept _ _ _ ih => exact ih
  | born hlater ih =>
    intro b hb
    rcases List.mem_cons.mp hb with rfl | hb
    · exact hlater.next_le
    · exact ih b hb

theorem ordered (h : p.Grows bs p') (hp : p.Ordered) : p'.Ordered := by
  induction h with
  | refl => exact hp
  | kept hordered _ _ ih => exact ih (hordered hp)
  | born _ ih => exact ih (ordered_spawn hp)

/-- The ids that are handed out increase. -/
theorem increasing (h : p.Grows bs p') : bs.Pairwise (·.id.number < ·.id.number) := by
  induction h with
  | refl => exact .nil
  | kept _ _ _ ih => exact ih
  | born hlater ih => exact List.pairwise_cons.mpr ⟨hlater.next_le_of_mem, ih⟩

/-- An id that is handed out is above those of the entities that are live at that moment. -/
theorem above (h : p.Grows bs p') (hp : p.Ordered) :
    ∀ b ∈ bs, ∀ e ∈ b.population.members, e.id.number < b.id.number := by
  induction h with
  | refl => exact nofun
  | kept hordered _ _ ih => exact ih (hordered hp)
  | born _ ih =>
    intro b hb
    rcases List.mem_cons.mp hb with rfl | hb
    -- In a population in order the next id is above all members.
    · exact hp.below
    · exact ih (ordered_spawn hp) b hb

end Grows

end Population

end IdleGame
