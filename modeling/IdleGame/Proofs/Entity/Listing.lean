import IdleGame.Proofs.Entity.Edit

/-!
# What is looked up in a population

An entity is looked up by its id, and the ids of a kind are looked up in the index. The first is
what was put in last under the id. The second is less sure: a population can be restored from any
list of entities, and where a list gives one id two kinds the id stays listed under both. Whatever
a population has come from, its index lists ids in order, none that is still to be handed out, and
every member under its kind.

## Main definitions

* `Population.IdsBelowNext` - no id is live that is still to be handed out
* `Population.Arises` - a population that has begun empty, or with any entities, and has been edited
* `Population.Listed` - what the index of every population keeps to
* `Population.ListsOnly` - no live entity of another kind is listed under a kind

## Main results

* `Population.get?_spawn`, `Population.get?_remove`, `Population.get?_modify` - what is looked up
  after a change
* `Population.Arises.listed` - every population keeps to its index
* `Population.indexed_iff` - such an index is right when it lists nothing that is not there
-/

namespace IdleGame

section Insertion

variable {e : Entity} {es : List Entity} {id i : EntityId} {ids : List EntityId}

theorem mem_insertId : i ∈ insertId id ids ↔ i = id ∨ i ∈ ids := by
  induction ids with
  | nil => simp [insertId]
  | cons j ids ih =>
    rw [insertId]
    split
    · exact List.mem_cons
    · split
      · rename_i heq
        have hid : id = j := (EntityId.mk.injEq _ _).mpr heq
        simp [hid]
      · rw [List.mem_cons, ih, List.mem_cons]
        exact or_left_comm

/-- Putting an id in its place keeps a list of ids in order. -/
theorem pairwise_insertId (h : ids.Pairwise (·.number < ·.number)) :
    (insertId id ids).Pairwise (·.number < ·.number) := by
  induction ids with
  | nil => exact List.pairwise_singleton _ _
  | cons j ids ih =>
    obtain ⟨hj, hids⟩ := List.pairwise_cons.mp h
    rw [insertId]
    split
    · rename_i hlt
      refine List.pairwise_cons.mpr ⟨fun i hi => ?_, h⟩
      rcases List.mem_cons.mp hi with rfl | hi
      · exact hlt
      · exact Nat.lt_trans hlt (hj i hi)
    · split
      · exact h
      · refine List.pairwise_cons.mpr ⟨fun i hi => ?_, ih hids⟩
        rcases mem_insertId.mp hi with rfl | hi
        · omega
        · exact hj i hi

/-- An entity that is put among others is found under its id, and the rest as before. -/
theorem find?_insertEntity :
    (insertEntity e es).find? (·.id = id) =
      if e.id = id then some e else es.find? (·.id = id) := by
  induction es with
  | nil => by_cases he : e.id = id <;> simp [insertEntity, he]
  | cons a es ih =>
    rw [insertEntity]
    split
    · by_cases he : e.id = id <;> simp [he]
    · split
      · rename_i heq
        have hid : e.id = a.id := (EntityId.mk.injEq _ _).mpr heq
        by_cases he : e.id = id
        · simp [he]
        · simp [he, ← hid]
      -- Behind the first entity, which has another id.
      · rename_i hne
        have hid : a.id ≠ e.id := fun h => hne (congrArg EntityId.number h.symm)
        by_cases ha : a.id = id
        · have he : e.id ≠ id := fun h => hid (ha.trans h.symm)
          simp [ha, he]
        · simp [ha, ih]

end Insertion

namespace Population

variable {p : Population} {e : Entity} {es : List Entity} {id id' : EntityId}
  {ids : List EntityId} {kind kind' : String} {properties : Values} {n : Nat}
  {f : Entity → Entity}

/-! ## Entities -/

theorem get?_enter : (p.enter e).get? id = if e.id = id then some e else p.get? id :=
  find?_insertEntity

theorem get?_spawn :
    (p.spawn kind properties).2.get? id =
      if ⟨p.next⟩ = id then some ⟨⟨p.next⟩, kind, properties⟩ else p.get? id :=
  get?_enter

theorem get?_remove : (p.remove id').2.get? id = if id' = id then none else p.get? id := by
  rcases hget : p.get? id' with _ | e
  · rw [remove_absent (by simp [contains, hget])]
    split
    · exact ‹id' = id› ▸ hget
    · rfl
  · rw [remove_of_get? hget]
    change (p.members.filter (·.id ≠ id')).find? (·.id = id) = _
    rw [List.find?_filter]
    split
    · subst id'
      simp
    · rename_i hne
      refine congrArg (List.find? · p.members) (funext fun f => ?_)
      by_cases hf : f.id = id
      · simp [hf, Ne.symm hne]
      · simp [hf]

/-- A change that keeps ids is found where it is made, and nowhere else. -/
theorem get?_modify (hid : ∀ e, (f e).id = e.id) :
    (p.modify id' f).get? id = if id' = id then (p.get? id).map f else p.get? id := by
  have hid' : ∀ e : Entity, (if e.id = id' then f e else e).id = e.id := by
    intro e
    split
    · exact hid e
    · rfl
  change (p.members.map fun e => if e.id = id' then f e else e).find? (·.id = id) = _
  rw [List.find?_map]
  simp only [Function.comp_def, hid']
  change (p.get? id).map _ = _
  rcases hget : p.get? id with _ | e
  · simp
  · obtain ⟨-, rfl⟩ := get?_eq_some hget
    by_cases heq : e.id = id'
    · simp [heq]
    · simp [heq, Ne.symm heq]

theorem contains_iff : p.contains id ↔ ∃ e, p.get? id = some e := Option.isSome_iff_exists

theorem contains_iff_mem : p.contains id ↔ ∃ e ∈ p.members, e.id = id := by
  simp [contains, get?, List.find?_isSome]

theorem contains_spawn :
    (p.spawn kind properties).2.contains id ↔ p.contains id ∨ id = ⟨p.next⟩ := by
  rw [contains, get?_spawn]
  split
  · simp [← ‹_ = id›]
  · simp [contains, Ne.symm ‹_›]

theorem contains_remove : (p.remove id').2.contains id ↔ p.contains id ∧ id ≠ id' := by
  rw [contains, get?_remove]
  split
  · simp [← ‹_ = id›]
  · simp [contains, Ne.symm ‹_›]

/-- A change that keeps ids keeps everybody alive. -/
theorem contains_modify (hid : ∀ e, (f e).id = e.id) :
    (p.modify id' f).contains id = p.contains id := by
  rw [contains, get?_modify hid]
  split
  · exact Option.isSome_map
  · rfl

/-- The ids of all entities are below the next one. -/
def IdsBelowNext (p : Population) : Prop := ∀ e ∈ p.members, e.id.number < p.next

instance {p : Population} : Decidable p.IdsBelowNext :=
  inferInstanceAs (Decidable (∀ e ∈ p.members, e.id.number < p.next))

theorem IdsBelowNext.lt_next (h : p.IdsBelowNext) (hid : p.contains id) : id.number < p.next := by
  obtain ⟨e, he, rfl⟩ := contains_iff_mem.mp hid
  exact h e he

/-! ## The index -/

theorem idsOfKind_spawn :
    (p.spawn kind properties).2.idsOfKind kind' =
      if kind = kind' then insertId ⟨p.next⟩ (p.idsOfKind kind') else p.idsOfKind kind' :=
  idsOfKind_enter

/-- Nothing gets onto the lists of the index by a removal. -/
theorem idsOfKind_remove_sublist : ((p.remove id).2.idsOfKind kind).Sublist (p.idsOfKind kind) := by
  rcases hget : p.get? id with _ | e
  · have habsent : p.remove id = (none, p) := remove_absent (by simp [contains, hget])
    exact habsent ▸ .refl _
  · rw [idsOfKind_remove hget]
    split
    · exact List.filter_sublist
    · exact .refl _

/-- What is listed under a kind, after entities have been put in one after the other. -/
theorem mem_idsOfKind_foldl_enter :
    id ∈ (es.foldl enter p).idsOfKind kind ↔
      id ∈ p.idsOfKind kind ∨ ∃ e ∈ es, e.id = id ∧ e.kind = kind := by
  induction es generalizing p with
  | nil => simp
  | cons a es ih =>
    have henter : id ∈ (p.enter a).idsOfKind kind ↔
        id ∈ p.idsOfKind kind ∨ a.id = id ∧ a.kind = kind := by
      rw [idsOfKind_enter]
      split
      · rename_i hkind
        rw [mem_insertId, or_comm, eq_comm (a := id), and_iff_left hkind]
      · rename_i hkind
        rw [or_iff_left fun h => hkind h.2]
    rw [List.foldl_cons, ih, henter]
    simp only [List.mem_cons, exists_eq_or_imp, or_assoc]

/-- Every kind that an id is listed with is in the index of a restored population. -/
theorem mem_idsOfKind_restore :
    id ∈ (restore es n).idsOfKind kind ↔ ∃ e ∈ es, e.id = id ∧ e.kind = kind :=
  mem_idsOfKind_foldl_enter.trans (or_iff_right List.not_mem_nil)

/-- The index lists ids in order, none that is still to be handed out, and every member under its
kind. -/
structure Listed (p : Population) : Prop where
  increasing : ∀ kind, (p.idsOfKind kind).Pairwise (·.number < ·.number)
  below : ∀ kind, ∀ id ∈ p.idsOfKind kind, id.number < p.next
  complete : ∀ e ∈ p.members, e.id ∈ p.idsOfKind e.kind

/-- Of the live entities only those of a kind are listed under it. -/
def ListsOnly (p : Population) (kind : String) : Prop :=
  ∀ id ∈ p.idsOfKind kind, ∀ e, p.get? id = some e → e.kind = kind

/-- An index that keeps to its members is right when everything that it lists is there, with that
kind. -/
theorem indexed_iff (h : p.Ordered) (hlisted : p.Listed) :
    p.Indexed ↔
      ∀ kind, ∀ id ∈ p.idsOfKind kind, ∃ e ∈ p.members, e.id = id ∧ e.kind = kind := by
  constructor
  · intro hindexed kind id hid
    rw [hindexed kind, List.mem_map] at hid
    obtain ⟨e, he, rfl⟩ := hid
    obtain ⟨he, hkind⟩ := List.mem_filter.mp he
    exact ⟨e, he, rfl, of_decide_eq_true hkind⟩
  · intro hthere kind
    -- Two lists of the same ids, both in order, are the same.
    have hmembers : ((p.members.filter (·.kind = kind)).map Entity.id).Pairwise
        (·.number < ·.number) := by
      rw [List.pairwise_map]
      exact h.members.filter _
    have hnodup {ids : List EntityId} (hids : ids.Pairwise (·.number < ·.number)) : ids.Nodup :=
      hids.imp fun hlt heq => Nat.ne_of_lt hlt (congrArg EntityId.number heq)
    have hperm : (p.idsOfKind kind).Perm ((p.members.filter (·.kind = kind)).map Entity.id) := by
      refine (List.perm_ext_iff_of_nodup (hnodup (hlisted.increasing kind)) (hnodup hmembers)).mpr
        fun id => ?_
      simp only [List.mem_map, List.mem_filter, decide_eq_true_eq]
      constructor
      · intro hid
        obtain ⟨e, he, rfl, hkind⟩ := hthere kind id hid
        exact ⟨e, ⟨he, hkind⟩, rfl⟩
      · rintro ⟨e, ⟨he, rfl⟩, rfl⟩
        exact hlisted.complete e he
    refine hperm.eq_of_pairwise (fun i j _ _ hij hji => ?_) (hlisted.increasing kind) hmembers
    exact absurd hij (Nat.lt_asymm hji)

theorem listsOnly_of_indexed (h : p.Indexed) (hordered : p.Ordered) : p.ListsOnly kind := by
  intro id hid e hget
  rw [h kind, List.mem_map] at hid
  obtain ⟨f, hf, rfl⟩ := hid
  obtain ⟨hf, hkind⟩ := List.mem_filter.mp hf
  obtain ⟨he, hid⟩ := get?_eq_some hget
  obtain rfl : e = f := eq_of_id_eq hordered.members he hf hid
  exact of_decide_eq_true hkind

theorem listed_empty : empty.Listed := ⟨fun _ => .nil, nofun, nofun⟩

theorem increasing_foldl_enter (h : ∀ kind, (p.idsOfKind kind).Pairwise (·.number < ·.number)) :
    ((es.foldl enter p).idsOfKind kind).Pairwise (·.number < ·.number) := by
  induction es generalizing p with
  | nil => exact h kind
  | cons a es ih =>
    refine ih fun kind => ?_
    rw [idsOfKind_enter]
    split
    · exact pairwise_insertId (h kind)
    · exact h kind

theorem listed_restore : (restore es n).Listed where
  increasing _ := increasing_foldl_enter fun _ => .nil
  below kind id hid := by
    obtain ⟨e, he, rfl, -⟩ := mem_idsOfKind_restore.mp hid
    exact lt_next_restore he
  complete e he := by
    rcases mem_foldl_enter he with he | he
    · cases he
    · exact mem_idsOfKind_restore.mpr ⟨e, he, rfl, rfl⟩

theorem listed_spawn (h : p.Listed) : (p.spawn kind properties).2.Listed where
  increasing kind' := by
    rw [idsOfKind_spawn]
    split
    · exact pairwise_insertId (h.increasing kind')
    · exact h.increasing kind'
  below kind' id hid := by
    change id.number < p.next + 1
    rw [idsOfKind_spawn] at hid
    split at hid
    · rcases mem_insertId.mp hid with rfl | hid
      · exact Nat.lt_succ_self _
      · exact Nat.lt_succ_of_lt (h.below kind' id hid)
    · exact Nat.lt_succ_of_lt (h.below kind' id hid)
  complete e he := by
    rw [idsOfKind_spawn]
    rcases mem_insertEntity he with rfl | he
    · rw [if_pos rfl]
      exact mem_insertId.mpr (.inl rfl)
    · split
      · exact mem_insertId.mpr (.inr (h.complete e he))
      · exact h.complete e he

theorem listed_remove (h : p.Listed) : (p.remove id).2.Listed where
  increasing kind := (h.increasing kind).sublist idsOfKind_remove_sublist
  below kind id' hid' := by
    rw [next_remove]
    exact h.below kind id' (idsOfKind_remove_sublist.subset hid')
  complete e he := by
    have hlisted := h.complete e ((members_remove p id).subset he)
    rcases hget : p.get? id with _ | e'
    · rw [remove_absent (by simp [contains, hget])]
      exact hlisted
    · rw [remove_of_get? hget] at he
      rw [idsOfKind_remove hget]
      split
      · exact List.mem_filter.mpr ⟨hlisted, (List.mem_filter.mp he).2⟩
      · exact hlisted

theorem listed_modify (hid : ∀ e, (f e).id = e.id) (hkind : ∀ e, (f e).kind = e.kind)
    (h : p.Listed) : (p.modify id f).Listed where
  increasing := h.increasing
  below := h.below
  complete e he := by
    obtain ⟨e', he', rfl⟩ := List.mem_map.mp he
    change _ ∈ p.idsOfKind _
    split
    · rw [hid, hkind]
      exact h.complete e' he'
    · exact h.complete e' he'

theorem listed_clear : p.clear.Listed := ⟨fun _ => .nil, nofun, nofun⟩

/-! ## Where populations come from -/

/-- A population that has begun empty, or with entities from any list, and has then been edited. -/
inductive Arises : Population → Prop
  | new : Arises empty
  | restored (es : List Entity) (n : Nat) : Arises (restore es n)
  | edited {p : Population} (h : Arises p) (edit : Edit) : Arises (p.edit edit)

theorem listed_edit (edit : Edit) (h : p.Listed) : (p.edit edit).Listed := by
  cases edit with
  | spawn kind properties => exact listed_spawn h
  | remove id => exact listed_remove h
  | patch id properties => exact listed_modify (fun _ => rfl) (fun _ => rfl) h
  | rewrite id f => exact listed_modify (fun _ => rfl) (fun _ => rfl) h
  | clear => exact listed_clear

namespace Arises

theorem ordered (h : p.Arises) : p.Ordered := by
  induction h with
  | new => exact ordered_empty
  | restored => exact ordered_restore
  | edited _ edit ih => exact ordered_edit edit ih

theorem idsBelowNext (h : p.Arises) : p.IdsBelowNext := h.ordered.below

theorem listed (h : p.Arises) : p.Listed := by
  induction h with
  | new => exact listed_empty
  | restored => exact listed_restore
  | edited _ edit ih => exact listed_edit edit ih

end Arises

end Population

end IdleGame
