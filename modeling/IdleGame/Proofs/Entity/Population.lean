import IdleGame.Entity.Population
import IdleGame.Proofs.Table

/-!
# Populations in order

The members of a population stand by increasing id below the next one, and the index lists the ids
of the members of each kind. All changes keep it so, and a population restored from its members is
the same again.

## Main definitions

* `Population.Ordered` - increasing ids, all below the next one
* `Population.Indexed` - the index lists the members of each kind

## Main results

* `Population.ordered_spawn`, `Population.ordered_remove`, `Population.ordered_modify`,
  `Population.ordered_restore` - the order is kept, and any list restores to it
* `Population.indexed_spawn`, `Population.indexed_remove`, `Population.indexed_modify` - the index
  is kept
* `Population.perm_restore`, `Population.indexed_restore` - entities with distinct ids are all
  restored, with their index
* `Population.members_restore` - an ordered list restores to itself
-/

namespace IdleGame

/-- One entity stands before another. -/
def Entity.Before (a b : Entity) : Prop := a.id.number < b.id.number

section Insertion

variable {e f : Entity} {es : List Entity} {id : EntityId} {ids : List EntityId} {kind : String}

theorem id_ne_of_before (h : e.Before f) : e.id ≠ f.id :=
  fun hid => Nat.ne_of_lt h (congrArg EntityId.number hid)

/-- Entities in order have distinct ids. -/
theorem nodup_ids_of_pairwise (h : es.Pairwise Entity.Before) : (es.map Entity.id).Nodup := by
  rw [List.Nodup, List.pairwise_map]
  exact h.imp id_ne_of_before

theorem mem_insertEntity (h : f ∈ insertEntity e es) : f = e ∨ f ∈ es := by
  induction es with
  | nil => simpa [insertEntity] using h
  | cons a es ih =>
    rw [insertEntity] at h
    split at h
    · simpa using h
    · split at h
      · rcases List.mem_cons.mp h with rfl | h
        · exact .inl rfl
        · exact .inr (List.mem_cons_of_mem _ h)
      · rcases List.mem_cons.mp h with rfl | h
        · exact .inr List.mem_cons_self
        · exact (ih h).imp_right (List.mem_cons_of_mem _)

/-- Putting an entity in its place keeps a list in order. -/
theorem pairwise_insertEntity (h : es.Pairwise Entity.Before) :
    (insertEntity e es).Pairwise Entity.Before := by
  induction es with
  | nil => exact List.pairwise_singleton _ _
  | cons a es ih =>
    obtain ⟨ha, hes⟩ := List.pairwise_cons.mp h
    rw [insertEntity]
    split
    · rename_i hlt
      refine List.pairwise_cons.mpr ⟨fun f hf => ?_, h⟩
      rcases List.mem_cons.mp hf with rfl | hf
      · exact hlt
      · exact Nat.lt_trans hlt (ha f hf)
    · split
      · rename_i heq
        refine List.pairwise_cons.mpr ⟨fun f hf => ?_, hes⟩
        change e.id.number < f.id.number
        exact heq ▸ ha f hf
      · refine List.pairwise_cons.mpr ⟨fun f hf => ?_, ih hes⟩
        rcases mem_insertEntity hf with rfl | hf
        · change a.id.number < f.id.number
          omega
        · exact ha f hf

/-- An entity with an id of its own takes the place of no other. -/
theorem perm_insertEntity (h : ∀ f ∈ es, e.id ≠ f.id) : (insertEntity e es).Perm (e :: es) := by
  induction es with
  | nil => exact .refl _
  | cons a es ih =>
    have ha : e.id.number ≠ a.id.number := fun heq =>
      h a List.mem_cons_self (EntityId.mk.injEq _ _ ▸ heq)
    have hes := ih fun f hf => h f (List.mem_cons_of_mem _ hf)
    by_cases hlt : e.id.number < a.id.number
    · rw [insertEntity, if_pos hlt]
    · rw [insertEntity, if_neg hlt, if_neg ha]
      exact (hes.cons a).trans (.swap e a es)

/-- Entities of an ordered list with the same id are the same. -/
theorem eq_of_id_eq (h : es.Pairwise Entity.Before) (he : e ∈ es) (hf : f ∈ es)
    (hid : e.id = f.id) : e = f := by
  induction es with
  | nil => cases he
  | cons a es ih =>
    obtain ⟨ha, hes⟩ := List.pairwise_cons.mp h
    rcases List.mem_cons.mp he with rfl | he' <;> rcases List.mem_cons.mp hf with rfl | hf'
    · rfl
    · exact absurd (congrArg EntityId.number hid) (Nat.ne_of_lt (ha f hf'))
    · exact absurd (congrArg EntityId.number hid) (Nat.ne_of_gt (ha e he'))
    · exact ih hes he' hf'

/-- An entity behind all others is put at the end. -/
theorem insertEntity_of_forall_before (h : ∀ f ∈ es, f.Before e) :
    insertEntity e es = es ++ [e] := by
  induction es with
  | nil => rfl
  | cons a es ih =>
    have ha : a.id.number < e.id.number := h a List.mem_cons_self
    rw [insertEntity, if_neg (by omega), if_neg (by omega),
      ih fun f hf => h f (List.mem_cons_of_mem _ hf), List.cons_append]

/-- An id below all others is put in front. -/
theorem insertId_of_forall_gt (h : ∀ i ∈ ids, id.number < i.number) :
    insertId id ids = id :: ids := by
  cases ids with
  | nil => rfl
  | cons i ids => exact if_pos (h i List.mem_cons_self)

/-- An entity comes among those of its kind where its id comes among theirs. -/
theorem ids_filter_insertEntity (h : es.Pairwise Entity.Before) (hfresh : ∀ f ∈ es, e.id ≠ f.id) :
    ((insertEntity e es).filter (·.kind = kind)).map Entity.id =
      if e.kind = kind then insertId e.id ((es.filter (·.kind = kind)).map Entity.id)
      else (es.filter (·.kind = kind)).map Entity.id := by
  induction es with
  | nil => by_cases hkind : e.kind = kind <;> simp [insertEntity, insertId, hkind]
  | cons a es ih =>
    obtain ⟨ha, hes⟩ := List.pairwise_cons.mp h
    have hne : e.id.number ≠ a.id.number := fun heq =>
      hfresh a List.mem_cons_self (EntityId.mk.injEq _ _ ▸ heq)
    have ih := ih hes fun f hf => hfresh f (List.mem_cons_of_mem _ hf)
    by_cases hlt : e.id.number < a.id.number
    -- In front of all entities, so in front of those of its kind.
    · have hbelow : ∀ i ∈ ((a :: es).filter (·.kind = kind)).map Entity.id,
          e.id.number < i.number := by
        intro i hi
        obtain ⟨f, hf, rfl⟩ := List.mem_map.mp hi
        rcases List.mem_cons.mp (List.mem_filter.mp hf).1 with rfl | hf
        · exact hlt
        · exact Nat.lt_trans hlt (ha f hf)
      rw [insertEntity, if_pos hlt, insertId_of_forall_gt hbelow, List.filter_cons]
      by_cases hkind : e.kind = kind <;> simp [hkind]
    -- Behind the first entity, whether that one is of the kind or not.
    · rw [insertEntity, if_neg hlt, if_neg hne]
      by_cases hakind : a.kind = kind
      · have hcons (fs : List Entity) : (a :: fs).filter (·.kind = kind) =
            a :: fs.filter (·.kind = kind) := by simp [hakind]
        rw [hcons, hcons, List.map_cons, List.map_cons, ih, insertId, if_neg hlt, if_neg hne]
        split <;> rfl
      · have hcons (fs : List Entity) : (a :: fs).filter (·.kind = kind) =
            fs.filter (·.kind = kind) := by simp [hakind]
        rw [hcons, hcons, ih]

end Insertion

namespace Population

variable {p : Population} {e : Entity} {es : List Entity} {id : EntityId} {kind : String}
  {properties : Values} {n : Nat} {f : Entity → Entity}

/-- The members stand by increasing id, and the next id is above all of theirs. -/
structure Ordered (p : Population) : Prop where
  members : p.members.Pairwise Entity.Before
  below : ∀ e ∈ p.members, e.id.number < p.next

/-- The index lists the ids of the members of each kind, in order. -/
def Indexed (p : Population) : Prop :=
  ∀ kind, p.idsOfKind kind = (p.members.filter (·.kind = kind)).map Entity.id

theorem ordered_empty : empty.Ordered := ⟨.nil, nofun⟩

theorem indexed_empty : empty.Indexed := fun _ => rfl

/-- The ids of the members of a kind, after one more has come. -/
theorem idsOfKind_enter :
    (p.enter e).idsOfKind kind =
      if e.kind = kind then insertId e.id (p.idsOfKind kind) else p.idsOfKind kind := by
  unfold enter idsOfKind
  rw [Table.get?_insert]
  split
  · subst kind
    rfl
  · rfl

/-- An entity with an id of its own is put into the index with the rest. -/
theorem indexed_enter (hp : p.Indexed) (h : p.members.Pairwise Entity.Before)
    (hfresh : ∀ f ∈ p.members, e.id ≠ f.id) : (p.enter e).Indexed := by
  intro kind
  rw [idsOfKind_enter, hp kind]
  exact (ids_filter_insertEntity h hfresh).symm

theorem ordered_spawn (h : p.Ordered) : (p.spawn kind properties).2.Ordered := by
  constructor
  · exact pairwise_insertEntity h.members
  · intro e he
    change e.id.number < p.next + 1
    rcases mem_insertEntity he with rfl | he
    · exact Nat.lt_succ_self _
    · exact Nat.lt_succ_of_lt (h.below e he)

theorem indexed_spawn (h : p.Ordered) (hindexed : p.Indexed) :
    (p.spawn kind properties).2.Indexed :=
  indexed_enter hindexed h.members fun f hf heq =>
    Nat.ne_of_gt (h.below f hf) (congrArg EntityId.number heq)

theorem ordered_remove (h : p.Ordered) : (p.remove id).2.Ordered := by
  unfold remove
  split
  · exact h
  · exact ⟨h.members.filter _, fun e he => h.below e (List.mem_filter.mp he).1⟩

theorem get?_eq_some {e : Entity} (h : p.get? id = some e) : e ∈ p.members ∧ e.id = id :=
  ⟨List.mem_of_find?_eq_some h, by simpa using List.find?_some h⟩

theorem remove_of_get? (h : p.get? id = some e) :
    (p.remove id).2 = { p with
      members := p.members.filter (·.id ≠ id)
      index := match p.index.get? e.kind with
        | some ids => p.index.insert e.kind (ids.filter (· ≠ id))
        | none => p.index } := by
  unfold remove
  split
  · rename_i hnone
    rw [h] at hnone
    cases hnone
  · rename_i e' hsome
    obtain rfl := Option.some.inj (h.symm.trans hsome)
    rfl

theorem idsOfKind_remove (h : p.get? id = some e) :
    (p.remove id).2.idsOfKind kind =
      if e.kind = kind then (p.idsOfKind kind).filter (· ≠ id) else p.idsOfKind kind := by
  rw [remove_of_get? h]
  unfold idsOfKind
  by_cases hkind : e.kind = kind
  · subst kind
    rcases hids : p.index.get? e.kind with _ | ids <;> simp [hids, Table.get?_insert]
  · rcases p.index.get? e.kind with _ | ids <;> simp [hkind, Table.get?_insert]

theorem indexed_remove (h : p.Ordered) (hindexed : p.Indexed) : (p.remove id).2.Indexed := by
  rcases hget : p.get? id with _ | e
  · unfold remove
    rw [hget]
    exact hindexed
  · obtain ⟨he, hid⟩ := get?_eq_some hget
    have hmembers : (p.remove id).2.members = p.members.filter (·.id ≠ id) := by
      rw [remove_of_get? hget]
    intro kind
    rw [idsOfKind_remove hget, hmembers, hindexed kind, List.filter_filter]
    split
    · rw [List.filter_map, List.filter_filter]
      simp only [Function.comp_def, Bool.and_comm]
    -- The ids of another kind are untouched: the id that goes is of one member only.
    · rename_i hkind
      congr 1
      refine List.filter_congr fun f hf => ?_
      have hne : f.kind = kind → f.id ≠ id := by
        rintro hfkind hfid
        obtain rfl : e = f := eq_of_id_eq h.members he hf (hid.trans hfid.symm)
        exact hkind hfkind
      by_cases hfkind : f.kind = kind
      · simp [hfkind, hne hfkind]
      · simp [hfkind]

theorem get?_eq_none (h : ¬ p.contains id) : p.get? id = none := by
  simpa [contains] using h

/-- Nothing is removed where no entity is. -/
theorem remove_absent (h : ¬ p.contains id) : p.remove id = (none, p) := by
  rw [remove, get?_eq_none h]

/-- Nothing is changed where no entity is. -/
theorem modify_absent (h : ¬ p.contains id) : p.modify id f = p := by
  have hne : ∀ e ∈ p.members, e.id ≠ id := by
    simpa using List.find?_eq_none.mp (get?_eq_none h)
  have hmembers : (p.members.map fun e => if e.id = id then f e else e) = p.members :=
    (List.map_congr_left fun e he => if_neg (hne e he)).trans (List.map_id _)
  rw [modify, hmembers]

/-- A change that keeps ids keeps the order of the entities. -/
theorem pairwise_map (hid : ∀ e, (f e).id = e.id) (h : es.Pairwise Entity.Before) :
    (es.map f).Pairwise Entity.Before := by
  rw [List.pairwise_map]
  exact h.imp fun hlt => by simpa only [Entity.Before, hid] using hlt

theorem ordered_modify (hid : ∀ e, (f e).id = e.id) (h : p.Ordered) : (p.modify id f).Ordered := by
  have hid' : ∀ e : Entity, (if e.id = id then f e else e).id = e.id := by
    intro e
    split
    · exact hid e
    · rfl
  refine ⟨pairwise_map hid' h.members, fun e he => ?_⟩
  obtain ⟨e', he', rfl⟩ := List.mem_map.mp he
  rw [hid']
  exact h.below e' he'

theorem indexed_modify (hid : ∀ e, (f e).id = e.id) (hkind : ∀ e, (f e).kind = e.kind)
    (hindexed : p.Indexed) : (p.modify id f).Indexed := by
  intro kind
  change p.idsOfKind kind = _
  rw [hindexed kind]
  unfold modify
  simp only [List.filter_map, List.map_map]
  have hkind' : ∀ e : Entity, (if e.id = id then f e else e).kind = e.kind := by
    intro e
    split
    · exact hkind e
    · rfl
  have hid' : ∀ e : Entity, (if e.id = id then f e else e).id = e.id := by
    intro e
    split
    · exact hid e
    · rfl
  simp only [Function.comp_def, hkind', hid']

theorem ordered_clear : p.clear.Ordered := ⟨.nil, nofun⟩

theorem indexed_clear : p.clear.Indexed := fun _ => rfl

theorem mem_foldl_enter (h : e ∈ (es.foldl enter p).members) : e ∈ p.members ∨ e ∈ es := by
  induction es generalizing p with
  | nil => exact .inl h
  | cons a es ih =>
    rcases ih h with h | h
    · rcases mem_insertEntity h with rfl | h
      · exact .inr List.mem_cons_self
      · exact .inl h
    · exact .inr (List.mem_cons_of_mem _ h)

theorem pairwise_foldl_enter (h : p.members.Pairwise Entity.Before) :
    (es.foldl enter p).members.Pairwise Entity.Before := by
  induction es generalizing p with
  | nil => exact h
  | cons a es ih => exact ih (pairwise_insertEntity h)

theorem le_next_restore : n ≤ (restore es n).next := by
  unfold restore
  induction es generalizing n with
  | nil => exact Nat.le_refl _
  | cons a es ih => exact Nat.le_trans (Nat.le_max_left _ _) ih

theorem lt_next_restore (h : e ∈ es) : e.id.number < (restore es n).next := by
  induction es generalizing n with
  | nil => cases h
  | cons a es ih =>
    rcases List.mem_cons.mp h with rfl | h
    · have hle : max n (e.id.number + 1) ≤ (restore es (max n (e.id.number + 1))).next :=
        le_next_restore
      exact Nat.lt_of_lt_of_le (Nat.lt_succ_self _) (Nat.le_trans (Nat.le_max_right _ _) hle)
    · exact ih h

/-- Nothing above the next id keeps it as it is. -/
theorem next_restore (h : ∀ e ∈ es, e.id.number < n) : (restore es n).next = n := by
  unfold restore
  induction es with
  | nil => rfl
  | cons a es ih =>
    have ha : max n (a.id.number + 1) = n := Nat.max_eq_left (h a List.mem_cons_self)
    simp only [List.foldl_cons, ha]
    exact ih fun e he => h e (List.mem_cons_of_mem _ he)

/-- Any list of entities is restored in order. -/
theorem ordered_restore : (restore es n).Ordered where
  members := pairwise_foldl_enter .nil
  below e he := by
    rcases mem_foldl_enter he with he | he
    · cases he
    · exact lt_next_restore he

/-- An entity with an id of its own may as well enter before the rest. -/
theorem enter_of_nodup (h : ((p.members ++ e :: es).map Entity.id).Nodup) :
    (∀ f ∈ p.members, e.id ≠ f.id) ∧
      ((p.enter e).members ++ es).Perm (p.members ++ e :: es) := by
  have hfresh : ∀ f ∈ p.members, e.id ≠ f.id := by
    rw [List.map_append, List.nodup_append] at h
    intro f hf heq
    exact h.2.2 f.id (List.mem_map_of_mem hf) e.id List.mem_cons_self heq.symm
  have henter : (p.enter e).members.Perm (e :: p.members) := perm_insertEntity hfresh
  exact ⟨hfresh, (henter.append_right es).trans List.perm_middle.symm⟩

/-- Entities with ids of their own all become members. -/
theorem perm_foldl_enter (h : ((p.members ++ es).map Entity.id).Nodup) :
    (es.foldl enter p).members.Perm (p.members ++ es) := by
  induction es generalizing p with
  | nil => simp
  | cons a es ih =>
    obtain ⟨-, hmoved⟩ := enter_of_nodup h
    exact (ih ((hmoved.map Entity.id).nodup_iff.mpr h)).trans hmoved

theorem indexed_foldl_enter (hp : p.Indexed) (hmembers : p.members.Pairwise Entity.Before)
    (h : ((p.members ++ es).map Entity.id).Nodup) : (es.foldl enter p).Indexed := by
  induction es generalizing p with
  | nil => exact hp
  | cons a es ih =>
    obtain ⟨hfresh, hmoved⟩ := enter_of_nodup h
    exact ih (indexed_enter hp hmembers hfresh) (pairwise_insertEntity hmembers)
      ((hmoved.map Entity.id).nodup_iff.mpr h)

/-- Entities with distinct ids are all restored. -/
theorem perm_restore (h : (es.map Entity.id).Nodup) : (restore es n).members.Perm es :=
  perm_foldl_enter (p := empty) h

/-- An ordered list is restored to itself. -/
theorem members_restore (h : es.Pairwise Entity.Before) : (restore es n).members = es := by
  have hperm : (restore es n).members.Perm es := perm_restore (nodup_ids_of_pairwise h)
  refine hperm.eq_of_pairwise (fun a b _ _ hab hba => ?_) ordered_restore.members h
  exact absurd hab (Nat.lt_asymm hba)

theorem indexed_restore (h : (es.map Entity.id).Nodup) : (restore es n).Indexed :=
  indexed_foldl_enter indexed_empty .nil h

end Population

end IdleGame
