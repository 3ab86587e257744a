import IdleGame.Proofs.Entity.Listing

/-!
# Populations restored from any list

A saved list of entities may give an id more than once. The last entity with an id is the one that
is restored. The index is filled beside the entities and forgets nothing, so it is right exactly
when no id is listed with two kinds; otherwise an id stays under a kind that its entity does not
have, and no removal ever takes it away.

## Main definitions

* `lastWith` - the last entity of a list with an id
* `OneKindEach` - no id is listed with two kinds
* `Population.Describes` - all ways to look up the entities of a kind give the members of that kind
* `Population.removeAll` - a population after removals

## Main results

* `Population.get?_restore` - the last entity with an id is restored
* `Population.indexed_restore_iff`, `Population.listsOnly_restore_iff` - when the index of a
  restored population is right
* `Population.describes_iff_oneKindEach` - all of this together, also after everything is removed
-/

namespace IdleGame

/-- The last entity of a list with an id. -/
def lastWith (es : List Entity) (id : EntityId) : Option Entity := es.reverse.find? (·.id = id)

/-- No id is listed with two kinds. -/
def OneKindEach (es : List Entity) : Prop := ∀ e ∈ es, ∀ f ∈ es, e.id = f.id → e.kind = f.kind

instance {es : List Entity} : Decidable (OneKindEach es) :=
  inferInstanceAs (Decidable (∀ e ∈ es, ∀ f ∈ es, e.id = f.id → e.kind = f.kind))

namespace Population

/-- The ids of a kind, its entities and their number, as they are looked up, are those of the
members of the kind. -/
structure Describes (p : Population) (kind : String) : Prop where
  ids : p.idsOfKind kind = (p.query (·.kind = kind)).map Entity.id
  entities : p.ofKind kind = p.query (·.kind = kind)
  count : p.count kind = (p.query (·.kind = kind)).length

/-- The population after entities have been removed one after the other. -/
def removeAll (p : Population) (ids : List EntityId) : Population :=
  ids.foldl (fun p id => (p.remove id).2) p

variable {p : Population} {e : Entity} {es : List Entity} {id id' : EntityId}
  {ids : List EntityId} {kind : String} {n : Nat}

/-! ## Entities -/

theorem get?_foldl_enter : (es.foldl enter p).get? id = (lastWith es id).or (p.get? id) := by
  induction es generalizing p with
  | nil => rfl
  | cons a es ih =>
    rw [List.foldl_cons, ih, get?_enter, lastWith, lastWith, List.reverse_cons, List.find?_append,
      Option.or_assoc]
    congr 1
    by_cases ha : a.id = id <;> simp [ha]

/-- The last entity with an id is restored. -/
theorem get?_restore : (restore es n).get? id = lastWith es id :=
  get?_foldl_enter.trans Option.or_none

theorem mem_members_restore : e ∈ (restore es n).members ↔ lastWith es e.id = some e := by
  rw [← get?_restore (n := n), get?_eq_some_iff ordered_restore, and_iff_left rfl]

theorem mem_of_lastWith (h : lastWith es id = some e) : e ∈ es ∧ e.id = id :=
  ⟨List.mem_reverse.mp (List.mem_of_find?_eq_some h), by simpa using List.find?_some h⟩

/-- Whatever id is listed, there is a last entity with it. -/
theorem exists_lastWith (h : e ∈ es) : ∃ f, lastWith es e.id = some f := by
  rw [← Option.isSome_iff_exists, lastWith, List.find?_isSome]
  exact ⟨e, List.mem_reverse.mpr h, by simp⟩

/-! ## The index -/

/-- The index of a restored population is right exactly when no id is listed with two kinds. -/
theorem indexed_restore_iff : (restore es n).Indexed ↔ OneKindEach es := by
  rw [indexed_iff ordered_restore listed_restore]
  constructor
  -- Two entities with one id have the kind of the one that is restored.
  · intro hthere e he f hf hid
    obtain ⟨g, hg, hgid, hgkind⟩ :=
      hthere e.kind e.id (mem_idsOfKind_restore.mpr ⟨e, he, rfl, rfl⟩)
    obtain ⟨g', hg', hgid', hgkind'⟩ :=
      hthere f.kind f.id (mem_idsOfKind_restore.mpr ⟨f, hf, rfl, rfl⟩)
    obtain rfl : g = g' :=
      eq_of_id_eq ordered_restore.members hg hg' (hgid.trans (hid.trans hgid'.symm))
    exact hgkind.symm.trans hgkind'
  · intro hone kind id hid
    obtain ⟨e, he, rfl, rfl⟩ := mem_idsOfKind_restore.mp hid
    obtain ⟨f, hf⟩ := exists_lastWith he
    obtain ⟨hmem, hfid⟩ := mem_of_lastWith hf
    exact ⟨f, mem_members_restore.mpr (hfid.symm ▸ hf), hfid, hone f hmem e he hfid⟩

/-- Live entities are listed under their own kind only, for all kinds, exactly when no id is listed
with two kinds. -/
theorem listsOnly_restore_iff : (∀ kind, (restore es n).ListsOnly kind) ↔ OneKindEach es := by
  rw [← indexed_restore_iff (n := n)]
  constructor
  · intro hlists
    rw [indexed_iff ordered_restore listed_restore]
    intro kind id hid
    obtain ⟨e, he, rfl, -⟩ := mem_idsOfKind_restore.mp hid
    -- Whatever is listed, somebody with its id is live.
    obtain ⟨f, hf⟩ := exists_lastWith he
    have hget : (restore es n).get? e.id = some f := get?_restore.trans hf
    obtain ⟨hmem, hfid⟩ := get?_eq_some hget
    exact ⟨f, hmem, hfid, hlists kind e.id hid f hget⟩
  · intro hindexed kind
    exact listsOnly_of_indexed hindexed ordered_restore

theorem describes_of_indexed (h : p.Ordered) (hindexed : p.Indexed) : p.Describes kind where
  ids := idsOfKind_eq_query hindexed
  entities := ofKind_eq_query h hindexed
  count := count_eq_query hindexed

/-! ## Removals -/

theorem ordered_removeAll (h : p.Ordered) : (p.removeAll ids).Ordered := by
  induction ids generalizing p with
  | nil => exact h
  | cons id ids ih => exact ih (ordered_remove h)

theorem indexed_removeAll (h : p.Ordered) (hindexed : p.Indexed) : (p.removeAll ids).Indexed := by
  induction ids generalizing p with
  | nil => exact hindexed
  | cons id ids ih => exact ih (ordered_remove h) (indexed_remove h hindexed)

theorem get?_removeAll : (p.removeAll ids).get? id = if id ∈ ids then none else p.get? id := by
  induction ids generalizing p with
  | nil => rfl
  | cons i ids ih =>
    rw [removeAll, List.foldl_cons, ← removeAll, ih, get?_remove]
    by_cases hid : id ∈ ids
    · simp [hid]
    · by_cases hi : i = id
      · simp [hi]
      · simp [hid, hi, Ne.symm hi]

/-- Nobody is left when everybody has been removed. -/
theorem members_removeAll (h : p.Ordered) (hall : ∀ e ∈ p.members, e.id ∈ ids) :
    (p.removeAll ids).members = [] := by
  rw [List.eq_nil_iff_forall_not_mem]
  intro e he
  have hget := (get?_eq_some_iff (ordered_removeAll h)).mpr ⟨he, rfl⟩
  rw [get?_removeAll] at hget
  split at hget
  · cases hget
  · rename_i hid
    exact hid (hall e ((get?_eq_some_iff h).mp hget).1)

/-- A removal takes an id from the list of the kind that its entity has, and from no other. -/
theorem mem_idsOfKind_remove (hid : id ∈ p.idsOfKind kind)
    (hkind : ∀ e, p.get? id = some e → e.kind ≠ kind) :
    id ∈ (p.remove id').2.idsOfKind kind := by
  rcases hget : p.get? id' with _ | e
  · rw [remove_absent (by simp [contains, hget])]
    exact hid
  · rw [idsOfKind_remove hget]
    split
    · rename_i hekind
      refine List.mem_filter.mpr ⟨hid, decide_eq_true fun heq => ?_⟩
      exact hkind e (heq ▸ hget) hekind
    · exact hid

/-- An id that is listed under a kind which its entity does not have stays there. -/
theorem mem_idsOfKind_removeAll (hid : id ∈ p.idsOfKind kind)
    (hkind : ∀ e, p.get? id = some e → e.kind ≠ kind) : id ∈ (p.removeAll ids).idsOfKind kind := by
  induction ids generalizing p with
  | nil => exact hid
  | cons i ids ih =>
    refine ih (mem_idsOfKind_remove hid hkind) fun e hget => ?_
    rw [get?_remove] at hget
    split at hget
    · cases hget
    · exact hkind e hget

/-- When nothing is counted after everything has been removed, the index was right. -/
theorem indexed_of_count_removeAll (h : p.Ordered) (hlisted : p.Listed)
    (hcount : ∀ kind, (p.removeAll (p.members.map Entity.id)).count kind = 0) : p.Indexed := by
  rw [indexed_iff h hlisted]
  intro kind id hid
  refine Classical.byContradiction fun hnone => ?_
  have hkind : ∀ e, p.get? id = some e → e.kind ≠ kind := by
    intro e hget hkind
    obtain ⟨he, hid⟩ := get?_eq_some hget
    exact hnone ⟨e, he, hid, hkind⟩
  have hstays : id ∈ (p.removeAll (p.members.map Entity.id)).idsOfKind kind :=
    mem_idsOfKind_removeAll hid hkind
  rw [List.eq_nil_of_length_eq_zero (hcount kind)] at hstays
  cases hstays

/-- From any list one entity is restored for each id, the last one with it, and they stand by
increasing id. All ways to look up the entities of a kind describe the restored ones of that kind,
for all kinds, exactly when no id is listed with two kinds; and exactly then nothing is counted any
more once all that was restored has been removed, in whatever order. -/
theorem describes_iff_oneKindEach (es : List Entity) (n : Nat) :
    (restore es n).members.Pairwise Entity.Before ∧
      (∀ id, (restore es n).get? id = lastWith es id) ∧
      (∀ e, e ∈ (restore es n).members ↔ lastWith es e.id = some e) ∧
      ((∀ kind, (restore es n).Describes kind) ↔ OneKindEach es) ∧
      ((∀ ids, (∀ e ∈ (restore es n).members, e.id ∈ ids) →
          ∀ kind, ((restore es n).removeAll ids).count kind = 0) ↔ OneKindEach es) := by
  refine ⟨ordered_restore.members, fun id => get?_restore, fun e => mem_members_restore, ?_, ?_⟩
  · rw [← indexed_restore_iff (n := n)]
    exact ⟨fun h kind => (h kind).ids, fun h kind => describes_of_indexed ordered_restore h⟩
  · rw [← indexed_restore_iff (n := n)]
    constructor
    · intro hcount
      refine indexed_of_count_removeAll ordered_restore listed_restore (hcount _ fun e he => ?_)
      exact List.mem_map_of_mem he
    · intro hindexed ids hall kind
      rw [count, indexed_removeAll ordered_restore hindexed kind,
        members_removeAll ordered_restore hall]
      rfl

/-- A save that lists one id twice, as a card and then as a stall. -/
def relabelled : List Entity := [⟨⟨0⟩, "card", Table.empty⟩, ⟨⟨0⟩, "stall", Table.empty⟩]

/-- Only the stall is restored, but it is looked up among the cards as well, and a card is counted
even after it has gone. -/
theorem relabelled_not_described :
    ¬ OneKindEach relabelled ∧
      (restore relabelled 1).members = [⟨⟨0⟩, "stall", Table.empty⟩] ∧
      (restore relabelled 1).idsOfKind "card" = [⟨0⟩] ∧
      (restore relabelled 1).ofKind "card" = [⟨⟨0⟩, "stall", Table.empty⟩] ∧
      (restore relabelled 1).count "card" = 1 ∧
      ((restore relabelled 1).removeAll [⟨0⟩]).members = [] ∧
      ((restore relabelled 1).removeAll [⟨0⟩]).count "card" = 1 := by
  decide

end Population

end IdleGame
