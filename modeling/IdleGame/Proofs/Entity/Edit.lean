import IdleGame.Proofs.Entity.Population

/-!
# Populations under edits

A population keeps its entities twice: by id, and listed by kind. Whatever is done to it, the two
describe the same entities, so that it does not matter by which way the entities of a kind are
looked up.

## Main definitions

* `Edit` - a change of a population from outside
* `Population.Built` - a population after edits, with the ids of its entities in the order in which
  they have been spawned
* `Population.Fits` - a population whose ids can all be written, the next one included

## Main results

* `Population.Built.indexed` - the index is right after any edits
* `Population.Built.sublist` - entities stand in the order in which they have been spawned
* `Population.fits_restore_iff`, `Population.fits_edit_iff` - ids fit until the last one that can be
  written is handed out
* `Population.Built.kinds_agree` - all ways to look up the entities of a kind agree
-/

namespace IdleGame

/-- A change of a population from outside. -/
inductive Edit where
  | spawn (kind : String) (properties : Values)
  | remove (id : EntityId)
  | patch (id : EntityId) (properties : Values)
  /-- Changes the properties of an entity in whatever way. -/
  | rewrite (id : EntityId) (f : Values → Values)
  | clear

namespace Population

/-- The population after an edit. -/
def edit (p : Population) : Edit → Population
  | .spawn kind properties => (p.spawn kind properties).2
  | .remove id => (p.remove id).2
  | .patch id properties => p.patch id properties
  | .rewrite id f => p.modify id fun e => { e with properties := f e.properties }
  | .clear => p.clear

/-- The id that an edit hands out, if it does. -/
def handedOut (p : Population) : Edit → List EntityId
  | .spawn kind properties => [(p.spawn kind properties).1]
  | .remove _ | .patch .. | .rewrite .. | .clear => []

/-- The ids of entities in increasing order. -/
def idsInOrder (es : List Entity) : List EntityId :=
  (es.map Entity.id).mergeSort fun i j => i.number ≤ j.number

/-- A population that has begun empty, or with entities of distinct ids, and has then been edited.
With it stand the ids in the order in which their entities have been spawned; those that it has
begun with have been spawned in the order of their ids. -/
inductive Built : List EntityId → Population → Prop
  | new : Built [] empty
  | restored {es n} (h : (es.map Entity.id).Nodup) : Built (idsInOrder es) (restore es n)
  | edited {ids p} (h : Built ids p) (edit : Edit) : Built (ids ++ p.handedOut edit) (p.edit edit)

variable {p : Population} {e : Entity} {es : List Entity} {id : EntityId} {ids : List EntityId}
  {kind : String} {n : Nat} {f : Entity → Entity}

/-! ## Members -/

theorem get?_eq_some_iff (h : p.Ordered) : p.get? id = some e ↔ e ∈ p.members ∧ e.id = id := by
  constructor
  · exact get?_eq_some
  · rintro ⟨he, rfl⟩
    rcases hget : p.get? e.id with _ | e'
    · have hnone := List.find?_eq_none.mp hget e he
      simp at hnone
    · obtain ⟨he', hid⟩ := get?_eq_some hget
      rw [eq_of_id_eq h.members he' he hid]

/-- What is looked up by the ids of some members is these members. -/
theorem filterMap_get? (h : p.Ordered) (hsub : es ⊆ p.members) :
    (es.map Entity.id).filterMap p.get? = es := by
  induction es with
  | nil => rfl
  | cons e es ih =>
    rw [List.cons_subset] at hsub
    have hget : p.get? e.id = some e := (get?_eq_some_iff h).mpr ⟨hsub.1, rfl⟩
    rw [List.map_cons, List.filterMap_cons, hget, ih hsub.2]

theorem idsOfKind_eq_query (h : p.Indexed) :
    p.idsOfKind kind = (p.query (·.kind = kind)).map Entity.id :=
  h kind

theorem count_eq_query (h : p.Indexed) : p.count kind = (p.query (·.kind = kind)).length := by
  rw [count, idsOfKind_eq_query h, List.length_map]

theorem ofKind_eq_query (h : p.Ordered) (hindexed : p.Indexed) :
    p.ofKind kind = p.query (·.kind = kind) := by
  rw [ofKind, idsOfKind_eq_query hindexed]
  exact filterMap_get? h fun _ he => (List.mem_filter.mp he).1

theorem mem_query_kind (h : p.Ordered) :
    e ∈ p.query (·.kind = kind) ↔ p.get? e.id = some e ∧ e.kind = kind := by
  rw [get?_eq_some_iff h, query, List.mem_filter, decide_eq_true_iff, and_iff_left rfl]

theorem members_spawn {properties : Values} (h : p.Ordered) :
    (p.spawn kind properties).2.members = p.members ++ [⟨⟨p.next⟩, kind, properties⟩] :=
  insertEntity_of_forall_before h.below

theorem members_remove (p : Population) (id : EntityId) :
    (p.remove id).2.members.Sublist p.members := by
  unfold remove
  split
  · exact .refl _
  · exact List.filter_sublist

theorem ids_modify (hid : ∀ e, (f e).id = e.id) :
    (p.modify id f).members.map Entity.id = p.members.map Entity.id := by
  unfold modify
  rw [List.map_map]
  refine List.map_congr_left fun e _ => ?_
  by_cases he : e.id = id <;> simp [he, hid]

theorem ids_restore (h : (es.map Entity.id).Nodup) :
    (restore es n).members.map Entity.id = idsInOrder es := by
  have hperm : ((restore es n).members.map Entity.id).Perm (idsInOrder es) :=
    ((perm_restore h).map Entity.id).trans (List.mergeSort_perm _ _).symm
  have hmembers : ((restore es n).members.map Entity.id).Pairwise (·.number ≤ ·.number) := by
    rw [List.pairwise_map]
    exact ordered_restore.members.imp Nat.le_of_lt
  have hsorted : (idsInOrder es).Pairwise (·.number ≤ ·.number) := by
    have htrans : ∀ i j k : EntityId, decide (i.number ≤ j.number) = true →
        decide (j.number ≤ k.number) = true → decide (i.number ≤ k.number) = true := by
      simp only [decide_eq_true_eq]
      omega
    have htotal : ∀ i j : EntityId,
        (decide (i.number ≤ j.number) || decide (j.number ≤ i.number)) = true := by
      simp only [Bool.or_eq_true, decide_eq_true_eq]
      omega
    exact (List.pairwise_mergeSort htrans htotal _).imp of_decide_eq_true
  refine hperm.eq_of_pairwise (fun i j _ _ hij hji => ?_) hmembers hsorted
  exact (EntityId.mk.injEq _ _).mpr (Nat.le_antisymm hij hji)

/-! ## Edits -/

theorem ordered_edit (edit : Edit) (h : p.Ordered) : (p.edit edit).Ordered := by
  cases edit with
  | spawn kind properties => exact ordered_spawn h
  | remove id => exact ordered_remove h
  | patch id properties => exact ordered_modify (fun _ => rfl) h
  | rewrite id f => exact ordered_modify (fun _ => rfl) h
  | clear => exact ordered_clear

namespace Built

theorem ordered (h : Built ids p) : p.Ordered := by
  induction h with
  | new => exact ordered_empty
  | restored => exact ordered_restore
  | edited _ edit ih => exact ordered_edit edit ih

/-- The index is right after any edits. -/
theorem indexed (h : Built ids p) : p.Indexed := by
  induction h with
  | new => exact indexed_empty
  | restored h => exact indexed_restore h
  | edited h edit ih =>
    cases edit with
    | spawn kind properties => exact indexed_spawn h.ordered ih
    | remove id => exact indexed_remove h.ordered ih
    | patch id properties => exact indexed_modify (fun _ => rfl) (fun _ => rfl) ih
    | rewrite id f => exact indexed_modify (fun _ => rfl) (fun _ => rfl) ih
    | clear => exact indexed_clear

/-- The members stand in the order in which they have been spawned. -/
theorem sublist (h : Built ids p) : (p.members.map Entity.id).Sublist ids := by
  induction h with
  | new => exact .refl _
  | restored h => exact ids_restore h ▸ .refl _
  | @edited ids p h edit ih =>
    cases edit with
    | spawn kind properties =>
      change ((p.spawn kind properties).2.members.map Entity.id).Sublist (ids ++ [⟨p.next⟩])
      rw [members_spawn h.ordered, List.map_append]
      exact ih.append (.refl _)
    | remove id =>
      have hremoved := ((members_remove p id).map Entity.id).trans ih
      exact hremoved.trans (List.sublist_append_left _ _)
    | patch id properties =>
      have hids : (p.patch id properties).members.map Entity.id = p.members.map Entity.id :=
        ids_modify fun _ => rfl
      exact hids ▸ ih.trans (List.sublist_append_left _ _)
    | rewrite id f =>
      have hids : (p.modify id fun e => { e with properties := f e.properties }).members.map
          Entity.id = p.members.map Entity.id := ids_modify fun _ => rfl
      exact hids ▸ ih.trans (List.sublist_append_left _ _)
    | clear => exact List.nil_sublist _

/-- After any edits the index and the members describe the same entities: an id is listed under a
kind exactly when an entity of that kind is live under that id. Ids stand below the next one, and
the members by increasing id, which is the order in which they have been spawned. All ways to look
up the entities of a kind list each of them once, in that order. -/
theorem kinds_agree (h : Built ids p) :
    (∀ kind id, id ∈ p.idsOfKind kind ↔ ∃ e, p.get? id = some e ∧ e.kind = kind) ∧
    (∀ id, p.contains id → id.number < p.next) ∧
    (p.members.map Entity.id).Pairwise (·.number < ·.number) ∧
    (p.members.map Entity.id).Sublist ids ∧
    ∀ kind,
      (∀ e, e ∈ p.ofKind kind ↔ p.get? e.id = some e ∧ e.kind = kind) ∧
      (p.ofKind kind).Pairwise Entity.Before ∧
      p.ofKind kind = p.query (·.kind = kind) ∧
      p.idsOfKind kind = (p.ofKind kind).map Entity.id ∧
      p.count kind = (p.ofKind kind).length := by
  have hordered := h.ordered
  have hindexed := h.indexed
  refine ⟨fun kind id => ?_, fun id hid => ?_, ?_, h.sublist, fun kind => ?_⟩
  · rw [idsOfKind_eq_query hindexed, List.mem_map]
    constructor
    · rintro ⟨e, he, rfl⟩
      exact ⟨e, (mem_query_kind hordered).mp he⟩
    · rintro ⟨e, hget, hkind⟩
      obtain ⟨-, rfl⟩ := get?_eq_some hget
      exact ⟨e, (mem_query_kind hordered).mpr ⟨hget, hkind⟩, rfl⟩
  · obtain ⟨e, hget⟩ := Option.isSome_iff_exists.mp hid
    obtain ⟨he, rfl⟩ := get?_eq_some hget
    exact hordered.below e he
  · rw [List.pairwise_map]
    exact hordered.members
  · have hquery : p.ofKind kind = p.query (·.kind = kind) := ofKind_eq_query hordered hindexed
    have hids : p.idsOfKind kind = (p.query (·.kind = kind)).map Entity.id :=
      idsOfKind_eq_query hindexed
    rw [count, hids, hquery, List.length_map]
    exact ⟨fun e => mem_query_kind hordered, hordered.members.filter _, rfl, rfl, rfl⟩

end Built

/-! ## Widths -/

/-- The ids of a population can be written, and so can the next one that it hands out. -/
def Fits (p : Population) : Prop := p.next ≤ EntityId.maxNumber

theorem next_restore_le_iff {m : Nat} :
    (restore es n).next ≤ m ↔ n ≤ m ∧ ∀ e ∈ es, e.id.number < m := by
  unfold restore
  dsimp only
  induction es generalizing n with
  | nil => simp
  | cons e es ih =>
    rw [List.foldl_cons, ih, Nat.max_le, List.forall_mem_cons, and_assoc]
    rfl

/-- A restored population fits when the next id does and no entity has the last one that can be
written. -/
theorem fits_restore_iff :
    (restore es n).Fits ↔
      n ≤ EntityId.maxNumber ∧ ∀ e ∈ es, e.id.number < EntityId.maxNumber :=
  next_restore_le_iff

theorem next_remove : (p.remove id).2.next = p.next := by
  unfold remove
  split <;> rfl

theorem next_le_next_edit (edit : Edit) : p.next ≤ (p.edit edit).next := by
  cases edit with
  | spawn kind properties => exact Nat.le_succ _
  | remove id => exact Nat.le_of_eq next_remove.symm
  | patch | rewrite | clear => exact Nat.le_refl _

/-- After an edit a population fits when it has fitted before, unless the edit hands out the last id
that can be written. -/
theorem fits_edit_iff (edit : Edit) :
    (p.edit edit).Fits ↔ p.Fits ∧ ∀ id ∈ p.handedOut edit, id.number ≠ EntityId.maxNumber := by
  -- Only a spawn hands out an id, and no other edit moves the next one.
  cases edit with
  | spawn kind properties =>
    have hspawn : (p.edit (.spawn kind properties)).next = p.next + 1 := rfl
    have hid : p.handedOut (.spawn kind properties) = [⟨p.next⟩] := rfl
    rw [Fits, hspawn, hid, List.forall_mem_singleton]
    exact Nat.lt_iff_le_and_ne
  | remove id =>
    have hremove : (p.edit (.remove id)).next = p.next := next_remove
    rw [Fits, hremove]
    exact (and_iff_left nofun).symm
  | patch | rewrite | clear => exact (and_iff_left nofun).symm

namespace Built

theorem lt_next (h : Built ids p) : ∀ id ∈ ids, id.number < p.next := by
  induction h with
  | new => exact nofun
  | restored =>
    intro id hid
    obtain ⟨e, he, rfl⟩ := List.mem_map.mp ((List.mergeSort_perm _ _).mem_iff.mp hid)
    exact lt_next_restore he
  | @edited ids p _ edit ih =>
    intro id hid
    rcases List.mem_append.mp hid with hid | hid
    · exact Nat.lt_of_lt_of_le (ih id hid) (next_le_next_edit edit)
    · cases edit with
      | spawn kind properties =>
        obtain rfl := List.mem_singleton.mp hid
        exact Nat.lt_succ_self _
      | _ => cases hid

/-- While a population fits, all ids that it has begun with or handed out could be written, and so
could the one behind each of them. -/
theorem lt_maxNumber (h : Built ids p) (hfits : p.Fits) :
    ∀ id ∈ ids, id.number < EntityId.maxNumber :=
  fun id hid => Nat.lt_of_lt_of_le (h.lt_next id hid) hfits

end Built

/-- Two cards and a stall that have been saved out of order. -/
def stalls : List Entity :=
  [⟨⟨5⟩, "card", Table.empty⟩, ⟨⟨2⟩, "stall", Table.empty⟩, ⟨⟨3⟩, "card", Table.empty⟩]

/-- These entities, after the first card has gone, another one has come, and the stall has been
painted. -/
def market : Population :=
  (((restore stalls 1).edit (.remove ⟨3⟩)).edit (.spawn "card" Table.empty)).edit
    (.patch ⟨2⟩ (Table.ofList [("color", .string "red")]))

theorem market_built : Built [⟨2⟩, ⟨3⟩, ⟨5⟩, ⟨6⟩] market := by
  have hnodup : (stalls.map Entity.id).Nodup := by decide
  have hids : idsInOrder stalls = [⟨2⟩, ⟨3⟩, ⟨5⟩] := by
    rw [← ids_restore (n := 1) hnodup]
    decide
  have hrestored : Built [⟨2⟩, ⟨3⟩, ⟨5⟩] (restore stalls 1) := hids ▸ .restored hnodup
  exact ((hrestored.edited (.remove ⟨3⟩)).edited (.spawn "card" Table.empty)).edited
    (.patch ⟨2⟩ (Table.ofList [("color", .string "red")]))

theorem market_kinds_agree :
    (∀ kind id, id ∈ market.idsOfKind kind ↔ ∃ e, market.get? id = some e ∧ e.kind = kind) ∧
    (∀ id, market.contains id → id.number < market.next) ∧
    (market.members.map Entity.id).Pairwise (·.number < ·.number) ∧
    (market.members.map Entity.id).Sublist [⟨2⟩, ⟨3⟩, ⟨5⟩, ⟨6⟩] ∧
    ∀ kind,
      (∀ e, e ∈ market.ofKind kind ↔ market.get? e.id = some e ∧ e.kind = kind) ∧
      (market.ofKind kind).Pairwise Entity.Before ∧
      market.ofKind kind = market.query (·.kind = kind) ∧
      market.idsOfKind kind = (market.ofKind kind).map Entity.id ∧
      market.count kind = (market.ofKind kind).length :=
  market_built.kinds_agree

end Population

end IdleGame
