import IdleGame.Table

/-!
# Reading and rebuilding tables

A table is determined by its names in order and by what is read under each. Writing the entries of
one table over another gives back the first when the names of the second come first in it, in the
same order: this is how the variables of a saved game are put over the declared ones.

## Main results

* `Table.ext_get?` - tables with the same names in order and the same values are equal
* `Table.keys_extend`, `Table.get?_extend` - many writes at once
* `Table.keys_extend_eq_foldl`, `Table.get?_extend_map` - many writes, some of them under one name
* `Table.extend_eq_of_prefix` - a table rebuilt from the start of its names
-/

namespace IdleGame

universe u

variable {α : Type u}

namespace Entries

variable {k : String} {es es' : List (String × α)}

theorem get?_eq_none_iff : get? k es = none ↔ k ∉ es.map Prod.fst := by
  induction es with
  | nil => simp [get?]
  | cons e rest ih =>
    obtain ⟨k', v⟩ := e
    by_cases h : k' = k
    · simp [get?, h]
    · simp only [get?, if_neg h, ih, List.map_cons, List.mem_cons, not_or]
      grind

theorem mem_of_get? {v : α} (h : get? k es = some v) : (k, v) ∈ es := by
  induction es with
  | nil => cases h
  | cons e rest ih =>
    obtain ⟨k', v'⟩ := e
    rw [get?] at h
    split at h
    · obtain rfl := Option.some.inj h
      subst k'
      exact List.mem_cons_self
    · exact List.mem_cons_of_mem _ (ih h)

/-- A new name comes behind those that are there. -/
theorem insert_of_notMem {v : α} (h : k ∉ es.map Prod.fst) : insert k v es = es ++ [(k, v)] := by
  induction es with
  | nil => rfl
  | cons e rest ih =>
    obtain ⟨k', v'⟩ := e
    rw [List.map_cons, List.mem_cons, not_or] at h
    rw [insert, if_neg (Ne.symm h.1), ih h.2, List.cons_append]

/-- Dropping a name leaves what is under the others. -/
theorem get?_filter_ne {k' : String} (h : k' ≠ k) :
    get? k' (es.filter (·.1 ≠ k)) = get? k' es := by
  induction es with
  | nil => rfl
  | cons e rest ih =>
    obtain ⟨a, v⟩ := e
    by_cases hk : a = k
    · subst hk
      rw [List.filter_cons_of_neg (by simp), ih, get?, if_neg h.symm]
    · rw [List.filter_cons_of_pos (by simpa using hk), get?, get?, ih]

/-- A name that is dropped is gone, however often it was there. -/
theorem get?_filter_self : get? k (es.filter (·.1 ≠ k)) = none := by
  rw [get?_eq_none_iff, List.mem_map]
  rintro ⟨e, he, rfl⟩
  simp at he

theorem get?_map {β : Type u} (f : α → β) :
    get? k (es.map fun e => (e.1, f e.2)) = (get? k es).map f := by
  induction es with
  | nil => rfl
  | cons e rest ih =>
    rw [List.map_cons, get?, get?, ih]
    split <;> rfl

theorem get?_of_mem (hnodup : (es.map Prod.fst).Nodup) {v : α} (h : (k, v) ∈ es) :
    get? k es = some v := by
  induction es with
  | nil => cases h
  | cons e rest ih =>
    obtain ⟨k', v'⟩ := e
    rw [List.map_cons, List.nodup_cons] at hnodup
    rcases List.mem_cons.mp h with heq | hrest
    · obtain ⟨rfl, rfl⟩ := Prod.mk.inj heq
      simp [get?]
    · have hk : k ∈ rest.map Prod.fst := List.mem_map_of_mem hrest
      have hne : k' ≠ k := fun heq => hnodup.1 (heq ▸ hk)
      rw [get?, if_neg hne]
      exact ih hnodup.2 hrest

/-- Entries with distinct names are determined by the names and by what is read under each. -/
theorem ext_get? (hnodup : (es.map Prod.fst).Nodup) (hkeys : es.map Prod.fst = es'.map Prod.fst)
    (hget : ∀ k, get? k es = get? k es') : es = es' := by
  induction es generalizing es' with
  | nil => simpa using hkeys.symm
  | cons e rest ih =>
    rcases es' with _ | ⟨e', rest'⟩
    · simp at hkeys
    obtain ⟨k, v⟩ := e
    obtain ⟨k', v'⟩ := e'
    simp only [List.map_cons, List.cons.injEq] at hkeys
    obtain ⟨rfl, hkeys⟩ := hkeys
    have hv : v = v' := by simpa [get?] using hget k
    rw [List.map_cons, List.nodup_cons] at hnodup
    rw [hv, ih hnodup.2 hkeys]
    intro k'
    by_cases h : k = k'
    · subst h
      rw [get?_eq_none_iff.mpr hnodup.1, get?_eq_none_iff.mpr (hkeys ▸ hnodup.1)]
    · simpa [get?, h] using hget k'

end Entries

namespace Table

variable {t u : Table α} {k : String} {v : α} {es : List (String × α)}

theorem get?_eq_none_iff : t.get? k = none ↔ k ∉ t.keys := Entries.get?_eq_none_iff

theorem mem_keys_iff : k ∈ t.keys ↔ ∃ v, t.get? k = some v := by
  rw [← Option.ne_none_iff_exists', Ne, get?_eq_none_iff, Decidable.not_not]

theorem contains_iff : t.contains k ↔ k ∈ t.keys := by
  rw [contains, Option.isSome_iff_exists, mem_keys_iff]

theorem get?_eq_some_iff : t.get? k = some v ↔ (k, v) ∈ t.entries :=
  ⟨Entries.mem_of_get?, Entries.get?_of_mem t.distinct⟩

theorem get?_erase_of_ne {k' : String} (h : k' ≠ k) : (t.erase k).get? k' = t.get? k' :=
  Entries.get?_filter_ne h

theorem get?_erase_self : (t.erase k).get? k = none := Entries.get?_filter_self

theorem get?_map {β : Type u} (f : α → β) : (t.map f).get? k = (t.get? k).map f :=
  Entries.get?_map f

theorem nodup_keys (t : Table α) : t.keys.Nodup := t.distinct

/-- Tables with the same names in order and the same values are equal. -/
theorem ext_get? (hkeys : t.keys = u.keys) (hget : ∀ k, t.get? k = u.get? k) : t = u := by
  obtain ⟨es, hnodup⟩ := t
  obtain ⟨es', hnodup'⟩ := u
  obtain rfl : es = es' := Entries.ext_get? hnodup hkeys hget
  rfl

/-- Writing keeps the names there are where they are. -/
theorem prefix_keys_insert : t.keys <+: (t.insert k v).keys := by
  rw [keys_insert]
  split
  · exact List.prefix_rfl
  · exact List.prefix_append _ _

theorem prefix_keys_extend : t.keys <+: (t.extend es).keys := by
  induction es generalizing t with
  | nil => exact List.prefix_rfl
  | cons e es ih => exact prefix_keys_insert.trans ih

/-- Writing many entries adds the new names at the end, in order. -/
theorem keys_extend (hnodup : (es.map Prod.fst).Nodup) :
    (t.extend es).keys = t.keys ++ (es.map Prod.fst).filter (· ∉ t.keys) := by
  induction es generalizing t with
  | nil => simp
  | cons e es ih =>
    rw [List.map_cons, List.nodup_cons] at hnodup
    rw [extend_cons, ih hnodup.2, keys_insert]
    by_cases hk : e.1 ∈ t.keys
    · simp [hk]
    · rw [if_neg hk, List.append_assoc, List.map_cons,
        List.filter_cons_of_pos (by simpa using hk)]
      have hfilter : (es.map Prod.fst).filter (· ∉ t.keys ++ [e.1]) =
          (es.map Prod.fst).filter (· ∉ t.keys) := by
        refine List.filter_congr fun k hk' => ?_
        have hne : k ≠ e.1 := fun heq => hnodup.1 (heq ▸ hk')
        simp [hne]
      rw [hfilter, List.singleton_append]

/-- After writing many entries with distinct names, each reads as it was written last. -/
theorem get?_extend (hnodup : (es.map Prod.fst).Nodup) :
    (t.extend es).get? k = (Entries.get? k es).or (t.get? k) := by
  induction es generalizing t with
  | nil => simp [Entries.get?]
  | cons e es ih =>
    rw [List.map_cons, List.nodup_cons] at hnodup
    rw [extend_cons, ih hnodup.2, get?_insert]
    obtain ⟨k', v⟩ := e
    by_cases hk : k' = k
    · subst hk
      simp [Entries.get?, Entries.get?_eq_none_iff.mpr hnodup.1]
    · simp [Entries.get?, hk]

/-- Adds a name at the end of names that lack it. -/
def addKey (ks : List String) (k : String) : List String := if k ∈ ks then ks else ks ++ [k]

theorem mem_foldl_addKey {ks ks' : List String} :
    k ∈ ks'.foldl addKey ks ↔ k ∈ ks ∨ k ∈ ks' := by
  induction ks' generalizing ks with
  | nil => simp
  | cons k' ks' ih =>
    rw [List.foldl_cons, ih, addKey]
    grind

/-- Names that are added to others, and then to some, are as well added to these at once. -/
theorem foldl_addKey_foldl {ks ks' base : List String} :
    (ks'.foldl addKey ks).foldl addKey base = ks'.foldl addKey (ks.foldl addKey base) := by
  induction ks' generalizing ks with
  | nil => rfl
  | cons k ks' ih =>
    rw [List.foldl_cons, List.foldl_cons, ih]
    congr 1
    by_cases hk : k ∈ ks
    · rw [addKey, if_pos hk, addKey, if_pos (mem_foldl_addKey.mpr (.inr hk))]
    · rw [addKey, if_neg hk, List.foldl_append, List.foldl_cons, List.foldl_nil]

/-- Writing entries adds the names that are new at the end, also if a name is written again. -/
theorem keys_extend_eq_foldl : (t.extend es).keys = (es.map Prod.fst).foldl addKey t.keys := by
  induction es generalizing t with
  | nil => rfl
  | cons e es ih =>
    rw [extend_cons, ih, keys_insert]
    rfl

theorem get?_extend_of_notMem (h : k ∉ es.map Prod.fst) : (t.extend es).get? k = t.get? k := by
  induction es generalizing t with
  | nil => rfl
  | cons e es ih =>
    rw [List.map_cons, List.mem_cons, not_or] at h
    rw [extend_cons, ih h.2, get?_insert, if_neg (Ne.symm h.1)]

/-- Of the entries under a name, the one that was written last is read. -/
theorem get?_extend_of_last {before after : List (String × α)} (h : k ∉ after.map Prod.fst) :
    (t.extend (before ++ (k, v) :: after)).get? k = some v := by
  rw [extend, List.foldl_append, List.foldl_cons]
  change (Table.extend _ after).get? k = some v
  rw [get?_extend_of_notMem h, get?_insert, if_pos rfl]

/-- Writing what is said of each name, once or again, lets it be read there. -/
theorem get?_extend_map (f : String → α) {ks : List String} :
    (t.extend (ks.map fun k => (k, f k))).get? k = if k ∈ ks then some (f k) else t.get? k := by
  induction ks generalizing t with
  | nil => rfl
  | cons k' ks ih =>
    rw [List.map_cons, extend_cons, ih, get?_insert]
    by_cases hk : k' = k
    · subst hk
      simp
    · rw [if_neg hk]
      simp [Ne.symm hk]

/-- Writing the entries of a table over the start of its names gives the table. -/
theorem extend_eq_of_prefix (h : t.keys <+: u.keys) : t.extend u.entries = u := by
  obtain ⟨rest, hrest⟩ := h
  have hnodup := u.nodup_keys
  refine ext_get? ?_ fun k => ?_
  -- Only the rest of the names is new, and it comes in its order after the others.
  · rw [keys_extend u.distinct]
    change t.keys ++ u.keys.filter (· ∉ t.keys) = u.keys
    rw [← hrest] at hnodup ⊢
    have hnew : ∀ k ∈ rest, k ∉ t.keys := fun k hk hk' =>
      (List.nodup_append.mp hnodup).2.2 k hk' k hk rfl
    rw [List.filter_append, List.filter_eq_nil_iff.mpr (by simp),
      List.filter_eq_self.mpr (by simpa using hnew), List.nil_append]
  -- A name that the second table lacks is not in the first either.
  · rw [get?_extend u.distinct]
    change (u.get? k).or (t.get? k) = u.get? k
    rcases hk : u.get? k with _ | v
    · rw [get?_eq_none_iff, ← hrest, List.mem_append, not_or] at hk
      simp [get?_eq_none_iff.mpr hk.1]
    · rfl

/-- A list of entries with distinct names is the table of it. -/
theorem entries_ofList (hnodup : (es.map Prod.fst).Nodup) : (ofList es).entries = es := by
  have hextend : (empty : Table α).extend es = ⟨es, hnodup⟩ :=
    extend_eq_of_prefix (u := ⟨es, hnodup⟩) (List.nil_prefix)
  exact congrArg entries hextend

end Table

end IdleGame
