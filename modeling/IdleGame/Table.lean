/-!
# Tables

A table maps names to values and keeps the names in the order in which they were first written.
Writing a name again changes its value and leaves its place.

## Main definitions

* `Table` - entries in order, with distinct names
* `Table.get?`, `Table.insert`, `Table.erase` - one entry
* `Table.ofList`, `Table.extend` - many entries at once

## Main results

* `Table.get?_insert` - what is read after a write
* `Table.keys_insert` - a write adds its name at the end, or leaves the names alone
-/

namespace IdleGame

universe u v

variable {α : Type u} {β : Type v}

namespace Entries

/-- The value of the first entry with this name. -/
def get? (k : String) : List (String × α) → Option α
  | [] => none
  | (k', v) :: rest => if k' = k then some v else get? k rest

/-- Changes the value of the first entry with this name, or adds an entry at the end. -/
def insert (k : String) (v : α) : List (String × α) → List (String × α)
  | [] => [(k, v)]
  | (k', v') :: rest => if k' = k then (k', v) :: rest else (k', v') :: insert k v rest

theorem keys_insert (k : String) (v : α) (es : List (String × α)) :
    (insert k v es).map Prod.fst =
      if k ∈ es.map Prod.fst then es.map Prod.fst else es.map Prod.fst ++ [k] := by
  induction es with
  | nil => simp [insert]
  | cons e rest ih =>
    obtain ⟨k', v'⟩ := e
    by_cases h : k' = k
    · simp [insert, h]
    · have h' : ¬ k = k' := fun e => h e.symm
      by_cases hm : k ∈ rest.map Prod.fst <;> simp_all [insert]

theorem get?_insert (k k' : String) (v : α) (es : List (String × α)) :
    get? k' (insert k v es) = if k = k' then some v else get? k' es := by
  induction es with
  | nil => simp [insert, get?]
  | cons e rest ih =>
    obtain ⟨a, b⟩ := e
    by_cases h : a = k
    · subst h
      by_cases h' : a = k' <;> simp [insert, get?, h']
    · by_cases h' : a = k'
      · subst h'
        have : ¬ k = a := fun e => h e.symm
        simp [insert, get?, h, this]
      · simp [insert, get?, h, h', ih]

theorem nodup_keys_insert (k : String) (v : α) {es : List (String × α)}
    (h : (es.map Prod.fst).Nodup) : ((insert k v es).map Prod.fst).Nodup := by
  rw [keys_insert]
  split
  · exact h
  · rename_i hk
    rw [List.nodup_append]
    refine ⟨h, by simp, ?_⟩
    intro a ha b hb hab
    rw [List.mem_singleton] at hb
    exact hk (hb ▸ hab ▸ ha)

end Entries

/-- Named values in the order in which the names were first written. -/
structure Table (α : Type u) where
  entries : List (String × α)
  distinct : (entries.map Prod.fst).Nodup
deriving DecidableEq

namespace Table

/-- The table without entries. -/
def empty : Table α := ⟨[], by simp⟩

instance : Inhabited (Table α) := ⟨empty⟩

/-- The names in order. -/
def keys (t : Table α) : List String := t.entries.map Prod.fst

/-- The values in order. -/
def values (t : Table α) : List α := t.entries.map Prod.snd

/-- The value under a name. -/
def get? (t : Table α) (k : String) : Option α := Entries.get? k t.entries

/-- Whether a name has a value. -/
def contains (t : Table α) (k : String) : Bool := (t.get? k).isSome

/-- Writes a value: in place under a known name, at the end under a new one. -/
def insert (t : Table α) (k : String) (v : α) : Table α :=
  ⟨Entries.insert k v t.entries, Entries.nodup_keys_insert k v t.distinct⟩

/-- Drops a name; the others keep their order. -/
def erase (t : Table α) (k : String) : Table α :=
  ⟨t.entries.filter (·.1 ≠ k), t.distinct.sublist (List.filter_sublist.map _)⟩

/-- Writes entries one after the other. -/
def extend (t : Table α) (es : List (String × α)) : Table α :=
  es.foldl (fun t e => t.insert e.1 e.2) t

/-- The table of a list of entries: a repeated name keeps its first place and its last value. -/
def ofList (es : List (String × α)) : Table α := empty.extend es

/-- Applies a function to every value. -/
def map (f : α → β) (t : Table α) : Table β :=
  ⟨t.entries.map fun e => (e.1, f e.2), by
    have : (t.entries.map fun e => (e.1, f e.2)).map Prod.fst = t.entries.map Prod.fst := by
      simp [List.map_map, Function.comp_def]
    exact this ▸ t.distinct⟩

@[simp] theorem entries_insert (t : Table α) (k : String) (v : α) :
    (t.insert k v).entries = Entries.insert k v t.entries := rfl

@[simp] theorem keys_empty : (empty : Table α).keys = [] := rfl

@[simp] theorem get?_empty (k : String) : (empty : Table α).get? k = none := rfl

@[grind =] theorem get?_insert (t : Table α) (k k' : String) (v : α) :
    (t.insert k v).get? k' = if k = k' then some v else t.get? k' :=
  Entries.get?_insert k k' v t.entries

@[grind =] theorem keys_insert (t : Table α) (k : String) (v : α) :
    (t.insert k v).keys = if k ∈ t.keys then t.keys else t.keys ++ [k] :=
  Entries.keys_insert k v t.entries

@[simp] theorem extend_nil (t : Table α) : t.extend [] = t := rfl

@[simp] theorem extend_cons (t : Table α) (e : String × α) (es : List (String × α)) :
    t.extend (e :: es) = (t.insert e.1 e.2).extend es := rfl

end Table

end IdleGame
