import IdleGame.Datum
import IdleGame.Proofs.Table

/-!
# What is read from rows and tables

Rows of data are read one item after the other, so what comes out has been read from some item, and
items that read back one by one do so in a row.

## Main results

* `Table.forall_get?_ofList_iff` - when all entries of a list can be read in a table of them
* `Datum.exists_of_get?_tableOf?` - what is found in a table has been read from some datum
* `Datum.listOf?_eq`, `Datum.tableOf?_eq`, `Fields.optional?_eq` - what reads back in a list, a
  table and an optional field
* `Field.select?_eq` - the fields of a record are picked as they were written
-/

namespace IdleGame

variable {α β δ : Type} {k : String} {v : α}

namespace Table

theorem mem_of_get?_extend {t : Table α} {es : List (String × α)}
    (h : (t.extend es).get? k = some v) : t.get? k = some v ∨ (k, v) ∈ es := by
  induction es generalizing t with
  | nil => exact .inl h
  | cons e es ih =>
    rcases ih h with hread | hmem
    · rw [get?_insert] at hread
      split at hread
      · rename_i hk
        obtain rfl := Option.some.inj hread
        subst hk
        exact .inr List.mem_cons_self
      · exact .inl hread
    · exact .inr (List.mem_cons_of_mem _ hmem)

/-- A table of entries holds nothing else. -/
theorem mem_of_get?_ofList {es : List (String × α)} (h : (ofList es).get? k = some v) :
    (k, v) ∈ es :=
  (mem_of_get?_extend h).resolve_left (by simp)

theorem mem_keys_ofList {es : List (String × α)} :
    k ∈ (ofList es).keys ↔ k ∈ es.map Prod.fst := by
  rw [ofList, keys_extend_eq_foldl, mem_foldl_addKey, keys_empty]
  simp

/-- All entries can be read in a table of them if those under one name are equal. -/
theorem forall_get?_ofList_iff {es : List (String × α)} :
    (∀ e ∈ es, (ofList es).get? e.1 = some e.2) ↔
      ∀ e ∈ es, ∀ e' ∈ es, e.1 = e'.1 → e.2 = e'.2 := by
  constructor
  · intro h e he e' he' hname
    have hread := h e he
    rw [hname, h e' he'] at hread
    exact (Option.some.inj hread).symm
  · intro h e he
    -- Some entry under the name is read, and it is equal to this one.
    obtain ⟨v, hv⟩ := mem_keys_iff.mp (mem_keys_ofList.mpr (List.mem_map_of_mem he))
    rw [hv, h e he (e.1, v) (mem_of_get?_ofList hv) rfl]

end Table

namespace Datum

/-- What comes out of a row has been read from some item. -/
theorem exists_of_mem_mapM {read : δ → Option α} {ds : List δ} {vs : List α}
    (h : ds.mapM read = some vs) (hv : v ∈ vs) : ∃ d ∈ ds, read d = some v := by
  induction ds generalizing vs with
  | nil =>
    obtain rfl := Option.some.inj h
    cases hv
  | cons d ds ih =>
    rw [List.mapM_cons] at h
    obtain ⟨w, hw, h⟩ := Option.bind_eq_some_iff.mp h
    obtain ⟨ws, hws, h⟩ := Option.bind_eq_some_iff.mp h
    obtain rfl := Option.some.inj h
    rcases List.mem_cons.mp hv with rfl | hv
    · exact ⟨d, List.mem_cons_self, hw⟩
    · obtain ⟨d', hd', hread⟩ := ih hws hv
      exact ⟨d', List.mem_cons_of_mem _ hd', hread⟩

/-- Items that read back one by one do so in a row. -/
theorem mapM_map_eq {read : δ → Option α} {write : α → δ} {vs : List α}
    (h : ∀ v ∈ vs, read (write v) = some v) : (vs.map write).mapM read = some vs := by
  induction vs with
  | nil => rfl
  | cons v vs ih =>
    rw [List.forall_mem_cons] at h
    rw [List.map_cons, List.mapM_cons, h.1, ih h.2]
    rfl

variable [Datum δ] {read : δ → Option α} {d : δ} {t : Table α}

/-- What is found in a table has been read from some datum. -/
theorem exists_of_get?_tableOf? (h : tableOf? read d = some t) (hv : t.get? k = some v) :
    ∃ d', read d' = some v := by
  obtain ⟨entries, hentries, rfl⟩ := Option.map_eq_some_iff.mp h
  obtain ⟨data, -, hentries⟩ := Option.bind_eq_some_iff.mp hentries
  obtain ⟨e, -, he⟩ := exists_of_mem_mapM hentries (Table.mem_of_get?_ofList hv)
  obtain ⟨w, hw, he⟩ := Option.map_eq_some_iff.mp he
  exact ⟨e.2, (Prod.mk.inj he).2 ▸ hw⟩

theorem listOf?_eq (write : α → δ) {vs : List α} (hlist : list? d = some (vs.map write))
    (h : ∀ v ∈ vs, read (write v) = some v) : listOf? read d = some vs := by
  rw [listOf?, hlist]
  exact mapM_map_eq h

theorem tableOf?_eq (write : α → δ)
    (htable : table? d = some (t.entries.map fun e => (e.1, write e.2)))
    (h : ∀ e ∈ t.entries, read (write e.2) = some e.2) : tableOf? read d = some t := by
  have hentries : entriesOf? read d = some t.entries := by
    rw [entriesOf?, htable]
    exact mapM_map_eq fun e he => by rw [h e he]; rfl
  have htable : Table.ofList t.entries = t := by
    obtain ⟨entries, hnodup⟩ := t
    exact Table.extend_eq_of_prefix (u := ⟨entries, hnodup⟩) List.nil_prefix
  rw [tableOf?, hentries, Option.map_some, htable]

end Datum

namespace Fields

variable {fields : Fields δ} {name : String} {read : δ → Option α} {d : δ}

theorem required?_eq {a : α} (hfield : Entries.get? name fields = some d) (h : read d = some a) :
    fields.required? name read = some a := by
  rw [required?, hfield]
  exact h

theorem optional?_eq [Datum δ] (write : α → δ) {v : Option α}
    (hfield : Entries.get? name fields = some d) (hoption : Datum.option? d = some (v.map write))
    (h : ∀ a ∈ v, read (write a) = some a) : fields.optional? name read = some v := by
  rw [optional?, hfield]
  dsimp only
  rw [hoption]
  rcases v with _ | a
  · rfl
  · exact congrArg (Option.map some) (h a rfl)

end Fields

/-- The fields of a record are picked as they were written, when each is written once at most and
under its own name. -/
theorem Field.select?_eq {ignorable : δ → Bool} {fields : List Field} {written : List (String × δ)}
    (haliases : ∀ f ∈ fields, f.aliases = [])
    (hnames : ∀ name ∈ written.map Prod.fst, name ∈ fields.map Field.name)
    (hnodup : (written.map Prod.fst).Nodup) : select? ignorable fields written = some written := by
  induction written with
  | nil => rfl
  | cons e written ih =>
    obtain ⟨name, d⟩ := e
    rw [List.map_cons, List.forall_mem_cons] at hnames
    rw [List.map_cons, List.nodup_cons] at hnodup
    rw [select?, ih hnames.2 hnodup.2]
    rcases hfind : fields.find? (·.isCalled name) with _ | f
    · obtain ⟨f, hf, rfl⟩ := List.mem_map.mp hnames.1
      have hnone := List.find?_eq_none.mp hfind f hf
      simp [isCalled] at hnone
    · have hcalled := List.find?_some hfind
      simp only [isCalled, haliases f (List.mem_of_find?_eq_some hfind), List.contains_nil,
        Bool.or_false, decide_eq_true_eq] at hcalled
      obtain rfl := hcalled
      have hnew : Entries.get? f.name written = none := Entries.get?_eq_none_iff.mpr hnodup.1
      simp [hfind, hnew]

end IdleGame
