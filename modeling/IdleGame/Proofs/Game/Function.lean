import IdleGame.Proofs.Datum
import IdleGame.Proofs.Game.Assembly

/-!
# Functions that are written more than once

A fragment writes its functions as the entries of a table. A function that an earlier fragment has
given is refused. Within one fragment a name can be written again: the table that is read keeps the
last entry, and the ones before it are dropped without a word.

## Main definitions

* `Draft.writtenFunctions?` - the functions that a text writes, one after the other
* `Draft.Drops` - some function that a text writes is not there afterwards

## Main results

* `Draft.extends_of_loadText` - what a text adds to a draft
* `Draft.written_functions_held_iff` - when all functions that are written are there
-/

namespace IdleGame

section Data

variable {δ : Type} [Datum δ] {d : δ} {fields : Fields δ} {f : Fragment} {s : Sections}

/-- The functions that a datum of a fragment writes, one after the other. A name can be written more
than once. -/
def Fragment.writtenFunctions? (d : δ) : Option (List (String × List Action)) := do
  let fields ← Datum.record? "DefinitionFile" Game.fields d
  fields.withDefault? "functions" [] (Datum.entriesOf? Action.listOfDatum?)

theorem Sections.functions_of_ofFields? (h : ofFields? fields = some s) :
    fields.withDefault? "functions" Table.empty (Datum.tableOf? Action.listOfDatum?) =
      some s.functions := by
  simp only [ofFields?, bind, pure, Option.bind_eq_some_iff, Option.some.injEq] at h
  obtain ⟨_, -, _, -, _, -, _, -, functions, hfunctions, rfl⟩ := h
  exact hfunctions

/-- The table of a fragment is that of the functions that are written. -/
theorem Fragment.exists_writtenFunctions? (h : ofDatum? d = some f) :
    ∃ es, writtenFunctions? d = some es ∧ f.functions = Table.ofList es := by
  simp only [ofDatum?, bind, pure, Option.bind_eq_some_iff, Option.some.injEq] at h
  obtain ⟨fields, hfields, sections, hsections, _, -, _, -, rfl⟩ := h
  have hread := Sections.functions_of_ofFields? hsections
  simp only [writtenFunctions?, hfields, bind, Option.bind_some]
  -- A fragment without the section writes no functions, and its table is empty.
  rcases hentry : Entries.get? "functions" fields with _ | entry
  · rw [Fields.withDefault?, hentry] at hread ⊢
    exact ⟨[], rfl, (Option.some.inj hread).symm⟩
  · rw [Fields.withDefault?, hentry] at hread ⊢
    obtain ⟨es, hes, htable⟩ := Option.map_eq_some_iff.mp hread
    exact ⟨es, hes, htable.symm⟩

end Data

namespace Draft

/-- The functions that a text writes, one after the other. -/
def writtenFunctions? (format : Format) (text : String) :
    Option (List (String × List Action)) :=
  match format with
  | .json => do Fragment.writtenFunctions? (← Json.document? text)
  | .ron => do Fragment.writtenFunctions? (← Ron.document? { implicitSome := true } text)

variable {d d' : Draft} {format : Format} {text : String} {f : Fragment}

theorem exists_writtenFunctions? (h : fragment? format text = some f) :
    ∃ es, writtenFunctions? format text = some es ∧ f.functions = Table.ofList es := by
  cases format with
  | json =>
    obtain ⟨document, hdocument, hfragment⟩ := Option.bind_eq_some_iff.mp h
    simp only [writtenFunctions?, hdocument, bind, Option.bind_some]
    exact Fragment.exists_writtenFunctions? hfragment
  | ron =>
    obtain ⟨document, hdocument, hfragment⟩ := Option.bind_eq_some_iff.mp h
    simp only [writtenFunctions?, hdocument, bind, Option.bind_some]
    exact Fragment.exists_writtenFunctions? hfragment

theorem loadText_eq_ok_iff (h : fragment? format text = some f) :
    d.loadText format text = (.ok (), d') ↔ d.merge f = .ok d' := by
  rw [loadText, h]
  rcases hmerge : d.merge f with ⟨k, d₁⟩ | d₁ <;> simp [hmerge]

/-- A fragment is taken in whole or refused for what it gives again. -/
theorem loadText_ok_or_duplicate (h : fragment? format text = some f) :
    (∃ d', d.loadText format text = (.ok (), d')) ∨
      ∃ k d', d.loadText format text = (.error (.duplicate k), d') := by
  rw [loadText, h]
  rcases hmerge : d.merge f with ⟨k, d₁⟩ | d₁
  · exact .inr ⟨k, d₁, by simp [hmerge]⟩
  · exact .inl ⟨d₁, by simp [hmerge]⟩

/-- What a text that is taken in adds to a draft. -/
theorem extends_of_loadText (h : fragment? format text = some f)
    (hload : d.loadText format text = (.ok (), d')) : d.Extends f.items d' := by
  have hmerge := (loadText_eq_ok_iff h).mp hload
  rw [merge_eq_foldlM] at hmerge
  exact extends_of_foldlM_add hmerge

/-- The functions of a fragment that is taken in come behind those that are there. -/
theorem Extends.functions_entries (h : d.Extends f.items d') :
    d'.functions.entries = d.functions.entries ++ f.functions.entries := by
  rw [h.functions, Fragment.filterMap_function?]

theorem Extends.notMem_keys (h : d.Extends f.items d') {name : String}
    (hname : name ∈ f.functions.keys) : name ∉ d.functions.keys := by
  intro hknown
  have hdistinct := d'.functions.distinct
  rw [h.functions_entries, List.map_append, List.nodup_append] at hdistinct
  exact hdistinct.2.2 name hknown name hname rfl

theorem Extends.get?_functions (h : d.Extends f.items d') {name : String} {actions : List Action}
    (hname : name ∈ f.functions.keys) :
    d'.functions.get? name = some actions ↔ f.functions.get? name = some actions := by
  rw [Table.get?_eq_some_iff, Table.get?_eq_some_iff, h.functions_entries, List.mem_append]
  -- What is there already goes by other names.
  refine ⟨fun hmem => hmem.resolve_left fun hknown => ?_, .inr⟩
  exact h.notMem_keys hname (List.mem_map_of_mem hknown)

/-- Some function that a text writes is not there when the text has been taken in. -/
def Drops (d : Draft) (format : Format) (text : String) : Prop :=
  ∃ es d', writtenFunctions? format text = some es ∧ d.loadText format text = (.ok (), d') ∧
    ∃ e ∈ es, d'.functions.get? e.1 ≠ some e.2

/-- A fragment that writes a function that is there already is refused for something that it gives
again. Of one that is taken in, every name is there, with the actions that it is written with last.
So all that it writes is there exactly if no name is written with different actions. -/
theorem written_functions_held_iff (d : Draft) (h : fragment? format text = some f) :
    ∃ es, writtenFunctions? format text = some es ∧
      ((∃ e ∈ es, e.1 ∈ d.functions.keys) →
        ∃ k d', d.loadText format text = (.error (.duplicate k), d')) ∧
      ∀ d', d.loadText format text = (.ok (), d') →
        (∀ before name actions after, es = before ++ (name, actions) :: after →
          name ∉ after.map Prod.fst → d'.functions.get? name = some actions) ∧
        ((∀ e ∈ es, d'.functions.get? e.1 = some e.2) ↔
          ∀ e ∈ es, ∀ e' ∈ es, e.1 = e'.1 → e.2 = e'.2) := by
  obtain ⟨es, hes, htable⟩ := exists_writtenFunctions? h
  have hkeys {e : String × List Action} (he : e ∈ es) : e.1 ∈ f.functions.keys := by
    rw [htable, Table.mem_keys_ofList]
    exact List.mem_map_of_mem he
  refine ⟨es, hes, ?_, ?_⟩
  · rintro ⟨e, he, hknown⟩
    rcases loadText_ok_or_duplicate h with ⟨d', hload⟩ | hrefused
    · exact absurd hknown ((extends_of_loadText h hload).notMem_keys (hkeys he))
    · exact hrefused
  · intro d' hload
    have hextends := extends_of_loadText h hload
    constructor
    · intro before name actions after hsplit hlast
      have he : (name, actions) ∈ es := by simp [hsplit]
      rw [hextends.get?_functions (hkeys he), htable, hsplit]
      exact Table.get?_extend_of_last hlast
    · have hheld : (∀ e ∈ es, d'.functions.get? e.1 = some e.2) ↔
          ∀ e ∈ es, f.functions.get? e.1 = some e.2 :=
        forall₂_congr fun e he => hextends.get?_functions (hkeys he)
      rw [hheld, htable, Table.forall_get?_ofList_iff]

/-- A text with two functions. -/
def market : String := "(functions: \x7b\"sell\": [despawn], \"rest\": []\x7d)"

/-- What the market says is there once it has been taken in, and then cannot be given again. -/
theorem market_functions_held :
    ∃ es d, writtenFunctions? .ron market = some es ∧ es.map Prod.fst = ["sell", "rest"] ∧
      empty.loadText .ron market = (.ok (), d) ∧ (∀ e ∈ es, d.functions.get? e.1 = some e.2) ∧
      ∃ k d', d.loadText .ron market = (.error (.duplicate k), d') := by
  have hsome : (fragment? .ron market).isSome := by decide +kernel
  have hok : (empty.loadText .ron market).1 = .ok () := by decide +kernel
  have hwritten : (writtenFunctions? .ron market).map (List.map Prod.fst) =
      some ["sell", "rest"] := by decide +kernel
  -- What is read off the text has been read, so it need not be unfolded again.
  generalize market = text at *
  obtain ⟨f, hf⟩ := Option.isSome_iff_exists.mp hsome
  obtain ⟨es, hes, -, hheld⟩ := written_functions_held_iff empty hf
  generalize hloaded : empty.loadText .ron text = loaded at *
  obtain ⟨answer, d⟩ := loaded
  obtain rfl : answer = .ok () := hok
  obtain ⟨es', hes', hagain, -⟩ := written_functions_held_iff d hf
  obtain rfl := Option.some.inj (hes.symm.trans hes')
  have hnames : es.map Prod.fst = ["sell", "rest"] := by
    rw [hes] at hwritten
    exact Option.some.inj hwritten
  have hnodup : (es.map Prod.fst).Nodup := by
    rw [hnames]
    decide
  have hall := (hheld d rfl).2.mpr fun e he e' he' hname =>
    congrArg Prod.snd (List.inj_on_of_nodup_map hnodup he he' hname)
  obtain ⟨e, he, -⟩ : ∃ e ∈ es, e.1 = "sell" := List.mem_map.mp (by rw [hnames]; decide)
  have hknown : e.1 ∈ d.functions.keys := Table.mem_keys_iff.mpr ⟨e.2, hall e he⟩
  exact ⟨es, d, hes, hnames, rfl, hall, hagain ⟨e, he, hknown⟩⟩

/-- Lists of different lengths are enough to see that a function is dropped. -/
theorem drops_of_length {d : Draft} (hwritten : (writtenFunctions? format text).isSome)
    (hload : (d.loadText format text).1 = .ok ())
    (hlength : ∃ e ∈ (writtenFunctions? format text).getD [],
      ((d.loadText format text).2.functions.get? e.1).map List.length ≠ some e.2.length) :
    d.Drops format text := by
  obtain ⟨es, hes⟩ := Option.isSome_iff_exists.mp hwritten
  obtain ⟨e, he, hne⟩ := hlength
  rw [hes, Option.getD_some] at he
  refine ⟨es, (d.loadText format text).2, hes, Prod.ext hload rfl, e, he, fun heq => hne ?_⟩
  rw [heq, Option.map_some]

/-- A text that writes one function twice. -/
def repeatedSale : Format → String
  | .json => "\x7b\"functions\": \x7b\"sell\": [\"despawn\"], \"sell\": []\x7d\x7d"
  | .ron => "(functions: \x7b\"sell\": [despawn], \"sell\": []\x7d)"

/-- The function is not refused in either notation, and what was written first is lost. -/
theorem repeatedSale_drops_sale :
    empty.Drops .json (repeatedSale .json) ∧ empty.Drops .ron (repeatedSale .ron) :=
  ⟨drops_of_length (by decide +kernel) (by decide +kernel) (by decide +kernel),
    drops_of_length (by decide +kernel) (by decide +kernel) (by decide +kernel)⟩

end Draft

end IdleGame
