import IdleGame.Proofs.Datum
import IdleGame.Proofs.Float.Special
import IdleGame.Proofs.Ron.Numeral
import IdleGame.Proofs.Ron.Roundtrip
import IdleGame.Snapshot.Ron

/-!
# Data that reads back

Numbers, texts, optional values, lists, tables and records are read from the trees that they are
written as. A number reads back when its decimal text denotes it; the numbers without digits always
do.

## Main definitions

* `ReadsBack` - the decimal text of a number denotes it
* `Ron.Node.plain` - the node of a tree in a text without options

## Main results

* `Value.isData_toRon`, `Ron.Node.value?_toRon` - a value is written as data and reads back
* `Ron.Node.table?_toRon`, `Ron.Node.record?_record` - so do the entries of a table and the fields
  of a record
-/

namespace IdleGame

/-- The text of a number in data, if it has digits, denotes the number. -/
def ReadsBack (x : Float) : Prop :=
  ∀ b ∈ Binary.ofFloat? x,
    (Decimal.read? (b.shortest.write Layout.data)).map Decimal.toFloat = some x

instance (x : Float) : Decidable (ReadsBack x) :=
  inferInstanceAs (Decidable (∀ b ∈ Binary.ofFloat? x, _ = _))

namespace Ron

/-! ## Trees -/

theorem count_eq_zero_of_isDigit {cs : List Char} (h : ∀ c ∈ cs, c.isDigit) : cs.count '.' = 0 :=
  List.count_eq_zero.mpr fun hmem => absurd (h _ hmem) (by decide)

theorem isLexeme_digitsOf (n : Nat) : isLexeme (digitsOf n) := by
  have hdigits : ∀ c ∈ digitsOf n, c.isDigit := fun c => isDigit_of_mem_digitsOf
  rcases h : digitsOf n with _ | ⟨c, cs⟩
  · exact absurd h (digitsOf_ne_nil n)
  · rw [h, List.forall_mem_cons] at hdigits
    simp only [isLexeme, hdigits.1, Bool.true_or, count_eq_zero_of_isDigit hdigits.2,
      Nat.zero_le, decide_true, Bool.true_and, List.all_eq_true]
    intro c hc
    simp [Char.isAlphanum, hdigits.2 c hc]

theorem isLexeme_cons {c : Char} {cs : List Char} (hc : c.isDigit ∨ c = '-')
    (hcount : cs.count '.' ≤ 1) (hcs : ∀ c ∈ cs, IsNumeralChar c) : isLexeme (c :: cs) := by
  simp only [isLexeme, Bool.and_eq_true, Bool.or_eq_true, decide_eq_true_eq, List.all_eq_true]
  refine ⟨⟨hc, hcount⟩, fun c hmem => ?_⟩
  rcases hcs c hmem with h | rfl | rfl | rfl
  · simp [Char.isAlphanum, h]
  all_goals decide

theorem count_of_fractional {body : List Char} (h : Decimal.Fractional body) :
    body.count '.' ≤ 1 := by
  obtain @⟨whole, rest, mark, -, hdigits, -, hrest⟩ := h
  have hwhole := count_eq_zero_of_isDigit hdigits
  have hrest : rest.count '.' = 0 := List.count_eq_zero.mpr fun hmem => by
    rcases hrest _ hmem with h | h | h <;> exact absurd h (by decide)
  rw [List.count_append, hwhole, List.count_cons, hrest]
  split <;> omega

/-- A number that is written for data is a lexeme. -/
theorem isLexeme_write (d : Decimal) : isLexeme (d.write Layout.data) := by
  obtain ⟨body, hbody, hwrite⟩ := d.write_data
  have hchars := isNumeralChar_of_fractional hbody
  have hcount := count_of_fractional hbody
  rcases hwrite with hwrite | hwrite <;> rw [hwrite]
  -- Without a sign the first digit stands in front.
  · obtain @⟨whole, rest, mark, hwhole, hdigits, -, -⟩ := hbody
    obtain ⟨c, whole, rfl⟩ := List.exists_cons_of_ne_nil hwhole
    rw [List.cons_append, List.forall_mem_cons] at hchars
    rw [List.cons_append] at hcount ⊢
    exact isLexeme_cons (.inl (hdigits c List.mem_cons_self))
      (Nat.le_trans (List.count_le_count_cons) hcount) hchars.2
  · exact isLexeme_cons (.inr rfl) hcount hchars

theorem isData_ofNat (n : Nat) : IsData (ofNat n) := .numeral (isLexeme_digitsOf n)

theorem isData_ofFloat (x : Float) : IsData (ofFloat x) := by
  unfold ofFloat
  split
  · exact .numeral (isLexeme_write _)
  · split
    · exact .name rfl (by decide)
    · split
      · exact .numeral (by decide)
      · exact .name rfl (by decide)

/-- A record is written as data when its fields are. -/
theorem isData_record {written : List (String × Ron)} (hne : written ≠ [])
    (hwords : ∀ name ∈ written.map Prod.fst, isWord name.toList)
    (h : ∀ tree ∈ written.map Prod.snd, IsData tree) : IsData (record none written) :=
  .record hne (fun f hf => hwords f.1 (List.mem_map_of_mem hf))
    fun f hf => h f.2 (List.mem_map_of_mem hf)

theorem isData_ofOption {α : Type} {tree : α → Ron} {v : Option α}
    (h : ∀ a ∈ v, IsData (tree a)) : IsData (ofOption tree v) := by
  rcases v with _ | a
  · exact .name rfl (by decide)
  · exact .tagged rfl (by decide) (h a rfl)

end Ron

theorem Value.isData_toRon (v : Value) : v.toRon.IsData := by
  cases v with
  | bool b => cases b <;> exact .name rfl (by decide)
  | number x => exact Ron.isData_ofFloat x
  | string s => exact .text

theorem Table.isData_toRon {α : Type} {tree : α → Ron} {t : Table α}
    (h : ∀ e ∈ t.entries, (tree e.2).IsData) : (t.toRon tree).IsData := by
  refine .table (fun e he => ?_) fun e he => ?_ <;>
    obtain ⟨entry, hentry, rfl⟩ := List.mem_map.mp he
  · exact .text
  · exact h entry hentry

namespace Ron.Node

/-! ## Data -/

/-- The node of a tree in a text without options. -/
def plain (room : Nat) (tree : Ron) : Node := { tree, room, options := {} }

variable {room bits n : Nat}

theorem nat?_ofNat (h : n < Nat.pow 2 bits) :
    Datum.nat? bits (plain room (ofNat n)) = some n := natural?_digitsOf h

theorem string?_text (s : String) : Datum.string? (plain room (.text s)) = some s := rfl

theorem value?_ofFloat {x : Float} (h : ReadsBack x) :
    Datum.value? (plain room (ofFloat x)) = some (.number x) := by
  rcases hx : Binary.ofFloat? x with _ | b
  -- A number without digits is written as one of three fixed texts.
  · change value? _ = _
    simp only [value?, plain, ofFloat, hx]
    rcases Binary.eq_special_of_eq_none hx with rfl | rfl | rfl
    · rw [if_pos (by decide +kernel)]
      decide +kernel
    · rw [if_neg (by decide +kernel), if_neg (by decide +kernel)]
      decide +kernel
    · rw [if_neg (by decide +kernel), if_pos (by decide +kernel)]
      decide +kernel
  · change value? _ = _
    simp only [value?, plain, ofFloat, hx]
    rw [number?_write, h b hx]
    rfl

/-- A value reads back. -/
theorem value?_toRon {v : Value} (h : ∀ x, v = .number x → ReadsBack x) :
    Datum.value? (plain room v.toRon) = some v := by
  cases v with
  | bool b => cases b <;> rfl
  | number x => exact value?_ofFloat (h x rfl)
  | string s => rfl

theorem option?_ofOption {α : Type} {tree : α → Ron} {v : Option α} (hroom : 0 < room) :
    Datum.option? (plain room (ofOption tree v)) =
      some (v.map fun a => plain (room - 1) (tree a)) := by
  rcases v with _ | a
  · rfl
  · change option? _ = _
    simp [option?, plain, ofOption, present, keyword, inside?, below?, Nat.ne_of_gt hroom]
    rfl

theorem enter_eq {items : List Ron} {depth : Nat} (hdepth : 0 < depth) (hroom : depth ≤ room)
    (tree : Ron) :
    (plain room tree).enter depth items = some (items.map (plain (room - depth))) := by
  refine if_pos ?_
  split
  · exact Nat.le_trans hdepth hroom
  · exact hroom

theorem list?_list {items : List Ron} (hroom : 2 ≤ room) :
    Datum.list? (plain room (.list items)) = some (items.map (plain (room - 2))) :=
  enter_eq (by decide) hroom _

theorem enterNamed_eq {fields : List (String × Ron)} (hroom : 2 ≤ room) (tree : Ron) :
    (plain room tree).enterNamed 2 fields =
      some (fields.map fun f => (f.1, plain (room - 2) f.2)) := by
  rw [enterNamed, enter_eq (by decide) hroom, List.map_map]
  exact congrArg some List.zip_map'

/-- The entries of a table read back. -/
theorem table?_toRon {α : Type} {tree : α → Ron} {t : Table α} (hroom : 2 ≤ room) :
    Datum.table? (plain room (t.toRon tree)) =
      some (t.entries.map fun e => (e.1, plain (room - 2) (tree e.2))) := by
  have hwritten : t.entries.map (fun e => (text e.1, tree e.2)) =
      (t.entries.map fun e => (e.1, tree e.2)).map fun e => (text e.1, e.2) := by
    rw [List.map_map]
    rfl
  change table? _ = _
  simp only [table?, plain, Table.toRon]
  rw [hwritten, Datum.mapM_map_eq]
  · refine (enterNamed_eq hroom _).trans ?_
    rw [List.map_map]
    rfl
  · exact fun _ _ => rfl

theorem listOf?_list {α : Type} {read : Node → Option α} {tree : α → Ron} {vs : List α}
    (hroom : 2 ≤ room) (h : ∀ v ∈ vs, read (plain (room - 2) (tree v)) = some v) :
    Datum.listOf? read (plain room (.list (vs.map tree))) = some vs := by
  refine Datum.listOf?_eq (fun v => plain (room - 2) (tree v)) ?_ h
  rw [list?_list hroom, List.map_map]
  rfl

theorem tableOf?_toRon {α : Type} {read : Node → Option α} {tree : α → Ron} {t : Table α}
    (hroom : 2 ≤ room) (h : ∀ e ∈ t.entries, read (plain (room - 2) (tree e.2)) = some e.2) :
    Datum.tableOf? read (plain room (t.toRon tree)) = some t :=
  Datum.tableOf?_eq (fun v => plain (room - 2) (tree v)) (table?_toRon hroom) h

theorem optional?_ofOption {α : Type} {read : Node → Option α} {tree : α → Ron} {v : Option α}
    {fields : Fields Node} {name : String} (hroom : 0 < room)
    (hfield : Entries.get? name fields = some (plain room (ofOption tree v)))
    (h : ∀ a ∈ v, read (plain (room - 1) (tree a)) = some a) :
    fields.optional? name read = some v :=
  Fields.optional?_eq (fun a => plain (room - 1) (tree a)) hfield (option?_ofOption hroom) h

/-- The fields of a record read back when they are written under their own names. -/
theorem record?_record {name : String} {fields : List Field} {written : List (String × Ron)}
    (hroom : 2 ≤ room) (haliases : ∀ f ∈ fields, f.aliases = [])
    (hnames : ∀ name ∈ written.map Prod.fst, name ∈ fields.map Field.name)
    (hnodup : (written.map Prod.fst).Nodup) :
    Datum.record? name fields (plain room (.record none written)) =
      some (written.map fun f => (f.1, plain (room - 2) f.2)) := by
  have hkeys : (written.map fun f => (f.1, plain (room - 2) f.2)).map Prod.fst =
      written.map Prod.fst := by rw [List.map_map]; rfl
  change (plain room _).fields? 2 fields written = _
  rw [fields?, enterNamed_eq hroom]
  exact Field.select?_eq haliases (hkeys ▸ hnames) (hkeys ▸ hnodup)

end Ron.Node

end IdleGame
