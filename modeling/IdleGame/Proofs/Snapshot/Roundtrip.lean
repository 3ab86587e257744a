import IdleGame.Proofs.Ron.Datum
import IdleGame.Proofs.Store

/-!
# Snapshots that read back

A snapshot that is encoded is decoded as it was, with the kind of every value and the order of every
table. Whole numbers have to fit the widths that they are read with, and the text of a number that
is written with digits has to denote it.

## Main definitions

* `Snapshot.numbers` - the numbers in a snapshot
* `Snapshot.Fits` - the whole numbers in a snapshot fit their widths

## Main results

* `Snapshot.isData_toRon` - the tree of a snapshot is written as data
* `Snapshot.ofDatum?_toRon` - the tree of a snapshot is read as the snapshot
* `Snapshot.decode?_encode_eq` - decoding undoes encoding
-/

namespace IdleGame

open Ron.Node

/-- The number that a value is. -/
def Value.number? : Value → Option Float
  | .number x => some x
  | _ => none

/-- The numbers among values. -/
def Table.numbers (vs : Values) : List Float := vs.values.filterMap Value.number?

namespace Snapshot

/-- The numbers in a snapshot. -/
def numbers (s : Snapshot) : List Float :=
  s.state.numbers ++ s.entities.flatMap fun e => e.properties.numbers

/-- The whole numbers in a snapshot fit the widths that they are read with. -/
structure Fits (s : Snapshot) : Prop where
  format : s.formatVersion < Nat.pow 2 32
  entities : ∀ e ∈ s.entities, e.id.number ≤ EntityId.maxNumber
  next : s.nextEntity ≤ EntityId.maxNumber
  fires : ∀ e ∈ s.records.entries, e.2.fires ≤ FireRecord.maxCount
  last : ∀ e ∈ s.records.entries, ∀ u ∈ e.2.last, u ≤ Clock.maxCount
  uses : ∀ e ∈ s.uses.entries, e.2 ≤ Uses.maxCount
  clock : s.clock.Fits

end Snapshot

variable {room : Nat}

/-! ## The parts -/

theorem Table.values?_toRon {vs : Values} (hroom : 2 ≤ room) (h : ∀ x ∈ vs.numbers, ReadsBack x) :
    Datum.values? (plain room (vs.toRon Value.toRon)) = some vs :=
  tableOf?_toRon hroom fun e he => value?_toRon fun x hx =>
    h x (List.mem_filterMap.mpr ⟨e.2, List.mem_map_of_mem he, hx ▸ rfl⟩)

/-- A natural number that is at most the largest one of a width is read with it. -/
theorem nat?_ofNat_of_le {bits n : Nat} (h : n ≤ Nat.pow 2 bits - 1) :
    Datum.nat? bits (plain room (Ron.ofNat n)) = some n :=
  nat?_ofNat (Nat.lt_of_le_pred (Nat.two_pow_pos bits) h)

theorem Entity.ofDatum?_toRon {e : Entity} (hroom : 4 ≤ room)
    (hid : e.id.number ≤ EntityId.maxNumber)
    (h : ∀ x ∈ e.properties.numbers, ReadsBack x) : ofDatum? (plain room e.toRon) = some e := by
  rw [ofDatum?, toRon, record?_record (by omega) (by decide) (by simp) (by simp)]
  simp only [Option.bind_eq_bind, Option.bind_some, List.map_cons, List.map_nil]
  rw [Fields.required?_eq rfl (nat?_ofNat_of_le hid), Fields.required?_eq rfl (string?_text e.kind),
    Fields.required?_eq rfl (Table.values?_toRon (by omega) h)]
  rfl

theorem FireRecord.ofDatum?_toRon {r : FireRecord} (hroom : 3 ≤ room)
    (hfires : r.fires ≤ maxCount) (hlast : ∀ u ∈ r.last, u ≤ Clock.maxCount) :
    ofDatum? (plain room r.toRon) = some r := by
  rw [ofDatum?, toRon, record?_record (by omega) (by decide) (by simp) (by simp)]
  simp only [Option.bind_eq_bind, Option.bind_some, List.map_cons, List.map_nil]
  rw [Fields.required?_eq rfl (nat?_ofNat_of_le hfires),
    optional?_ofOption (by omega) rfl fun u hu => nat?_ofNat_of_le (hlast u hu)]
  rfl

theorem Clock.ofDatum?_toRon {c : Clock} (hroom : 2 ≤ room) (h : c.Fits) :
    ofDatum? (plain room c.toRon) = some c := by
  rw [ofDatum?, toRon, record?_record hroom (by decide) (by simp) (by simp)]
  simp only [Option.bind_eq_bind, Option.bind_some, List.map_cons, List.map_nil]
  rw [Fields.required?_eq rfl (nat?_ofNat_of_le h.tick),
    Fields.required?_eq rfl (nat?_ofNat_of_le h.seconds)]
  rfl

/-! ## The whole -/

namespace Snapshot

variable {s : Snapshot}

/-- The tree of a snapshot is written as data. -/
theorem isData_toRon (s : Snapshot) : s.toRon.IsData := by
  have hvalues (vs : Values) : (vs.toRon Value.toRon).IsData :=
    Table.isData_toRon fun e _ => e.2.isData_toRon
  have hentity (e : Entity) : e.toRon.IsData :=
    Ron.isData_record (by simp) (by simp; decide)
      (by simp [Ron.isData_ofNat, hvalues, Ron.IsData.text])
  have hrecord (r : FireRecord) : r.toRon.IsData :=
    Ron.isData_record (by simp) (by simp; decide) (by simp [Ron.isData_ofNat, Ron.isData_ofOption])
  have hclock : s.clock.toRon.IsData :=
    Ron.isData_record (by simp) (by simp; decide) (by simp [Ron.isData_ofNat])
  have hrecords : (s.records.toRon FireRecord.toRon).IsData :=
    Table.isData_toRon fun e _ => hrecord e.2
  have huses : (s.uses.toRon Ron.ofNat).IsData :=
    Table.isData_toRon fun e _ => Ron.isData_ofNat e.2
  have hentities : (Ron.list (s.entities.map Entity.toRon)).IsData :=
    .list (by simp [hentity])
  exact Ron.isData_record (by simp) (by simp; decide) (by simp [Ron.isData_ofNat,
    Ron.isData_ofOption, Ron.IsData.text, hvalues, hclock, hrecords, huses, hentities])

/-- The tree of a snapshot is read as the snapshot. -/
theorem ofDatum?_toRon (hfits : s.Fits) (h : ∀ x ∈ s.numbers, ReadsBack x) :
    ofDatum? (plain 128 s.toRon) = some s := by
  have hstate : ∀ x ∈ s.state.numbers, ReadsBack x := fun x hx => h x (List.mem_append_left _ hx)
  have hentities : ∀ e ∈ s.entities, ∀ x ∈ e.properties.numbers, ReadsBack x := fun e he x hx =>
    h x (List.mem_append_right _ (List.mem_flatMap.mpr ⟨e, he, hx⟩))
  have hwords : ∀ word ∈ s.random.map UInt64.toNat, word < Nat.pow 2 64 := by
    intro word hword
    obtain ⟨random, -, rfl⟩ := Option.map_eq_some_iff.mp hword
    exact random.toNat_lt
  -- A word is written by its number, so this field is one of natural numbers like the others.
  have hrandom : Ron.ofOption (fun word : UInt64 => Ron.ofNat word.toNat) s.random =
      Ron.ofOption Ron.ofNat (s.random.map UInt64.toNat) := by
    cases s.random <;> rfl
  -- The fields are read one after the other, each under the name that it is written under.
  rw [ofDatum?, toRon, hrandom,
    record?_record (by decide) (by decide) (by simp [fields]) (by simp)]
  simp only [Option.bind_eq_bind, Option.bind_some, List.map_cons, List.map_nil]
  rw [Fields.required?_eq rfl (nat?_ofNat hfits.format),
    Fields.required?_eq rfl (string?_text s.gameId),
    Fields.required?_eq rfl (string?_text s.gameVersion),
    Fields.required?_eq rfl (Table.values?_toRon (by decide) hstate),
    Fields.required?_eq rfl (listOf?_list (by decide) fun e he =>
      Entity.ofDatum?_toRon (by decide) (hfits.entities e he) (hentities e he)),
    Fields.required?_eq rfl (nat?_ofNat_of_le hfits.next),
    optional?_ofOption (by decide) rfl fun id _ => string?_text id,
    Fields.required?_eq rfl (tableOf?_toRon (by decide) fun e he =>
      FireRecord.ofDatum?_toRon (by decide) (hfits.fires e he) (hfits.last e he)),
    Fields.required?_eq rfl (tableOf?_toRon (by decide) fun e he =>
      nat?_ofNat_of_le (hfits.uses e he)),
    Fields.required?_eq rfl (Clock.ofDatum?_toRon (by decide) hfits.clock),
    optional?_ofOption (by decide) rfl fun word hword => nat?_ofNat (hwords word hword)]
  simp [Option.map_map, Function.comp_def]

/-- A snapshot that is encoded is decoded as it was. -/
theorem decode?_encode_eq (hfits : s.Fits) (h : ∀ x ∈ s.numbers, ReadsBack x) :
    decode? s.encode = some s := by
  rw [decode?_encode, s.isData_toRon.parse?_writeAt]
  exact ofDatum?_toRon hfits h

/-- A snapshot with texts and numbers that could be taken for something else. -/
def misleading : Snapshot where
  formatVersion := 1
  gameId := "a \"game\" \x7b(1.5, [true])\x7d"
  gameVersion := "\\u\x7b41\x7d"
  state := Table.ofList [("true", .bool true), ("5", .string "5"), ("line\nbreak", .string "true"),
    ("", .number (-0.0)), ("\x00 é ℝ \u200b", .number (1.0 / 0.0)), ("-inf", .number (-1.0 / 0.0)),
    ("NaN", .number (0.0 / 0.0)), ("large", .number 1e16), ("small", .number 5e-324),
    ("largest", .number 1.7976931348623157e308), ("inf", .string "inf")]
  entities := [⟨⟨18446744073709551615⟩, "'", Table.ofList [("Some", .number 0.1)]⟩]
  nextEntity := 18446744073709551615
  phase := some "None"
  records := Table.ofList [("r#rule", ⟨4294967295, some 0⟩), ("//", ⟨0, none⟩)]
  uses := Table.ofList [("/*", 4294967295)]
  clock := ⟨18446744073709551615, 0⟩
  random := some 18446744073709551615

theorem misleading_fits : misleading.Fits where
  format := by decide
  entities := by decide
  next := by decide
  fires := by decide
  last := by decide
  uses := by decide
  clock := ⟨by decide, by decide⟩

theorem misleading_readsBack : ∀ x ∈ misleading.numbers, ReadsBack x := by decide +kernel

/-- This one reads back too. -/
theorem decode?_encode_misleading : decode? misleading.encode = some misleading :=
  decode?_encode_eq misleading_fits misleading_readsBack

end Snapshot

end IdleGame
