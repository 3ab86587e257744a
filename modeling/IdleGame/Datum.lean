import IdleGame.Value

/-!
# Authored data

What is authored or saved can be written in more than one notation. A datum is a piece of data in
some notation, and the class `Datum` says how one is read as each kind of thing. A notation limits
how deep data may be nested; a datum knows how much of that is left below it.

## Main definitions

* `Datum` - a notation
* `Field` - a field of a record, with the names it can be written under
* `Fields` - the fields that were written
-/

namespace IdleGame

/-- A field of a record: its name, and other names that it may be written under. -/
structure Field where
  name : String
  aliases : List String := []

/-- The fields of a record that were written, under their own names. -/
abbrev Fields (δ : Type) := List (String × δ)

/-- What follows the tag of a variant. -/
structure Payload (δ : Type) where
  /-- Whether nothing follows. -/
  isEmpty : Bool
  /-- What follows, as one datum. -/
  single? : Option δ
  /-- What follows, as a row of data. -/
  items? : Option (List δ)
  /-- What follows, as the fields of a record. -/
  fields? : List Field → Option (Fields δ)

/-- A notation of data. Every reading fails on a datum of another form. -/
class Datum (δ : Type) where
  /-- A bound on how deep the data below is nested. -/
  room : δ → Nat
  bool? : δ → Option Bool
  float? : δ → Option Float
  /-- A natural number of at most so many bits. -/
  nat? : Nat → δ → Option Nat
  string? : δ → Option String
  value? : δ → Option Value
  /-- What an optional datum holds. -/
  option? : δ → Option (Option δ)
  list? : δ → Option (List δ)
  /-- The entries of a table, repeated names included. -/
  table? : δ → Option (List (String × δ))
  /-- The fields of a record with the given name. -/
  record? : String → List Field → δ → Option (Fields δ)
  /-- A tag and what follows it. -/
  variant? : δ → Option (String × Payload δ)

namespace Field

/-- Whether the field may be written under a name. -/
def isCalled (f : Field) (name : String) : Bool := f.name = name || f.aliases.contains name

/-- The fields among entries. No field may be written twice; entries that are no field are dropped
if they are `ignorable`. -/
def select? {δ : Type} (ignorable : δ → Bool) (fields : List Field) :
    List (String × δ) → Option (Fields δ)
  | [] => some []
  | (name, d) :: rest => do
    let selected ← select? ignorable fields rest
    match fields.find? (·.isCalled name) with
    | some f =>
      if (Entries.get? f.name selected).isSome then none else some ((f.name, d) :: selected)
    | none => if ignorable d then some selected else none

/-- The fields of a row of data in the order of the fields. The last ones may be missing. -/
def align? {δ : Type} : List Field → List δ → Option (Fields δ)
  | _, [] => some []
  | [], _ :: _ => none
  | f :: fs, d :: ds => (align? fs ds).map ((f.name, d) :: ·)

end Field

namespace Fields

variable {δ α : Type}

/-- Reads a field that has to be there. -/
def required? (fields : Fields δ) (name : String) (read : δ → Option α) : Option α := do
  read (← Entries.get? name fields)

/-- Reads a field that has a value also when it is missing. -/
def withDefault? (fields : Fields δ) (name : String) (default : α) (read : δ → Option α) :
    Option α :=
  match Entries.get? name fields with
  | some d => read d
  | none => some default

variable [Datum δ]

/-- Reads a field of an optional value. It may be missing. -/
def optional? (fields : Fields δ) (name : String) (read : δ → Option α) : Option (Option α) :=
  match Entries.get? name fields with
  | some d => do
    match ← Datum.option? d with
    | some d => (read d).map some
    | none => some none
  | none => some none

end Fields

namespace Datum

variable {δ α : Type} [Datum δ]

/-- Reads a list of data. -/
def listOf? (read : δ → Option α) (d : δ) : Option (List α) := do (← list? d).mapM read

/-- Reads a table of data, repeated names included. -/
def entriesOf? (read : δ → Option α) (d : δ) : Option (List (String × α)) := do
  (← table? d).mapM fun e => (read e.2).map (e.1, ·)

/-- Reads a table of data. A repeated name keeps its first place and its last value. -/
def tableOf? (read : δ → Option α) (d : δ) : Option (Table α) :=
  (entriesOf? read d).map Table.ofList

/-- Reads named values. -/
def values? (d : δ) : Option Values := tableOf? value? d

/-- Reads a tag that nothing follows. -/
def tag? (read : String → Option α) (d : δ) : Option α := do
  let (tag, payload) ← variant? d
  if payload.isEmpty then read tag else none

end Datum

end IdleGame
