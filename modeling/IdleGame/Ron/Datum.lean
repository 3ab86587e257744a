import IdleGame.Datum
import IdleGame.Ron.Numeral
import IdleGame.Ron.Parse

/-!
# Data in RON

Records stand in parentheses, with their name in front or not. A variant is its tag alone, or its
tag with a payload in parentheses. An optional value is `None` or stands in `Some(..)`, where the
text does not enable the bare form. A text can also enable that a record in `Some(..)` has no name
and no parentheses of its own.

Data may be nested 128 deep, where entering a list, a table or a record counts once and its items
once more, a variant twice, and an optional value once. This also holds for what is ignored.

## Main definitions

* `Ron.Node` - a tree and the nesting left below it
* `Ron.document?` - the datum that a text holds
-/

namespace IdleGame.Ron

/-- A tree, with the nesting left below it and the options of its text. -/
structure Node where
  tree : Ron
  room : Nat
  options : Options
  /-- What stands between the parentheses around the tree, if a record there has none of its own. -/
  content : Option Ron := none

namespace Node

/-- The node of a tree `depth` levels further down. -/
def child (n : Node) (depth : Nat) (tree : Ron) : Node :=
  { tree, room := n.room - depth, options := n.options }

/-- Nodes `depth` levels further down. Without any, one level has to be left. -/
def enter (n : Node) (depth : Nat) (items : List Ron) : Option (List Node) :=
  if (if items.isEmpty then 1 else depth) ≤ n.room then some (items.map (n.child depth)) else none

/-- Named nodes `depth` levels further down. -/
def enterNamed (n : Node) (depth : Nat) (fields : List (String × Ron)) :
    Option (List (String × Node)) := do
  let nodes ← n.enter depth (fields.map Prod.snd)
  some ((fields.map Prod.fst).zip nodes)

end Node

/-- Whether a name is a value of its own, behind which nothing can stand in parentheses. -/
def Name.isValue (n : Name) : Bool :=
  n.isSpecial || n = keyword "true" || n = keyword "false" || n = keyword "None"

mutual

/-- Whether a tree can be ignored with so much nesting left: its numerals have to be numbers and its
optional values have to hold one value. -/
def isIgnorable (o : Options) (room : Nat) : Ron → Bool
  | .name n => n ≠ keyword "Some"
  | .numeral lexeme => (number? lexeme).isSome
  | .text _ | .char _ | .byte _ | .bytes _ | .unit => true
  | .range first last _ => (first.toList ++ last.toList).all fun lexeme => (number? lexeme).isSome
  | .bare item => o.implicitSome && 1 ≤ room && isIgnorable o (room - 1) item
  | .list items => 1 ≤ room && areIgnorable o room items
  | .table entries => 1 ≤ room && areIgnorableEntries o room entries
  | .group (some n) [item] =>
    -- An optional value counts once, a group with one item like a variant.
    if n = keyword "Some" then 1 ≤ room && isIgnorable o (room - 1) item
    else !n.isValue && 2 ≤ room && isIgnorable o (room - 2) item
  | .group none items => 1 ≤ room && areIgnorable o room items
  | .group (some n) items =>
    -- Without parentheses of its own a record or a row can stand in an optional value.
    if n = keyword "Some" then o.unwrapVariants && 2 ≤ room && areIgnorable o (room - 1) items
    else !n.isValue && 1 ≤ room && areIgnorable o room items
  | .record none fields => 1 ≤ room && areIgnorableFields o room fields
  | .record (some n) fields =>
    if n = keyword "Some" then
      o.unwrapVariants && 2 ≤ room && areIgnorableFields o (room - 1) fields
    else !n.isValue && 1 ≤ room && areIgnorableFields o room fields

/-- Whether items can be ignored. -/
def areIgnorable (o : Options) (room : Nat) : List Ron → Bool
  | [] => true
  | item :: items => 2 ≤ room && isIgnorable o (room - 2) item && areIgnorable o room items

/-- Whether entries can be ignored. -/
def areIgnorableEntries (o : Options) (room : Nat) : List (Ron × Ron) → Bool
  | [] => true
  | (key, item) :: entries =>
    2 ≤ room && isIgnorable o (room - 2) key && isIgnorable o (room - 2) item &&
      areIgnorableEntries o room entries

/-- Whether fields can be ignored. -/
def areIgnorableFields (o : Options) (room : Nat) : List (String × Ron) → Bool
  | [] => true
  | (_, item) :: fields =>
    2 ≤ room && isIgnorable o (room - 2) item && areIgnorableFields o room fields

end

namespace Node

/-- Picks the fields of a record `depth` levels further down. -/
def fields? (n : Node) (depth : Nat) (fields : List Field) (written : List (String × Ron)) :
    Option (Fields Node) := do
  let nodes ← n.enterNamed depth written
  Field.select? (fun m => isIgnorable m.options m.room m.tree) fields nodes

/-- Whether the name in front of a record is right: the record's own, or none if that is allowed. -/
def isRecordName (n : Node) (name : String) : Option Name → Bool
  | some written => written.text = name
  | none => ¬ n.options.explicitNames

/-- The fields of a record. -/
def record? (name : String) (fields : List Field) (n : Node) : Option (Fields Node) :=
  match n.content, n.tree with
  | some (.record _ items), _ => n.fields? 2 fields items
  | some (.group _ []), _ => n.fields? 2 fields []
  | some _, _ => none
  | none, .record written items =>
    if n.isRecordName name written then n.fields? 2 fields items else none
  | none, .group written [] => if n.isRecordName name written then n.fields? 2 fields [] else none
  | none, .unit => if n.isRecordName name none then n.fields? 2 fields [] else none
  | _, _ => none

/-- A tag and what follows it. -/
def variant? (n : Node) : Option (String × Payload Node) :=
  if n.room < 2 then none
  else
    match n.tree with
    | .name tag => some (tag.text, ⟨true, none, none, fun _ => none⟩)
    | .group (some tag) items =>
      let single := match items with
        | [item] => some (n.child 2 item)
        | _ => none
      -- Items and fields stand in a list or a record of their own below the tag.
      let inner := n.child 1 n.tree
      some (tag.text, ⟨false, single, inner.enter 2 items,
        fun fields => if items.isEmpty then inner.fields? 2 fields [] else none⟩)
    | .record (some tag) items =>
      let inner := n.child 1 n.tree
      some (tag.text, ⟨false, none, none, fun fields => inner.fields? 2 fields items⟩)
    | _ => none

/-- The value that a word is: a truth value, a number, or else the word itself as a string. -/
def wordValue? (n : Name) : Option Value :=
  if n.raw then some (.string n.text)
  else if n.text = "true" then some (.bool true)
  else if n.text = "false" then some (.bool false)
  else if n.text = "Some" ∨ n.text = "None" then none
  else
    let (word, _) := splitPrecision n.text.toList
    match special? word with
    | some x => some (.number x)
    | none => some (.string n.text)

/-- A scalar. -/
def value? (n : Node) : Option Value :=
  match n.tree with
  | .name n => wordValue? n
  | .numeral lexeme => (number? lexeme).map .number
  | .text s => some (.string s)
  | .byte n => some (.number (Float.ofNat n))
  | .bytes bs => (Text.decodeUtf8? bs).map fun cs => .string (String.ofList cs)
  | _ => none

/-- A truth value. -/
def bool? (n : Node) : Option Bool :=
  match n.tree with
  | .name n =>
    if n = keyword "true" then some true else if n = keyword "false" then some false else none
  | _ => none

/-- A number of double precision. -/
def float? (n : Node) : Option Float :=
  match n.tree with
  | .name n =>
    match n.raw, decimal? n.text.toList with
    | false, some (x, precision) => if precision = some .single then none else some x
    | _, _ => none
  | .numeral lexeme => Ron.float? lexeme
  | _ => none

/-- The node one level further down. -/
def below? (n : Node) (tree : Ron) : Option Node :=
  if n.room = 0 then none else some (n.child 1 tree)

/-- The node between the parentheses of an optional value. Only a record can stand there with more
or less than one item. -/
def inside? (n : Node) (parentheses : Ron) : Option Node :=
  match parentheses with
  | .group _ [item] => do
    let node ← n.below? item
    some (if n.options.unwrapVariants then { node with content := some parentheses } else node)
  | _ =>
    if n.options.unwrapVariants then
      (n.below? parentheses).map fun node => { node with content := some parentheses }
    else none

/-- What an optional tree holds. -/
def option? (n : Node) : Option (Option Node) :=
  let implicit (tree : Ron) : Option (Option Node) :=
    if n.options.implicitSome then (n.below? tree).map some else none
  match n.tree with
  | .name m =>
    if m = keyword "None" then some none
    else if m = keyword "Some" then none
    else implicit n.tree
  | .group (some m) _ | .record (some m) _ =>
    if m = keyword "Some" then (n.inside? n.tree).map some else implicit n.tree
  | .bare item => implicit item
  | tree => implicit tree

/-- The items of a list. -/
def list? (n : Node) : Option (List Node) :=
  match n.tree with
  | .list items => n.enter 2 items
  | _ => none

/-- The entries of a table whose keys are texts. -/
def table? (n : Node) : Option (List (String × Node)) :=
  match n.tree with
  | .table entries => do
    let named ← entries.mapM fun (key, item) =>
      match key with
      | .text s => some (s, item)
      | _ => none
    n.enterNamed 2 named
  | _ => none

instance : Datum Node where
  room := room
  bool? := bool?
  float? := float?
  nat? bits n := match n.tree with
    | .numeral lexeme => natural? bits lexeme
    | _ => none
  string? n := match n.tree with
    | .text s => some s
    | _ => none
  value? := value?
  option? := option?
  list? := list?
  table? := table?
  record? := record?
  variant? := variant?

end Node

/-- The datum that a text holds. -/
def document? (defaults : Options) (text : String) : Option Node := do
  let (options, tree) ← parse? defaults text.toList
  some { tree, room := 128, options }

end IdleGame.Ron
