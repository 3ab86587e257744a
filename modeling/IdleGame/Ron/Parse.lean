import IdleGame.Ron.Adjacent

/-!
# Reading RON

## Main definitions

* `Ron.value?` - the tree at the start of a list of tokens
* `Ron.Options` - what a text may leave out
* `Ron.parse?` - the tree of a text, and the options after its attributes
-/

namespace IdleGame.Ron

/-- Whether a value can follow that does not stand in parentheses. -/
def startsBare : List Token → Bool
  | .mark c :: _ => c = '[' || c = '\x7b'
  | .dots _ :: _ | [] => false
  | _ :: _ => true

mutual

/-- A tree at the start of the tokens, and the tokens after it. -/
def value? : Nat → List Token → Option (Ron × List Token)
  | 0, _ => none
  | fuel + 1, .name n :: .mark '(' :: rest => content? fuel (some n) rest
  | _ + 1, .name n :: .unit :: rest => some (.group (some n) [], rest)
  | fuel + 1, .name n :: rest =>
    if n = keyword "Some" && startsBare rest then
      (value? fuel rest).map fun (item, rest) => (.bare item, rest)
    else some (.name n, rest)
  | _ + 1, .numeral lexeme :: rest => some (.numeral lexeme, rest)
  | _ + 1, .text s :: rest => some (.text s, rest)
  | _ + 1, .char c :: rest => some (.char c, rest)
  | _ + 1, .byte n :: rest => some (.byte n, rest)
  | _ + 1, .bytes bs :: rest => some (.bytes bs, rest)
  | _ + 1, .range first last inclusive :: rest => some (.range first last inclusive, rest)
  | _ + 1, .unit :: rest => some (.unit, rest)
  | fuel + 1, .mark '(' :: rest => content? fuel none rest
  | fuel + 1, .mark '[' :: rest =>
    (items? fuel ']' rest).map fun (items, rest) => (.list items, rest)
  | fuel + 1, .mark '\x7b' :: rest =>
    (entries? fuel rest).map fun (entries, rest) => (.table entries, rest)
  | _ + 1, _ => none

/-- What stands in parentheses: fields if the first item is followed by a colon, items if not. -/
def content? : Nat → Option Name → List Token → Option (Ron × List Token)
  | 0, _, _ => none
  -- Groups have no colons, so the first one tells what this is.
  | fuel + 1, n, tokens@(.name _ :: .mark ':' :: _) =>
    (fields? fuel tokens).map fun (fields, rest) => (.record n fields, rest)
  | fuel + 1, n, tokens =>
    (items? fuel ')' tokens).map fun (items, rest) => (.group n items, rest)

/-- Items up to a closing bracket. A comma may stand behind the last one. -/
def items? : Nat → Char → List Token → Option (List Ron × List Token)
  | 0, _, _ => none
  | fuel + 1, close, tokens =>
    if let .mark c :: rest := tokens then
      if c = close then some ([], rest) else item? fuel close tokens
    else item? fuel close tokens

/-- An item, and the items after it up to a closing bracket. -/
def item? : Nat → Char → List Token → Option (List Ron × List Token)
  | 0, _, _ => none
  | fuel + 1, close, tokens => do
    let (item, rest) ← value? fuel tokens
    match rest with
    | .mark ',' :: rest =>
      let (items, rest) ← items? fuel close rest
      some (item :: items, rest)
    | .mark c :: rest => if c = close then some ([item], rest) else none
    | _ => none

/-- The entries of a table up to the closing brace. -/
def entries? : Nat → List Token → Option (List (Ron × Ron) × List Token)
  | 0, _ => none
  | _ + 1, .mark '\x7d' :: rest => some ([], rest)
  | fuel + 1, tokens => do
    let (key, rest) ← value? fuel tokens
    match rest with
    | .mark ':' :: rest =>
      let (item, rest) ← value? fuel rest
      match rest with
      | .mark ',' :: rest =>
        let (entries, rest) ← entries? fuel rest
        some ((key, item) :: entries, rest)
      | .mark '\x7d' :: rest => some ([(key, item)], rest)
      | _ => none
    | _ => none

/-- The fields of a record up to the closing parenthesis. -/
def fields? : Nat → List Token → Option (List (String × Ron) × List Token)
  | 0, _ => none
  | _ + 1, .mark ')' :: rest => some ([], rest)
  | fuel + 1, .name n :: .mark ':' :: rest => do
    let (item, rest) ← value? fuel rest
    match rest with
    | .mark ',' :: rest =>
      let (fields, rest) ← fields? fuel rest
      some ((n.text, item) :: fields, rest)
    | .mark ')' :: rest => some ([(n.text, item)], rest)
    | _ => none
  | _ + 1, _ => none

end

/-- What a text may leave out. -/
structure Options where
  /-- Optional values may be written without `Some`, or without its parentheses. -/
  implicitSome : Bool := false
  /-- Records have to be written with their names. -/
  explicitNames : Bool := false
  /-- Between the parentheses of a tag a record has no name and no parentheses of its own. -/
  unwrapVariants : Bool := false

namespace Options

/-- The options with one enabled by its name. There is an option about wrapped values that are no
variants too, but there are none in the data of games. -/
def enable? (o : Options) : String → Option Options
  | "implicit_some" => some { o with implicitSome := true }
  | "explicit_struct_names" => some { o with explicitNames := true }
  | "unwrap_newtypes" => some o
  | "unwrap_variant_newtypes" => some { o with unwrapVariants := true }
  | _ => none

end Options

/-- The names of the options that an attribute enables, up to its end, and the tokens after it. -/
def enabled? (o : Options) : List Token → Option (Options × List Token)
  | .name n :: .mark ')' :: .mark ']' :: rest
  | .name n :: .mark ',' :: .mark ')' :: .mark ']' :: rest => do some (← o.enable? n.text, rest)
  | .name n :: .mark ',' :: rest => do enabled? (← o.enable? n.text) rest
  | _ => none

/-- Reads the attributes at the start of a text. One attribute enables options, and two say for
tools what kind of text this is. -/
def attributes? : Nat → Options → List Token → Option (Options × List Token)
  | fuel + 1, o, .mark '#' :: .mark '!' :: .mark '[' :: .name n :: tokens =>
    match tokens with
    | .mark '(' :: rest => do
      if n = keyword "enable" then
        let (o, rest) ← enabled? o rest
        attributes? fuel o rest
      else none
    | .mark '=' :: .text _ :: .mark ']' :: rest =>
      if n = keyword "type" ∨ n = keyword "schema" then attributes? fuel o rest else none
    | _ => none
  | _, o, tokens => some (o, tokens)

/-- The tree of a text, and the options after its attributes. The reader goes at most four steps for
an opening bracket and its closing one and at most two for an item and its comma, so three times the
number of tokens is fuel enough. -/
def parse? (o : Options) (text : List Char) : Option (Options × Ron) := do
  let tokens := joinAdjacent (← tokens? text)
  let (o, tokens) ← attributes? tokens.length o tokens
  match ← value? (3 * tokens.length + 3) tokens with
  | (tree, []) => some (o, tree)
  | _ => none

end IdleGame.Ron
