/-!
# RON trees

RON, the object notation of `.ron` files, writes records as `(field: value)`, variants as
`tag(value)`, lists in brackets and tables in braces. A tree holds what a text says before it is
known what kind of thing is to be read from it: numerals stay as they are written, and a group in
parentheses can be a variant, a pair or an optional value. Ranges such as `1..2` are part of the
notation although the data of games have no use for them.

## Main definitions

* `Ron.Name` - a tag, a keyword or the name of a record
* `Ron` - a tree
-/

namespace IdleGame

/-- A name. A raw name, such as `r#else`, is never a keyword. -/
structure Ron.Name where
  text : String
  raw : Bool := false
deriving DecidableEq, Repr

/-- A tree. -/
inductive Ron where
  | name (n : Ron.Name)
  | numeral (lexeme : List Char)
  | text (s : String)
  | char (c : Char)
  /-- A number written as a character. -/
  | byte (n : Nat)
  | bytes (bs : List UInt8)
  /-- The numerals between which a range goes. Either end may be open. -/
  | range (first last : Option (List Char)) (inclusive : Bool)
  /-- Parentheses with nothing between them, not even a blank. -/
  | unit
  /-- An optional value that is there, with `Some` in front of it and no parentheses around it. -/
  | bare (item : Ron)
  | list (items : List Ron)
  | table (entries : List (Ron × Ron))
  | group (name : Option Ron.Name) (items : List Ron)
  | record (name : Option Ron.Name) (fields : List (String × Ron))

namespace Ron

instance : Inhabited Ron := ⟨group none []⟩

/-- The name of a keyword. -/
def keyword (text : String) : Name := ⟨text, false⟩

/-- An optional value that is there. -/
def present (item : Ron) : Ron := group (some (keyword "Some")) [item]

/-- An optional value that is not there. -/
def absent : Ron := name (keyword "None")

end Ron

end IdleGame
