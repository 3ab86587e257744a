import IdleGame.Decimal.Text
import IdleGame.Ron
import IdleGame.Text.Escape

/-!
# Writing RON

Trees are written over several lines: every item of a list, entry of a table and field of a record
has a line of its own, indented by four spaces, with a comma behind it.

## Main definitions

* `Ron.write` - the text of a tree
* `Ron.ofFloat`, `Ron.ofNat`, `Ron.ofOption` - trees of simple data
-/

namespace IdleGame.Ron

/-- The tree of a natural number. -/
def ofNat (n : Nat) : Ron := numeral (digitsOf n)

/-- The tree of a number. Numbers show a place or an exponent, so that they read as numbers of
double precision. -/
def ofFloat (x : Float) : Ron :=
  match Binary.ofFloat? x with
  | some b => numeral (b.shortest.write Layout.data)
  | none =>
    if x.isNaN then name (keyword "NaN")
    else if x < 0.0 then numeral ['-', 'i', 'n', 'f']
    else name (keyword "inf")

/-- The tree of an optional value. -/
def ofOption {α : Type} (tree : α → Ron) : Option α → Ron
  | some a => present (tree a)
  | none => absent

/-- The blanks in front of a line. -/
def indentation (depth : Nat) : List Char := List.replicate (4 * depth) ' '

/-- A name as it is written. -/
def writeName (n : Name) : List Char := (if n.raw then ['r', '#'] else []) ++ n.text.toList

/-- A byte as it stands between quotes. -/
def writeByte (n : Nat) : List Char :=
  ['\\', 'x'] ++ List.replicate (2 - (Text.hexDigits n).length) '0' ++ Text.hexDigits n

/-- Quotes of both kinds are written with a backslash. -/
def quotes : List Char := ['\'', '"']

/-- Lines between brackets, which stand together if there is none. -/
def bracketed (opening closing : Char) (depth : Nat) (lines : List Char) : List Char :=
  if lines.isEmpty then [opening, closing]
  else opening :: '\n' :: lines ++ indentation depth ++ [closing]

mutual

/-- The text of a tree that stands `depth` levels deep. -/
def writeAt (depth : Nat) : Ron → List Char
  | .name n => writeName n
  | .numeral lexeme => lexeme
  | .text s => Text.quoted quotes s.toList
  | .char c => '\'' :: Text.escape quotes c ++ ['\'']
  | .byte n => ['b', '\''] ++ writeByte n ++ ['\'']
  | .bytes bs => ['b', '"'] ++ bs.flatMap (fun b => writeByte b.toNat) ++ ['"']
  | .range first last inclusive =>
    first.getD [] ++ ['.', '.'] ++ (if inclusive then ['='] else []) ++ last.getD []
  | .unit => ['(', ')']
  | .bare item => ['S', 'o', 'm', 'e', ' '] ++ writeAt depth item
  | .list items => bracketed '[' ']' depth (writeItems (depth + 1) items)
  | .table entries => bracketed '\x7b' '\x7d' depth (writeEntries (depth + 1) entries)
  | .group (some n) [item] => writeName n ++ '(' :: writeAt depth item ++ [')']
  | .group n items =>
    (n.map writeName).getD [] ++ bracketed '(' ')' depth (writeItems (depth + 1) items)
  | .record n fields =>
    (n.map writeName).getD [] ++ bracketed '(' ')' depth (writeFields (depth + 1) fields)

/-- The lines of items. -/
def writeItems (depth : Nat) : List Ron → List Char
  | [] => []
  | item :: items =>
    indentation depth ++ writeAt depth item ++ [',', '\n'] ++ writeItems depth items

/-- The lines of entries. -/
def writeEntries (depth : Nat) : List (Ron × Ron) → List Char
  | [] => []
  | (key, item) :: entries =>
    indentation depth ++ writeAt depth key ++ [':', ' '] ++ writeAt depth item ++ [',', '\n'] ++
      writeEntries depth entries

/-- The lines of fields. -/
def writeFields (depth : Nat) : List (String × Ron) → List Char
  | [] => []
  | (field, item) :: fields =>
    indentation depth ++ field.toList ++ [':', ' '] ++ writeAt depth item ++ [',', '\n'] ++
      writeFields depth fields

end

/-- The text of a tree. -/
def write (tree : Ron) : String := String.ofList (writeAt 0 tree)

end IdleGame.Ron
