import IdleGame.Decimal

/-!
# JSON texts

JSON values with everything a reader may want to look at: members in the order of the text,
repeated names included, and numerals as exact decimals.

## Main definitions

* `Json` - a JSON value
* `Json.parse?` - the value that a text holds
-/

namespace IdleGame

/-- A JSON value. Escapes in a string can name half of a surrogate pair; such a string has no
characters and is `none`. -/
inductive Json where
  | null
  | bool (b : Bool)
  /-- A numeral; `whole` tells whether it is written without a point and an exponent. -/
  | number (value : Decimal) (whole : Bool)
  | string (s : Option String)
  | array (items : List Json)
  | object (members : List (Option String × Json))
deriving Inhabited

namespace Json

/-- The four blanks of JSON. -/
def isBlank (c : Char) : Bool := c = ' ' || c = '\t' || c = '\n' || c = '\r'

/-- The text after the blanks at its start. -/
def skipBlanks (cs : List Char) : List Char := cs.dropWhile isBlank

/-- The code that four hexadecimal digits denote. -/
def hexCode? (a b c d : Char) : Option Nat := Decimal.ofDigits? 16 [a, b, c, d]

/-- The character that a backslash and this letter stand for. -/
def escaped? : Char → Option Char
  | '"' => some '"'
  | '\\' => some '\\'
  | '/' => some '/'
  | 'b' => some '\x08'
  | 'f' => some '\x0c'
  | 'n' => some '\n'
  | 'r' => some '\r'
  | 't' => some '\t'
  | _ => none

/-- The codes of a string up to its closing quote, and the text after the quote. Characters below
the space have to be escaped. -/
def stringCodes? : List Char → Option (List Nat × List Char)
  | [] => none
  | '"' :: rest => some ([], rest)
  | '\\' :: 'u' :: a :: b :: c :: d :: rest => do
    let code ← hexCode? a b c d
    let (codes, rest) ← stringCodes? rest
    some (code :: codes, rest)
  | '\\' :: e :: rest => do
    let char ← escaped? e
    let (codes, rest) ← stringCodes? rest
    some (char.toNat :: codes, rest)
  | c :: rest =>
    -- A backslash comes here only at the end of the text, where no letter follows it.
    if c.toNat < 0x20 ∨ c = '\\' then none
    else do
      let (codes, rest) ← stringCodes? rest
      some (c.toNat :: codes, rest)

/-- Puts a high and a low surrogate that follow each other together into one code. -/
def joinSurrogates : List Nat → List Nat
  | high :: low :: rest =>
    if 0xD800 ≤ high ∧ high < 0xDC00 ∧ 0xDC00 ≤ low ∧ low < 0xE000 then
      (0x10000 + (high - 0xD800) * 0x400 + (low - 0xDC00)) :: joinSurrogates rest
    else high :: joinSurrogates (low :: rest)
  | codes => codes

/-- The characters with these codes, if each is one. -/
def ofCodes? (codes : List Nat) : Option String :=
  (codes.mapM fun (n : Nat) => if h : n.isValidChar then some (Char.ofNatAux n h) else none).map
    String.ofList

/-- A string up to its closing quote, and the text after the quote. -/
def string? (cs : List Char) : Option (Option String × List Char) :=
  (stringCodes? cs).map fun (codes, rest) => (ofCodes? (joinSurrogates codes), rest)

/-- Whether a character may stand in a numeral. -/
def isNumeral (c : Char) : Bool := c.isDigit || c = '-' || c = '+' || c = '.' || c = 'e' || c = 'E'

/-- The value of a numeral. Other than in general decimals there is no leading zero and no plus
sign, and digits stand on both sides of a point. -/
def numeral? (cs : List Char) : Option Json := do
  let value ← Decimal.read? cs
  let body := match cs with | '-' :: rest => rest | cs => cs
  -- All that is left to check is what the general reading is more generous about.
  let tail := body.dropWhile Char.isDigit
  let plainWhole := match body with
    | '0' :: c :: _ => !c.isDigit
    | c :: _ => c.isDigit
    | [] => false
  let plainPlaces := match tail with
    | '.' :: c :: _ => c.isDigit
    | '.' :: [] => false
    | _ => true
  if plainWhole && plainPlaces then some (.number value tail.isEmpty) else none

mutual

/-- A value at the start of a text, and what follows it. -/
def value? : Nat → List Char → Option (Json × List Char)
  | 0, _ => none
  | fuel + 1, cs =>
    match skipBlanks cs with
    | 'n' :: 'u' :: 'l' :: 'l' :: rest => some (.null, rest)
    | 't' :: 'r' :: 'u' :: 'e' :: rest => some (.bool true, rest)
    | 'f' :: 'a' :: 'l' :: 's' :: 'e' :: rest => some (.bool false, rest)
    | '"' :: rest => (string? rest).map fun (s, rest) => (.string s, rest)
    | '[' :: rest =>
      match skipBlanks rest with
      | ']' :: rest => some (.array [], rest)
      | rest => (items? fuel rest).map fun (items, rest) => (.array items, rest)
    | '\x7b' :: rest =>
      match skipBlanks rest with
      | '\x7d' :: rest => some (.object [], rest)
      | rest => (members? fuel rest).map fun (members, rest) => (.object members, rest)
    | cs => (numeral? (cs.takeWhile isNumeral)).map fun v => (v, cs.dropWhile isNumeral)

/-- The items of a nonempty array up to its closing bracket. -/
def items? : Nat → List Char → Option (List Json × List Char)
  | 0, _ => none
  | fuel + 1, cs => do
    let (item, rest) ← value? fuel cs
    match skipBlanks rest with
    | ',' :: rest =>
      let (items, rest) ← items? fuel rest
      some (item :: items, rest)
    | ']' :: rest => some ([item], rest)
    | _ => none

/-- The members of a nonempty object up to its closing brace. -/
def members? : Nat → List Char → Option (List (Option String × Json) × List Char)
  | 0, _ => none
  | fuel + 1, cs =>
    match skipBlanks cs with
    | '"' :: rest => do
      let (name, rest) ← string? rest
      match skipBlanks rest with
      | ':' :: rest =>
        let (item, rest) ← value? fuel rest
        match skipBlanks rest with
        | ',' :: rest =>
          let (members, rest) ← members? fuel rest
          some ((name, item) :: members, rest)
        | '\x7d' :: rest => some ([(name, item)], rest)
        | _ => none
      | _ => none
    | _ => none

end

/-- The value that a text holds, with nothing but blanks around it. Every step of the reader takes
a character, so twice the length is fuel enough. -/
def parse? (text : String) : Option Json :=
  let cs := text.toList
  match value? (2 * cs.length + 2) cs with
  | some (v, rest) => if (skipBlanks rest).isEmpty then some v else none
  | none => none

end Json

end IdleGame
