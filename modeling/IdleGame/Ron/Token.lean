import IdleGame.Decimal
import IdleGame.Ron
import IdleGame.Text.Identifier
import IdleGame.Text.Utf8

/-!
# Tokens of RON

A text is read one character at a time by a machine whose state says what the character stands in.
Between tokens there may be blanks, comments to the end of the line, and comments in `/*` and `*/`,
which nest. They leave a token of their own, because the ends of a range and an empty pair of
parentheses stand without blanks.

## Main definitions

* `Ron.Token` - a token
* `Ron.Scan` - where in a token or between tokens the reader stands
* `Ron.Scan.step` - one character
* `Ron.tokens?` - the tokens of a text
-/

namespace IdleGame.Ron

/-- A token. -/
inductive Token where
  | name (n : Name)
  | numeral (lexeme : List Char)
  | text (s : String)
  | char (c : Char)
  | byte (n : Nat)
  | bytes (bs : List UInt8)
  /-- A bracket, a separator, or a mark of an attribute. -/
  | mark (c : Char)
  /-- The two points of a range, perhaps with the sign of equality behind them. -/
  | dots (inclusive : Bool)
  | blank
  | range (first last : Option (List Char)) (inclusive : Bool)
  | unit

/-- What stands between quotes. -/
inductive Quoted where
  | text
  | bytes
  | char
  | byte

/-- A part of a quoted text: a character, a byte of the encoding of one, or a line break that is
left out. -/
inductive Piece where
  | char (c : Char)
  | byte (b : UInt8)
  | gap

/-- How far an escape has been read. The digits read so far are a number and their count. -/
inductive Escape where
  | start
  | byte (value count : Nat)
  | unicodeOpen
  | unicode (value count : Nat)
  /-- Behind the first half of a line break of two characters. -/
  | lineBreak

/-- Where the reader stands. Characters and pieces of an unfinished token are kept last first. -/
inductive Scan where
  | between
  | name (cs : List Char)
  /-- Behind a letter that announces a raw text or a raw name, and some number signs. -/
  | hashes (kind : Quoted) (count : Nat)
  | rawName (cs : List Char)
  | numeral (cs : List Char)
  /-- Behind the two points of a range. -/
  | dots
  | quoted (kind : Quoted) (pieces : List Piece)
  | escaped (kind : Quoted) (pieces : List Piece) (escape : Escape)
  /-- Behind a line break that is left out, together with the blanks after it. -/
  | indented (kind : Quoted) (pieces : List Piece)
  /-- In a raw text that is closed by a quote and `count` number signs. -/
  | raw (kind : Quoted) (count : Nat) (cs : List Char)
  /-- Behind a quote in a raw text and `seen` number signs. -/
  | rawEnd (kind : Quoted) (count : Nat) (cs : List Char) (seen : Nat)
  | slash
  | line
  /-- In a comment, behind a character that may begin or end one. -/
  | comment (depth : Nat) (last : Char)

/-- The blanks of RON. -/
def isBlank (c : Char) : Bool :=
  c = ' ' || ('\t' ≤ c && c ≤ '\r') || c = '\u0085' || c = '\u200E' || c = '\u200F' ||
    c = '\u2028' || c = '\u2029'

/-- The brackets, the separators and the marks of attributes. -/
def isMark (c : Char) : Bool :=
  c = '(' || c = ')' || c = '[' || c = ']' || c = '\x7b' || c = '\x7d' || c = ',' || c = ':' ||
    c = '#' || c = '!' || c = '='

/-- Whether a raw name can go on with a character. -/
def isRawNamePart (c : Char) : Bool :=
  Text.isIdentifierPart c || c = '.' || c = '+' || c = '-'

/-- Whether a numeral can start with a character. -/
def isNumeralStart (c : Char) : Bool := c.isDigit || c = '.' || c = '+' || c = '-'

/-- The pieces as characters, given bytes that have been read before them. Bytes in a row have to be
the encoding of characters. -/
def joinPieces? : List UInt8 → List Piece → Option (List Char)
  | pending, [] => Text.decodeUtf8? pending
  | pending, .byte b :: ps => joinPieces? (pending ++ [b]) ps
  | pending, .char c :: ps => do
    let before ← Text.decodeUtf8? pending
    let after ← joinPieces? [] ps
    some (before ++ c :: after)
  | pending, .gap :: ps => do
    let before ← Text.decodeUtf8? pending
    let after ← joinPieces? [] ps
    some (before ++ after)

/-- The bytes of a piece. -/
def Piece.bytes : Piece → List UInt8
  | .char c => Text.encodeUtf8 [c]
  | .byte b => [b]
  | .gap => []

namespace Quoted

/-- The quote that closes. -/
def quote : Quoted → Char
  | text | bytes => '"'
  | char | byte => '\''

/-- Whether the content is a single character. -/
def isSingle : Quoted → Bool
  | text | bytes => false
  | char | byte => true

/-- Whether characters can be written by their code. -/
def hasCodes : Quoted → Bool
  | text | char | bytes => true
  | byte => false

/-- The token with the given content. -/
def token? (pieces : List Piece) : Quoted → Option Token
  | text => (joinPieces? [] pieces).map fun cs => .text (String.ofList cs)
  | bytes => some (.bytes (pieces.flatMap Piece.bytes))
  | char =>
    match pieces with
    | [.char c] => some (.char c)
    | _ => none
  | byte =>
    match pieces with
    | [.char c] => if c.toNat < 0x80 then some (.byte c.toNat) else none
    | [.byte b] => some (.byte b.toNat)
    | _ => none

end Quoted

/-- The character that a backslash and this letter stand for. -/
def escaped? : Char → Option Char
  | '\'' => some '\''
  | '"' => some '"'
  | '\\' => some '\\'
  | 'n' => some '\n'
  | 'r' => some '\r'
  | 't' => some '\t'
  | '0' => some '\x00'
  | _ => none

/-- A byte as a piece. -/
def Piece.ofByte (n : Nat) : Piece :=
  if n < 0x80 then .char (Char.ofNat n) else .byte (UInt8.ofNat n)

namespace Scan

/-- The state behind the first character of something. -/
def start (c : Char) : Option (List Token × Scan) :=
  if isBlank c then some ([.blank], between)
  else if c = '/' then some ([.blank], slash)
  else if c = '"' then some ([], quoted .text [])
  else if c = '\'' then some ([], quoted .char [])
  else if isMark c then some ([.mark c], between)
  -- A lone sign or point starts a numeral too; whoever reads the token refuses it.
  else if isNumeralStart c then some ([], numeral [c])
  else if Text.isIdentifierStart c then some ([], name [c])
  else none

/-- The token of a name that ends here. -/
def nameToken (raw : Bool) (cs : List Char) : Token := .name ⟨String.ofList cs.reverse, raw⟩

/-- Ends a token in front of a character that is not part of it. -/
def endWith (token : Token) (c : Char) : Option (List Token × Scan) :=
  (start c).map fun (tokens, s) => (token :: tokens, s)

/-- One character of an escape. -/
def stepEscape (kind : Quoted) (pieces : List Piece) (c : Char) : Escape → Option Scan
  | .start =>
    if c = 'x' then some (escaped kind pieces (.byte 0 0))
    else if c = 'u' then
      if kind.hasCodes then some (escaped kind pieces .unicodeOpen) else none
    -- Only longer texts go on over a line break.
    else if c = '\n' then if kind.isSingle then none else some (indented kind (.gap :: pieces))
    else if c = '\r' then if kind.isSingle then none else some (escaped kind pieces .lineBreak)
    else (escaped? c).map fun e => quoted kind (.char e :: pieces)
  | .lineBreak => if c = '\n' then some (indented kind (.gap :: pieces)) else none
  | .byte value count => do
    let value := value * 16 + (← Decimal.digitValue? c)
    if count = 0 then some (escaped kind pieces (.byte value 1))
    else some (quoted kind (Piece.ofByte value :: pieces))
  | .unicodeOpen => if c = '\x7b' then some (escaped kind pieces (.unicode 0 0)) else none
  | .unicode value count =>
    if c = '\x7d' then
      if h : 0 < count ∧ value.isValidChar then
        some (quoted kind (.char (Char.ofNatAux value h.2) :: pieces))
      else none
    else if count < 6 then do
      let value := value * 16 + (← Decimal.digitValue? c)
      some (escaped kind pieces (.unicode value (count + 1)))
    else none

/-- One character between quotes. A single character may be the quote itself. -/
def stepQuoted (kind : Quoted) (pieces : List Piece) (c : Char) : Option (List Token × Scan) :=
  if c = '\\' then some ([], escaped kind pieces .start)
  -- In `'''` the quote in the middle is the character.
  else if c = kind.quote && !(kind.isSingle && pieces.isEmpty) then
    (kind.token? pieces.reverse).map fun t => ([t], between)
  else some ([], quoted kind (.char c :: pieces))

/-- One character of a name. The names `r`, `b` and `br` announce something else in front of a
quote or a number sign. -/
def stepName (cs : List Char) (c : Char) : Option (List Token × Scan) :=
  match cs, c with
  | ['r'], '"' => some ([], raw .text 0 [])
  | ['r'], '#' => some ([], hashes .text 1)
  | ['b'], '"' => some ([], quoted .bytes [])
  | ['b'], '\'' => some ([], quoted .byte [])
  | ['r', 'b'], '"' => some ([], raw .bytes 0 [])
  | ['r', 'b'], '#' => some ([], hashes .bytes 1)
  | _, _ =>
    if Text.isIdentifierPart c then some ([], name (c :: cs))
    else endWith (nameToken false cs) c

/-- One character of a numeral. Two points in a row are no part of it. -/
def stepNumeral (cs : List Char) (c : Char) : Option (List Token × Scan) :=
  match cs, c with
  | ['.'], '.' => some ([], dots)
  | '.' :: cs, '.' => some ([.numeral cs.reverse], dots)
  | _, _ =>
    if isRawNamePart c then some ([], numeral (c :: cs))
    else endWith (.numeral cs.reverse) c

/-- The token of a raw text. -/
def rawToken? (kind : Quoted) (cs : List Char) : Option Token :=
  kind.token? (cs.reverse.map Piece.char)

/-- One character. The tokens that end with it or in front of it are returned. -/
def step : Scan → Char → Option (List Token × Scan)
  | between, c => start c
  | name cs, c => stepName cs c
  | hashes kind count, c =>
    if c = '#' then some ([], hashes kind (count + 1))
    else if c = '"' then some ([], raw kind count [])
    else
      match kind, count with
      -- Behind one number sign there can be a raw name instead of a raw text.
      | .text, 1 => if isRawNamePart c then some ([], rawName [c]) else none
      | _, _ => none
  | rawName cs, c =>
    if isRawNamePart c then some ([], rawName (c :: cs)) else endWith (nameToken true cs) c
  | numeral cs, c => stepNumeral cs c
  | dots, c => if c = '=' then some ([.dots true], between) else endWith (.dots false) c
  | quoted kind pieces, c => stepQuoted kind pieces c
  | indented kind pieces, c =>
    if c = ' ' || c = '\t' || c = '\n' || c = '\r' then some ([], indented kind pieces)
    else stepQuoted kind pieces c
  | escaped kind pieces escape, c => (stepEscape kind pieces c escape).map fun s => ([], s)
  | raw kind count cs, c =>
    if c = '"' then
      if count = 0 then (rawToken? kind cs).map fun t => ([t], between)
      else some ([], rawEnd kind count cs 0)
    else some ([], raw kind count (c :: cs))
  | rawEnd kind count cs seen, c =>
    if c = '#' then
      if seen + 1 = count then (rawToken? kind cs).map fun t => ([t], between)
      else some ([], rawEnd kind count cs (seen + 1))
    else
      -- Too few number signs: what looked like the end belongs to the text.
      let cs := List.replicate seen '#' ++ '"' :: cs
      if c = '"' then some ([], rawEnd kind count cs 0) else some ([], raw kind count (c :: cs))
  | slash, c =>
    if c = '/' then some ([], line) else if c = '*' then some ([], comment 1 ' ') else none
  | line, c => some ([], if c = '\n' then between else line)
  | comment depth last, c =>
    -- The blank takes the place of a character that is used up, so that `/*/` does not close.
    if last = '/' ∧ c = '*' then some ([], comment (depth + 1) ' ')
    else if last = '*' ∧ c = '/' then
      some ([], if depth = 1 then between else comment (depth - 1) ' ')
    else some ([], comment depth c)

/-- The tokens that the end of the text ends, if it may end here. -/
def finish : Scan → Option (List Token)
  | between | line => some []
  | name cs => some [nameToken false cs]
  | rawName cs => some [nameToken true cs]
  | numeral cs => some [.numeral cs.reverse]
  | dots => some [.dots false]
  | _ => none

/-- The tokens of what is left of a text. -/
def run : Scan → List Char → Option (List Token)
  | s, [] => s.finish
  | s, c :: cs => do
    let (tokens, s) ← s.step c
    let rest ← run s cs
    some (tokens ++ rest)

end Scan

/-- The tokens of a text. -/
def tokens? (text : List Char) : Option (List Token) := Scan.between.run text

end IdleGame.Ron
