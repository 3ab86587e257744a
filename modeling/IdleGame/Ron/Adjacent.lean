import IdleGame.Decimal.Text
import IdleGame.Ron.Numeral
import IdleGame.Ron.Token

/-!
# Adjacent tokens

Some tokens mean something together that they do not mean with a blank between them: the points of a
range with the numbers before and after, and an opening parenthesis with its closing one. Once these
are joined, blanks mean nothing more.

## Main definitions

* `Ron.joinAdjacent` - the tokens with ranges and units joined and without blanks
-/

namespace IdleGame.Ron

namespace Token

/-- The numeral of a token that can be an end of a range: a numeral, a byte, or the name of a number
without digits. -/
def numeral? : Token → Option (List Char)
  | numeral lexeme => some lexeme
  | byte n => some (digitsOf n)
  | name n => if n.isSpecial then some n.text.toList else none
  | _ => none

/-- Puts a token in front of tokens that are joined already. A range gets its last number when its
points are put in front of it, and then its first one. -/
def join : Token → List Token → List Token
  | mark '(', mark ')' :: rest => unit :: rest
  | dots inclusive, last :: rest =>
    match last.numeral? with
    | some lexeme => range none (some lexeme) inclusive :: rest
    -- An inclusive range has to have a last number.
    | none => (if inclusive then dots true else range none none false) :: last :: rest
  | dots false, [] => [range none none false]
  | first, range none last inclusive :: rest =>
    match first.numeral? with
    | some lexeme => range (some lexeme) last inclusive :: rest
    | none => first :: range none last inclusive :: rest
  | t, rest => t :: rest

/-- Whether a token is a blank. -/
def isBlank : Token → Bool
  | blank => true
  | _ => false

end Token

/-- Joins what stands together, and drops the blanks. -/
def joinAdjacent (tokens : List Token) : List Token :=
  (tokens.foldr Token.join []).filter fun t => !t.isBlank

end IdleGame.Ron
