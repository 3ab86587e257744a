import IdleGame.Text.Unprintable

/-!
# Escaped characters

Characters that would not show in a quoted text are written with a backslash: quotes and the
backslash itself, the common controls by a letter, and all that is unprintable by its code.
-/

namespace IdleGame.Text

/-- The hexadecimal digits of a number. -/
def hexDigits (n : Nat) : List Char := Nat.toDigits 16 n

/-- A character as it stands in a text between quotes, where some kinds of quotes need a
backslash. -/
def escape (quotes : List Char) (c : Char) : List Char :=
  match c with
  | '\x00' => ['\\', '0']
  | '\t' => ['\\', 't']
  | '\r' => ['\\', 'r']
  | '\n' => ['\\', 'n']
  | '\\' => ['\\', '\\']
  | c =>
    if quotes.contains c then ['\\', c]
    else if isUnprintable c then ['\\', 'u', '\x7b'] ++ hexDigits c.toNat ++ ['\x7d']
    else [c]

/-- A text between double quotes. -/
def quoted (quotes : List Char) (text : List Char) : List Char :=
  '"' :: text.flatMap (escape quotes) ++ ['"']

end IdleGame.Text
