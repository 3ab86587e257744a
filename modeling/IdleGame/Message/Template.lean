import IdleGame.Value

/-!
# Message templates

A template is a text in which a name between braces stands for the value of that variable. Names
that are no variable stay as they are, braces included.

## Main definitions

* `Template.fill` - the filled template
-/

namespace IdleGame.Template

/-- What a name between braces is replaced by. -/
def shown (state : Values) (name : List Char) : List Char :=
  match state.get? (String.ofList name) with
  | some v => v.display.toList
  | none => '\x7b' :: name ++ ['\x7d']

/-- Fills what is left of a template. Inside a pair of braces, `pending` holds the name so far,
last character first; outside it is `none`. An opening brace counts only outside a pair, and one
that is never closed stands for itself. -/
def fillFrom (state : Values) : Option (List Char) → List Char → List Char
  | none, [] => []
  | none, '\x7b' :: rest => fillFrom state (some []) rest
  | none, c :: rest => c :: fillFrom state none rest
  | some pending, [] => '\x7b' :: pending.reverse
  | some pending, '\x7d' :: rest => shown state pending.reverse ++ fillFrom state none rest
  | some pending, c :: rest => fillFrom state (some (c :: pending)) rest

/-- The template with the names of variables replaced by their values. Values are not filled
again. -/
def fill (state : Values) (template : String) : String :=
  String.ofList (fillFrom state none template.toList)

end IdleGame.Template
