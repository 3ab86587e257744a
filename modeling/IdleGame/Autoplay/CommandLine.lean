import IdleGame.Autoplay.Run

/-!
# The command line of the scripted player

Options have long names after two hyphens, and some have a letter after one. A value stands behind
an equals sign or in the next argument, and with a letter also right behind it. No option may be
given twice.

## Main definitions

* `CommandLine` - what a command line asks for
* `CommandLine.read?` - the command line that arguments make
-/

namespace IdleGame.Autoplay

/-- Where saved games are kept. -/
inductive SavePlace where
  | nowhere
  | directory (path : String)
  | database (path : String)
deriving DecidableEq, Repr

/-- What a command line asks for. -/
structure CommandLine where
  /-- The file or directory of the game, unless the bundled game is played. -/
  definition : Option String := none
  options : Options := {}
  saves : SavePlace := .nowhere

namespace CommandLine

/-- The options that have a value. -/
def valued : List String :=
  ["definition", "seconds", "clicks", "seed", "save-dir", "db", "report-every"]

/-- The option without a value. -/
def freshFlag : String := "fresh"

/-- The name of the option with a letter. -/
def nameOfLetter? : Char → Option String
  | 'd' => some "definition"
  | 's' => some "seconds"
  | 'c' => some "clicks"
  | _ => none

/-- An option in an argument, and its value if that is in the argument too. -/
def argument? (text : List Char) : Option (String × Option String) :=
  match text with
  | '-' :: '-' :: rest =>
    let name := String.ofList (rest.takeWhile (· ≠ '='))
    match rest.dropWhile (· ≠ '=') with
    | _ :: value => some (name, some (String.ofList value))
    | [] => some (name, none)
  | ['-', letter] => (nameOfLetter? letter).map (·, none)
  | '-' :: letter :: '=' :: value => (nameOfLetter? letter).map (·, some (String.ofList value))
  | '-' :: letter :: value => (nameOfLetter? letter).map (·, some (String.ofList value))
  | _ => none

/-- The options in arguments with their values; the option without a value gets an empty one. -/
def pairs? : List String → Option (List (String × String))
  | [] => some []
  | text :: rest => do
    match ← argument? text.toList with
    | (name, none) =>
      if name = freshFlag then (pairs? rest).map ((name, "") :: ·)
      else if name ∈ valued then
        match rest with
        | value :: rest =>
          if value.startsWith "-" then none else (pairs? rest).map ((name, value) :: ·)
        | [] => none
      else none
    | (name, some value) => if name ∈ valued then (pairs? rest).map ((name, value) :: ·) else none

/-- The command line with one option set. Saved games are kept in one place. -/
def set? (c : CommandLine) (name value : String) : Option CommandLine :=
  if value = "" ∧ name ≠ freshFlag then none
  else
    match name, c.saves with
    | "fresh", _ => some { c with options := { c.options with fresh := true } }
    | "definition", _ => some { c with definition := some value }
    | "save-dir", .nowhere => some { c with saves := .directory value }
    | "db", .nowhere => some { c with saves := .database value }
    | name, _ => (c.options.read? name value).map fun options => { c with options }

/-- The command line that options make. -/
def ofPairs? (pairs : List (String × String)) : Option CommandLine :=
  if (pairs.map Prod.fst).Nodup then pairs.foldlM (fun c p => c.set? p.1 p.2) {} else none

/-- The command line that arguments make. -/
def read? (arguments : List String) : Option CommandLine := do ofPairs? (← pairs? arguments)

end CommandLine

end IdleGame.Autoplay
