import IdleGame.FileTree
import IdleGame.Game.Datum
import IdleGame.Game.Issue
import IdleGame.Json.Datum
import IdleGame.Ron.Datum

/-!
# Games put together from fragments

A game can be spread over several files. Every file is a fragment that adds to the sections of the
game; one of them has to say which game it is, and no id may be given twice.

## Main definitions

* `Draft` - what is known of a game so far
* `Draft.merge` - adds a fragment
* `Draft.loadText`, `Draft.loadFile`, `Draft.loadTree` - add fragments from texts and files
* `Draft.finish`, `Draft.finishChecked` - the game
* `Game.load` - the game in a file or directory
-/

namespace IdleGame

/-- What a fragment gives for the second time. -/
inductive Duplicate where
  | identity
  | config
  | stateVariable (id : String)
  | phase (id : String)
  | rule (id : String)
  | project (id : String)
  | function (name : String)
deriving DecidableEq, Repr

namespace Duplicate

/-- The duplicate in words. -/
def display : Duplicate → String
  | identity => "meta"
  | config => "config"
  | stateVariable id => "state variable " ++ inQuotes id
  | phase id => "phase " ++ inQuotes id
  | rule id => "rule " ++ inQuotes id
  | project id => "project " ++ inQuotes id
  | function name => "function " ++ inQuotes name

end Duplicate

/-- The notations of fragments. -/
inductive Format where
  | json
  | ron
deriving DecidableEq, Repr

/-- What keeps a game from being put together. -/
inductive AssemblyError where
  | files (e : FileError)
  /-- A text is no fragment in its notation. -/
  | malformed (format : Format)
  | duplicate (d : Duplicate)
  /-- No fragment says which game it is. -/
  | missingIdentity
  | invalid (issues : List Issue)
deriving DecidableEq, Repr

namespace AssemblyError

/-- The error in words. -/
def message : AssemblyError → String
  | files _ => "IO error"
  | malformed .json => "JSON parse error"
  | malformed .ron => "RON parse error"
  | duplicate d => "Duplicate definition: " ++ d.display
  | missingIdentity => "Missing required field: meta"
  | invalid issues =>
    "Invalid definition (" ++ String.ofList (digitsOf issues.length) ++ " issues): " ++
      "; ".intercalate (issues.map Issue.display)

end AssemblyError

/-- What is known of a game so far. -/
structure Draft extends Fragment

namespace Draft

/-- Nothing is known yet. -/
def empty : Draft := { identity := none, config := none }

/-- Adds items whose ids are new to those that are there, up to the first whose id is not, which is
returned as well. -/
def addNew {α : Type} (id : α → String) (known : List α) : List α → List α × Option α
  | [] => (known, none)
  | item :: items =>
    if known.any (id · = id item) then (known, some item) else addNew id (known ++ [item]) items

/-- Adds functions whose names are new to those that are there, up to the first whose name is
not. -/
def addFunctions (known : Table (List Action)) :
    List (String × List Action) → Table (List Action) × Option String
  | [] => (known, none)
  | (name, actions) :: rest =>
    if known.contains name then (known, some name)
    else addFunctions (known.insert name actions) rest

/-- A step of adding a fragment: the draft so far, or the draft at the first duplicate. -/
abbrev Step := Draft → Except (Duplicate × Draft) Draft

/-- The result of adding to a section. -/
def added {α : Type} (duplicate : α → Duplicate) (d : Draft) :
    Option α → Except (Duplicate × Draft) Draft
  | some a => .error (duplicate a, d)
  | none => .ok d

/-- Adds the identity. -/
def addIdentity (new : Option Identity) : Step := fun d =>
  match new, d.identity with
  | none, _ => .ok d
  | some _, some _ => .error (.identity, d)
  | some identity, none => .ok { d with identity := some identity }

/-- Adds the configuration. -/
def addConfig (new : Option Config) : Step := fun d =>
  match new, d.config with
  | none, _ => .ok d
  | some _, some _ => .error (.config, d)
  | some config, none => .ok { d with config := some config }

/-- Adds variables. -/
def addVariables (new : List VarDecl) : Step := fun d =>
  let (declarations, again) := addNew VarDecl.id d.declarations new
  added (.stateVariable ·.id) { d with declarations } again

/-- Adds phases. -/
def addPhases (new : List Phase) : Step := fun d =>
  let (phases, again) := addNew Phase.id d.phases new
  added (.phase ·.id) { d with phases } again

/-- Adds rules. -/
def addRules (new : List Rule) : Step := fun d =>
  let (rules, again) := addNew Rule.id d.rules new
  added (.rule ·.id) { d with rules } again

/-- Adds projects. -/
def addProjects (new : List Project) : Step := fun d =>
  let (projects, again) := addNew Project.id d.projects new
  added (.project ·.id) { d with projects } again

/-- Adds functions. -/
def addFunctionTable (new : Table (List Action)) : Step := fun d =>
  let (functions, again) := addFunctions d.functions new.entries
  added .function { d with functions } again

/-- Adds a fragment, section by section up to the first duplicate. What stands before the duplicate
has then been added. -/
def merge (fragment : Fragment) (d : Draft) : Except (Duplicate × Draft) Draft := do
  let d ← addIdentity fragment.identity d
  let d ← addConfig fragment.config d
  let d ← addVariables fragment.declarations d
  let d ← addPhases fragment.phases d
  let d ← addRules fragment.rules d
  let d ← addProjects fragment.projects d
  addFunctionTable fragment.functions d

/-- The fragment that a text holds. In RON, optional values may be written without `Some`. -/
def fragment? (format : Format) (text : String) : Option Fragment :=
  match format with
  | .json => do Fragment.ofDatum? (← Json.document? text)
  | .ron => do Fragment.ofDatum? (← Ron.document? { implicitSome := true } text)

/-- Adds the fragment that a text holds. -/
def loadText (format : Format) (text : String) (d : Draft) : Except AssemblyError Unit × Draft :=
  match fragment? format text with
  | none => (.error (.malformed format), d)
  | some fragment =>
    match d.merge fragment with
    | .ok d => (.ok (), d)
    | .error (duplicate, d) => (.error (.duplicate duplicate), d)

/-- The notation of a file. -/
def formatOf (name : String) : Format :=
  if FilePath.extension? name = some "json" then .json else .ron

/-- Adds the fragment in a file with a name and a content. -/
def loadContent (name : String) (content : ByteArray) (d : Draft) :
    Except AssemblyError Unit × Draft :=
  match String.fromUTF8? content with
  | some text => d.loadText (formatOf name) text
  | none => (.error (.files .invalidData), d)

/-- Whether a file in a directory holds a fragment. -/
def isFragmentName (name : String) : Bool :=
  FilePath.extension? name = some "ron" || FilePath.extension? name = some "json"

/-- Puts an entry of a directory in its place by name. -/
def insertEntry {α : Type} (e : String × α) : List (String × α) → List (String × α)
  | [] => [e]
  | f :: fs => if e.1 ≤ f.1 then e :: f :: fs else f :: insertEntry e fs

mutual

/-- The files with fragments in a tree with a name, in the order of their paths. -/
def fragmentFiles (name : String) : FileTree → List (String × ByteArray)
  | .file content => if isFragmentName name then [(name, content)] else []
  | .directory entries => (sortedFragments entries).flatMap Prod.snd

/-- The files with fragments in each entry of a directory, in the order of the names. -/
def sortedFragments : List (String × FileTree) → List (String × List (String × ByteArray))
  | [] => []
  | (name, t) :: entries => insertEntry (name, fragmentFiles name t) (sortedFragments entries)

end

/-- Adds the fragments in files, up to the first error. -/
def loadFiles : List (String × ByteArray) → Draft → Except AssemblyError Unit × Draft
  | [], d => (.ok (), d)
  | (name, content) :: files, d =>
    match d.loadContent name content with
    | (.ok (), d) => loadFiles files d
    | (.error e, d) => (.error e, d)

/-- Adds the fragment in the file at a path, whatever its name. -/
def loadFile (files : FileTree) (path : List String) (d : Draft) :
    Except AssemblyError Unit × Draft :=
  match files.readFile path with
  | .ok content => d.loadContent (path.getLast?.getD "") content
  | .error e => (.error (.files e), d)

/-- Adds the fragments in the directory at a path and the directories below it. -/
def loadDirectory (files : FileTree) (path : List String) (d : Draft) :
    Except AssemblyError Unit × Draft :=
  match files.entriesAt? path with
  | some entries => d.loadFiles (fragmentFiles "" (.directory entries))
  | none => (.error (.files .notFound), d)

/-- The game, if it is known which one. -/
def finish (d : Draft) : Except AssemblyError Game :=
  match d.identity with
  | some identity =>
    .ok { d.toSections with identity := identity, config := d.config.getD {} }
  | none => .error .missingIdentity

/-- The game, if it is known which one and it has no issues. -/
def finishChecked (d : Draft) : Except AssemblyError Game := do
  let g ← d.finish
  if g.issues.isEmpty then .ok g else .error (.invalid g.issues)

end Draft

namespace Game

/-- The game in a text. -/
def ofRonText (text : String) : Except AssemblyError Game :=
  match Draft.empty.loadText .ron text with
  | (.ok (), d) => d.finish
  | (.error e, _) => .error e

/-- The game without issues in the file or the directory at a path. -/
def load (files : FileTree) (path : List String) : Except AssemblyError Game :=
  let loaded :=
    if (files.entriesAt? path).isSome then Draft.empty.loadDirectory files path
    else Draft.empty.loadFile files path
  match loaded with
  | (.ok (), d) => d.finishChecked
  | (.error e, _) => .error e

end Game

end IdleGame
