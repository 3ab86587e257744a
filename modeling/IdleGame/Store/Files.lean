import IdleGame.FileTree
import IdleGame.Store

/-!
# Stores in files

Every slot is a file of its own: the slot `main` of the game `clips` is the file `clips/main.ron`. A
file is first written under another name and then moved to its place, so that a slot holds at any
time either what it held before or all of what is written.

## Main definitions

* `FileStore` - a directory of slots
* `FileStore.path?` - the file of a key
* `FileStore.steps`, `FileStore.run` - how a slot is written
* `FileStore.slots` - the slots of a game
-/

namespace IdleGame

/-- A directory of slots. -/
structure FileStore where
  root : FileTree

/-- A change of the files. -/
inductive FileStep where
  | makeDirectories (path : List String)
  | writeFile (path : List String) (content : ByteArray)
  | rename (source target : List String)

namespace FileStep

/-- Makes the change. What was done before an error stays. -/
def apply (t : FileTree) : FileStep → Except FileError Unit × FileTree
  | makeDirectories path => t.makeDirectories path
  | writeFile path content => keep (t.writeFile path content)
  | rename source target => keep (t.rename source target)
where
  /-- The files as they were, after an error. -/
  keep : Except FileError FileTree → Except FileError Unit × FileTree
    | .ok t => (.ok (), t)
    | .error e => (.error e, t)

end FileStep

namespace FileStore

/-- A store without slots. -/
def empty : FileStore := ⟨.empty⟩

/-- The extension of the files of slots. -/
def slotExtension : String := "ron"

/-- Whether a piece of a key can be the name of a file: it is not empty, does not mean the directory
itself or the one above, and has no backslash. -/
def isSegment (s : List Char) : Bool :=
  s ≠ [] && s ≠ ['.'] && s ≠ ['.', '.'] && !s.contains '\\'

/-- The names of a path whose last piece gets an extension. -/
def withExtension (ending : String) : List (List Char) → List String
  | [] => []
  | [s] => [String.ofList s ++ "." ++ ending]
  | s :: rest => String.ofList s :: withExtension ending rest

/-- The pieces of a key, if each can be the name of a file. -/
def pieces? (key : String) : Option (List (List Char)) :=
  let pieces := FilePath.segments key.toList
  if pieces.all isSegment then some pieces else none

/-- The file of a key. -/
def path? (key : String) : Option (List String) :=
  (pieces? key).map (withExtension slotExtension)

/-- The file that a key is written to before it gets its name. -/
def draftPath? (key : String) : Option (List String) :=
  (pieces? key).map (withExtension (slotExtension ++ ".tmp"))

/-- The directory of a path. -/
def parent (path : List String) : List String := path.dropLast

/-- The steps of writing a slot. -/
def steps (path draft : List String) (content : ByteArray) : List FileStep :=
  [.makeDirectories (parent path), .writeFile draft content, .rename draft path]

/-- Takes steps up to the first that fails. -/
def run : List FileStep → FileTree → Except FileError Unit × FileTree
  | [], t => (.ok (), t)
  | step :: rest, t =>
    match step.apply t with
    | (.ok (), t) => run rest t
    | (.error e, t) => (.error e, t)

/-- Removes a file, if that is possible. -/
def discard (path : List String) (t : FileTree) : FileTree :=
  match t.removeFile path with
  | .ok t => t
  | .error _ => t

/-- Writes a slot. After an error nothing is left under the other name. -/
def writeSlot (path draft : List String) (content : ByteArray) (t : FileTree) :
    Except FileError Unit × FileTree :=
  match run (steps path draft content) t with
  | (.ok (), t) => (.ok (), t)
  -- The error is the one of writing, whether or not there was something to discard.
  | (.error e, t) => (.error e, discard draft t)

/-- The result of an operation on the file of a key. -/
def onPath {α : Type} (key : String) (f : List String → Except StoreError α) :
    Except StoreError α :=
  match path? key with
  | some path => f path
  | none => .error (.invalidKey key)

/-- The bytes under a key. -/
def read (s : FileStore) (key : String) : Except StoreError (Option ByteArray) :=
  onPath key fun path =>
    match s.root.readFile path with
    | .ok content => .ok (some content)
    -- A key that was never written has no file, which is no error.
    | .error .notFound => .ok none
    | .error _ => .error .files

/-- Writes bytes under a key. -/
def write (s : FileStore) (key : String) (bytes : ByteArray) : Except StoreError Unit × FileStore :=
  match path? key, draftPath? key with
  | some path, some draft =>
    match writeSlot path draft bytes s.root with
    | (.ok (), root) => (.ok (), ⟨root⟩)
    | (.error _, root) => (.error .files, ⟨root⟩)
  | _, _ => (.error (.invalidKey key), s)

/-- Removes a key. -/
def remove (s : FileStore) (key : String) : Except StoreError Unit × FileStore :=
  match path? key with
  | none => (.error (.invalidKey key), s)
  | some path =>
    match s.root.removeFile path with
    | .ok root => (.ok (), ⟨root⟩)
    | .error .notFound => (.ok (), s)
    | .error _ => (.error .files, s)

instance : SaveStore FileStore where
  read := read
  write := write
  remove := remove
  contains s key := onPath key fun path => .ok (s.root.hasFile path)

/-- The slots among the entries of a directory, sorted. -/
def slotsAmong (entries : List (String × FileTree)) : List String :=
  let names := entries.filterMap fun (name, t) =>
    if ¬ t.isDirectory ∧ FilePath.extension? name = some slotExtension then
      some (FilePath.stem name)
    else none
  names.mergeSort fun a b => decide (a ≤ b)

/-- The entries of the directory that the id of a game leads to. An id that leads out of the root of
the store leads to a directory that the store knows nothing of; its entries are `outside`. -/
def gameEntries? (s : FileStore) (gameId : String)
    (outside : Option (List (String × FileTree))) : Option (List (String × FileTree)) :=
  match s.root.pathOf? gameId with
  | some path => s.root.entriesAt? path
  | none => outside

/-- The slots of a game, sorted; none if its id leads to no directory. -/
def slots (s : FileStore) (gameId : String)
    (outside : Option (List (String × FileTree)) := none) : List String :=
  slotsAmong ((s.gameEntries? gameId outside).getD [])

end FileStore

end IdleGame
