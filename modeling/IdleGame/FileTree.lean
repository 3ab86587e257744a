import IdleGame.Table

/-!
# File trees

Directories and files as a tree, with the operations of a file system on paths. A path is the list
of names that lead from the root of the tree to a file or directory; every name on the way has to be
one of a directory.

## Main definitions

* `FileTree` - a file or a directory
* `FileTree.get` - the file or directory at a path
* `FileTree.makeDirectories`, `FileTree.writeFile`, `FileTree.removeFile`, `FileTree.rename` -
  changes
* `FilePath.segments`, `FilePath.names` - the names in the text of a path
* `FileTree.pathOf?`, `FileTree.resolve` - the path that a text names in a tree
-/

namespace IdleGame

/-- What keeps an operation on files from succeeding. -/
inductive FileError where
  | notFound
  | isADirectory
  | notADirectory
  | alreadyExists
  /-- A name or a whole path is too long. -/
  | tooLong
  /-- A path holds the character NUL. -/
  | invalidPath
  /-- A file that was to be read as text holds something else. -/
  | invalidData
deriving DecidableEq, Repr

/-- The name of an error. -/
def FileError.name : FileError → String
  | notFound => "NotFound"
  | isADirectory => "IsADirectory"
  | notADirectory => "NotADirectory"
  | alreadyExists => "AlreadyExists"
  | tooLong => "InvalidFilename"
  | invalidPath => "InvalidInput"
  | invalidData => "InvalidData"

/-- A file or a directory. -/
inductive FileTree where
  | file (content : ByteArray)
  | directory (entries : List (String × FileTree))

namespace FilePath

/-- The pieces of a text between slashes. -/
def segments : List Char → List (List Char)
  | [] => [[]]
  | c :: cs =>
    if c = '/' then [] :: segments cs
    else
      match segments cs with
      | s :: rest => (c :: s) :: rest
      | [] => [[c]]

/-- The names in the text of a path. Slashes at its ends and repeated ones do not count. -/
def names (path : String) : List String :=
  ((segments path.toList).filter (· ≠ [])).map String.ofList

/-- The name before the last point and what follows that point. A point at the start of a name does
not count. -/
def splitExtension (name : List Char) : List Char × Option (List Char) :=
  let after := name.reverse.takeWhile (· ≠ '.')
  match name.reverse.dropWhile (· ≠ '.') with
  | '.' :: before => if before.isEmpty then (name, none) else (before.reverse, some after.reverse)
  | _ => (name, none)

/-- The extension of a name. -/
def extension? (name : String) : Option String :=
  (splitExtension name.toList).2.map String.ofList

/-- The name without its extension. -/
def stem (name : String) : String := String.ofList (splitExtension name.toList).1

/-- Whether a name is not too long. -/
def isShort (name : String) : Bool := name.utf8ByteSize ≤ 255

/-- Whether the names of a path have no character that file systems refuse. -/
def isClean (path : List String) : Bool := path.all fun name => !name.toList.contains '\x00'

/-- The bytes of a path, with the slashes between its names. -/
def size (path : List String) : Nat := ("/".intercalate path).utf8ByteSize

/-- The most bytes that a path below the root of a tree can have. Of the 4095 bytes of a whole path,
16 lead to the root. -/
def maxSize : Nat := 4079

/-- Refuses a path for its text, whatever there may be at its end. -/
def check (path : List String) : Except FileError Unit :=
  if ¬ isClean path then .error .invalidPath
  else if maxSize < size path then .error .tooLong
  else .ok ()

end FilePath

namespace FileTree

instance : Inhabited FileTree := ⟨directory []⟩

/-- A directory without entries. -/
def empty : FileTree := directory []

/-- Whether the tree is a directory. -/
def isDirectory : FileTree → Bool
  | directory _ => true
  | file _ => false

/-- Follows a path. -/
def follow : List String → FileTree → Except FileError FileTree
  | [], t => .ok t
  | _ :: _, file _ => .error .notADirectory
  | name :: path, directory entries =>
    if ¬ FilePath.isShort name then .error .tooLong
    else
      match Entries.get? name entries with
      | some t => follow path t
      | none => .error .notFound

/-- The file or directory at a path. -/
def get (t : FileTree) (path : List String) : Except FileError FileTree := do
  FilePath.check path
  follow path t

/-- The content of the file at a path. -/
def readFile (t : FileTree) (path : List String) : Except FileError ByteArray := do
  match ← t.get path with
  | file content => .ok content
  | directory _ => .error .isADirectory

/-- Whether there is a file at a path. -/
def hasFile (t : FileTree) (path : List String) : Bool := (t.readFile path).isOk

/-- The entries of the directory at a path. -/
def entriesAt? (t : FileTree) (path : List String) : Option (List (String × FileTree)) :=
  match t.get path with
  | .ok (directory entries) => some entries
  | _ => none

/-- Goes on from the directory `here` along pieces of a text, where nothing and a point mean the
same directory and two points the one above. There is no path when they lead above the root. From
where there is no directory the pieces are kept as they are, so that the path that results leads to
an error of the same kind. -/
def pathFrom? (t : FileTree) : List String → List (List Char) → Option (List String)
  | here, [] => some here
  | here, s :: rest =>
    if (t.entriesAt? here).isNone then some (here ++ (s :: rest).map String.ofList)
    else if s = [] ∨ s = ['.'] then pathFrom? t here rest
    else if s = ['.', '.'] then if here = [] then none else pathFrom? t here.dropLast rest
    else pathFrom? t (here ++ [String.ofList s]) rest

/-- The path inside the tree that a text names. There is none if the text leads out of the tree,
above its root or, with a slash in front, to somewhere else at once. A text that is too long stays
so, although the path that it names may be short. -/
def pathOf? (t : FileTree) (text : String) : Option (List String) :=
  let pieces := FilePath.segments text.toList
  if pieces.head? = some [] ∧ 1 < pieces.length then none
  else if FilePath.maxSize < text.utf8ByteSize then some (pieces.map String.ofList)
  else t.pathFrom? [] pieces

/-- The path that a text names in a tree that stands for all files there are. If the text leads out
of the tree its pieces are kept, and nothing is at that path; a tree that stands for a part of the
files does not know what is there. -/
def resolve (t : FileTree) (text : String) : List String :=
  (t.pathOf? text).getD ((FilePath.segments text.toList).map String.ofList)

/-- Makes the directories along a path that are missing, as far as that is possible. -/
def extendPath : List String → FileTree → Except FileError Unit × FileTree
  | [], directory entries => (.ok (), directory entries)
  | [], file content => (.error .alreadyExists, file content)
  | _ :: _, file content => (.error .notADirectory, file content)
  | name :: path, directory entries =>
    if ¬ FilePath.isShort name then (.error .tooLong, directory entries)
    else
      -- The entry is put back also after an error below it, with what was made there.
      let (result, t) := extendPath path ((Entries.get? name entries).getD empty)
      (result, directory (Entries.insert name t entries))

/-- Makes the directories along a path that are missing. What was made before an error stays. -/
def makeDirectories (path : List String) (t : FileTree) : Except FileError Unit × FileTree :=
  match FilePath.check path with
  | .ok () => extendPath path t
  | .error e => (.error e, t)

/-- Changes the entry at the end of a path, whose directory has to be there. -/
def alter (change : Option FileTree → Except FileError (Option FileTree)) :
    List String → FileTree → Except FileError FileTree
  | [], _ => .error .isADirectory
  | _ :: _, file _ => .error .notADirectory
  | [name], directory entries =>
    if ¬ FilePath.isShort name then .error .tooLong
    else do
      match ← change (Entries.get? name entries) with
      | some t => .ok (directory (Entries.insert name t entries))
      | none => .ok (directory (entries.filter (·.1 ≠ name)))
  | name :: path, directory entries =>
    if ¬ FilePath.isShort name then .error .tooLong
    else
      match Entries.get? name entries with
      | some t => do
        let t ← alter change path t
        .ok (directory (Entries.insert name t entries))
      | none => .error .notFound

/-- Changes the entry at the end of a path. -/
def alterAt (change : Option FileTree → Except FileError (Option FileTree)) (path : List String)
    (t : FileTree) : Except FileError FileTree := do
  FilePath.check path
  alter change path t

/-- Writes a file. -/
def writeFile (path : List String) (content : ByteArray) : FileTree → Except FileError FileTree :=
  alterAt (fun
    | some (directory _) => .error .isADirectory
    | _ => .ok (some (file content))) path

/-- Writes a file, with the directories that lead to it. -/
def place (path : List String) (content : ByteArray) (t : FileTree) : Except FileError FileTree :=
  match t.makeDirectories path.dropLast with
  | (.ok (), t) => t.writeFile path content
  | (.error e, _) => .error e

/-- Removes a file. -/
def removeFile : List String → FileTree → Except FileError FileTree :=
  alterAt fun
    | some (file _) => .ok none
    | some (directory _) => .error .isADirectory
    | none => .error .notFound

/-- Moves a file, in place of the one at its new path if there is one. -/
def rename (source target : List String) (t : FileTree) : Except FileError FileTree := do
  let content ← t.readFile source
  -- Writing refuses a directory at the new path before anything is removed.
  let t ← t.writeFile target content
  t.removeFile source

mutual

/-- The paths of all files. -/
def filePaths : FileTree → List (List String)
  | file _ => [[]]
  | directory entries => entryPaths entries

/-- The paths of all files below entries of a directory. -/
def entryPaths : List (String × FileTree) → List (List String)
  | [] => []
  | (name, t) :: entries => (filePaths t).map (name :: ·) ++ entryPaths entries

end

end FileTree

end IdleGame
