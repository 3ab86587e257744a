import IdleGame.Autoplay.CommandLine
import IdleGame.Game.Draft
import IdleGame.Paperclips
import IdleGame.Store.Database.Ron
import IdleGame.Store.Files
import IdleGame.Store.Memory

/-!
# The scripted player as a program

The files that a run needs are read into memory, the run is computed, its lines are printed, and
what it has saved is written back.
-/

namespace IdleGame.Program

/-- The tree of the file or directory at a path. -/
partial def readTree (place : String) : IO FileTree := do
  let path := (← IO.currentDir) / place
  if ← path.isDir then
    let entries ← path.readDir
    return .directory (← entries.toList.mapM fun e => do
      return (e.fileName, ← readTree e.path.toString))
  else return .file (← IO.FS.readBinFile path)

/-- The tree at a path, empty if nothing is there. -/
def readTreeOrEmpty (place : String) : IO FileTree := do
  if ← ((← IO.currentDir) / place).pathExists then readTree place else return .empty

/-- Writes all files of a tree below a path. -/
partial def writeTree (place : String) : FileTree → IO Unit
  | .file content => IO.FS.writeBinFile place content
  | .directory entries => do
    IO.FS.createDirAll place
    for (name, t) in entries do
      writeTree (place ++ "/" ++ name) t

/-- The game that a command line asks for. -/
def readGame (c : Autoplay.CommandLine) : IO (Except AssemblyError Game) := do
  match c.definition with
  | none => return .ok paperclips
  | some place =>
    let name := (FilePath.names place).getLast?.getD place
    match ← readTree place with
    | .directory entries => return Game.load (.directory entries) []
    | .file content => return Game.load (.directory [(name, .file content)]) [name]

/-- Prints the lines of a run, and gives the exit code of its ending. -/
def report (lines : Array String) (ending : Autoplay.Ending) : IO UInt32 := do
  for line in lines do
    IO.println line
  return UInt32.ofNat ending.code

/-- Plays a game as a command line says. -/
def playGame (c : Autoplay.CommandLine) (game : Game) : IO UInt32 := do
  match c.saves with
  | .nowhere =>
    let (lines, ending, _) := Autoplay.run c.options game false MemoryStore.empty
    report lines ending
  | .directory place =>
    let store : FileStore := ⟨← readTreeOrEmpty place⟩
    let (lines, ending, store) := Autoplay.run c.options game true store
    writeTree place store.root
    report lines ending
  | .database place =>
    let here ← ((← IO.currentDir) / place).pathExists
    let text ← if here then IO.FS.readFile place else pure DatabaseStore.empty.text
    match DatabaseStore.ofText? text with
    | none =>
      IO.eprintln (StoreError.message .database)
      report #[] .failed
    | some store =>
      let (lines, ending, store) := Autoplay.run c.options game true store
      IO.FS.writeFile place store.text
      report lines ending

/-- Plays as the arguments say. -/
def play (arguments : List String) : IO UInt32 := do
  match Autoplay.CommandLine.read? arguments with
  | none =>
    IO.eprintln "wrong options"
    report #[] .misused
  | some c =>
    match ← readGame c with
    | .ok game => playGame c game
    | .error e =>
      IO.eprintln e.message
      report #[] .failed

end IdleGame.Program

/-- The program: a failing file operation ends it like any other error. -/
def main (arguments : List String) : IO UInt32 := do
  try IdleGame.Program.play arguments
  catch e =>
    IO.eprintln (toString e)
    IdleGame.Program.report #[] .failed
