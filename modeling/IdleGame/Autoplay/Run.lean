import IdleGame.Autoplay.Report

/-!
# A run of the scripted player

## Main definitions

* `Autoplay.Options` - how long and how the player plays
* `Autoplay.Options.read?` - an option given by name
* `Autoplay.run` - a run from the first line to the last
-/

namespace IdleGame.Autoplay

/-- How long and how the player plays. -/
structure Options where
  /-- Seconds of game time to play. -/
  seconds : Nat := 300
  /-- Clips made by hand in a second. -/
  clicks : Nat := 5
  /-- The seed to use instead of the one of the game. -/
  seed : Option UInt64 := none
  /-- The seconds between two status lines; none with zero. -/
  reportEvery : Nat := 30
  /-- Whether the run starts over where there is a saved game. -/
  fresh : Bool := false

/-- A natural number below `bound` with a sign that may be missing. -/
def readSigned? (bound : Nat) (text : List Char) : Option Nat :=
  match text with
  | '-' :: c :: digits =>
    match readDigits bound 0 (c :: digits) with
    | .ok 0 => some 0
    | _ => none
  | text => (readNat bound text).toOption

namespace Options

/-- The options with one set that has a name and a value. -/
def read? (o : Options) (name value : String) : Option Options :=
  let word := (readNat (Nat.pow 2 64) value.toList).toOption
  match name with
  | "seconds" => word.map fun seconds => { o with seconds }
  | "clicks" => (readSigned? (Nat.pow 2 32) value.toList).map fun clicks => { o with clicks }
  | "seed" => word.map fun seed => { o with seed := some (UInt64.ofNat seed) }
  | "report-every" => word.map fun reportEvery => { o with reportEvery }
  | _ => none

/-- The game with the seed of the options. -/
def seeded (o : Options) (g : Game) : Game :=
  match o.seed with
  | some seed => { g with config := { g.config with seed } }
  | none => g

end Options

/-- How a run ends. -/
inductive Ending where
  | finished
  /-- The game could not be loaded or saved. -/
  | failed
  /-- An option was wrong. -/
  | misused
  /-- The game ran into a fault. -/
  | broken
deriving DecidableEq, Repr

/-- The exit code of a program that ends so. -/
def Ending.code : Ending → Nat
  | finished => 0
  | failed => 1
  | misused => 2
  | broken => 101

variable {ρ σ : Type} [RandomSource ρ] [SaveStore σ]

/-- Goes on from the saved game, if there is one. -/
def resume (o : Options) : Autoplay ρ σ Unit := do
  if ¬ o.fresh ∧ (← session).hasSave Slot.main then
    if ← change (·.load Slot.main) then tell ("Resumed at " ++ decimal (← elapsed) ++ "s")
    else tell "Save slot unusable, starting over"

/-- Plays one tick. -/
def playTick (o : Options) : Autoplay ρ σ Unit := do
  match ← act (·.tick) with
  | none => pure ()
  | some summary =>
    tellPhase summary
    if summary.second.isSome then
      playSecond o.clicks
      if 0 < o.reportEvery ∧ (← elapsed) % o.reportEvery = 0 then tellStatus
    tellMessages
    tellEvents

/-- Plays ticks until so many seconds are completed, but not more than `ticks` of them. -/
def playUntil (o : Options) (target : Nat) : Nat → Autoplay ρ σ Unit
  | 0 => pure ()
  | ticks + 1 => do
    -- A tick that does not close a second leaves `elapsed` as it is.
    if (← elapsed) < target then
      playTick o
      playUntil o target ticks

/-- Saves at the end of a run. -/
def finalSave : Autoplay ρ σ Ending := do
  match ← change (·.save Slot.main) with
  | .ok () =>
    tell ("Saved at " ++ decimal (← elapsed) ++ "s")
    return .finished
  | .error _ => return .failed

/-- A run from the first line to the last. If it is `persistent`, it goes on from a saved game and
ends by saving. A second has as many ticks as the game says, so that many are enough for each. -/
def play (o : Options) (persistent : Bool) : Autoplay ρ σ Ending := do
  if persistent then resume o
  tell ("=== " ++ (← session).game.identity.name ++ " ===")
  change fun s => ((), s.start)
  let target := (← elapsed) + o.seconds
  playUntil o target (o.seconds * max (← session).game.config.ticksPerSecond 1)
  change fun s => ((), s.stop)
  tell ""
  tellStatus
  tellProjects
  if persistent then finalSave else return .finished

/-- The lines of a run, how it ends, and the store that it leaves. -/
def run (o : Options) (game : Game) (persistent : Bool) (store : σ) : Array String × Ending × σ :=
  let game := o.seeded game
  let start : Playthrough Generator σ :=
    ⟨Session.ofGame game (.ofSeed game.config.seed) store, #[]⟩
  let (ending, final) := Id.run (StateT.run (ExceptT.run (play o persistent)) start)
  (final.lines, ending.toOption.getD .broken, final.session.store)

end IdleGame.Autoplay
