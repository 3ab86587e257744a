import IdleGame.Proofs.Game.Mute
import IdleGame.Proofs.Session.Evaluation

/-!
# Playing a game without its messages

A game is played like the game that is left without its messages, however much room each has for
messages. Every call gives the same answer, and what is left after it has the same snapshot and the
same waiting events. Only the calls that ask for messages tell the two games apart.

## Main definitions

* `Session.mute` - a session of the game without messages
* `Answer.mute` - what is answered in such a session

## Main results

* `Session.step_mute`, `Session.play_mute`, `Session.answer_mute` - calls commute with leaving the
  messages out
* `Session.applyAll_mute` - so do calls one after the other
* `Session.messages_unobserved` - a new session of a game and one without messages go on alike
-/

namespace IdleGame

open Outcome

variable {ρ σ : Type} {capacity : Nat}

/-- What is answered where there are no messages. Projects are answered as they are authored, so
they are without messages, too. -/
def Answer.mute : Answer → Answer
  | .messages _ => .messages []
  | .projects ps => .projects (ps.map Project.mute)
  | a => a

namespace Session

/-- The session of the game without messages, and with an empty log. -/
def mute (capacity : Nat) (s : Session ρ σ) : Session ρ σ :=
  { s with game := s.game.mute capacity, world := s.world.mute capacity }

variable {s : Session ρ σ}

theorem ofGame_mute (g : Game) (random : ρ) (store : σ) :
    ofGame (g.mute capacity) random store = (ofGame g random store).mute capacity :=
  rfl

theorem game_mute : (s.mute capacity).game = s.game.mute capacity := rfl

theorem running_mute : (s.mute capacity).running = s.running := rfl

/-- Seconds are as long as they are with messages. -/
theorem closing?_mute : (s.mute capacity).closing? = s.closing? := rfl

theorem advanceClock_mute : (s.mute capacity).advanceClock = s.advanceClock.mute capacity := rfl

/-- A question about a project has the same answer, if it does not depend on the effects. -/
theorem ask_mute (id : String) {question : Project → Draws ρ Bool}
    (h : ∀ p : Project, question p.mute = question p) :
    (s.mute capacity).ask id question = s.ask id question := by
  unfold ask
  rw [game_mute, Game.project?_mute]
  rcases s.game.project? id with _ | p
  · rfl
  · exact congrArg s.world.peek (h p)

theorem filterProjects_mute {test : Project → Draws ρ Bool}
    (h : ∀ p : Project, test p.mute = test p) (ps : List Project) (r : ρ) :
    (filterProjects test (ps.map Project.mute) r).1 =
      List.map Project.mute <$> (filterProjects test ps r).1 := by
  induction ps generalizing r with
  | nil => rfl
  | cons p ps ih =>
    rw [List.map_cons, filterProjects, filterProjects, h, Draws.bind_apply, Draws.bind_apply]
    rcases test p r with ⟨f | passes, r'⟩
    · rfl
    · simp only [Draws.map_outcome, ih]
      rcases (filterProjects test ps r').1 with f | rest
      · rfl
      · cases passes <;> rfl

variable [RandomSource ρ]

/-- Messages are not saved. -/
theorem snapshot_mute : (s.mute capacity).snapshot = s.snapshot := rfl

theorem deliver_mute (event : String) (params : Values) :
    (s.mute capacity).deliver event params =
      Pass.Progress.mute capacity <$> s.deliver event params :=
  Pass.run_mute (p := s.ahead) s.game.rules

/-- Triggers are handled alike: they are queued and fire the same rules. -/
theorem handleTriggers_mute (limit : Nat) (queue : List (String × Values)) :
    handleTriggers limit queue (s.mute capacity) =
      Prod.map id (mute capacity) <$> handleTriggers limit queue s := by
  induction limit generalizing queue s with
  | zero => rfl
  | succ limit ih =>
    rcases queue with _ | ⟨⟨event, params⟩, queue⟩
    · rfl
    · rw [handleTriggers_cons, handleTriggers_cons]
      refine bind_hom (deliver_mute event params) fun progress => ?_
      exact bind_hom (ih (s := s.afterDelivery progress) _) fun _ => rfl

theorem settle_mute (scope : Scope ρ) :
    (s.mute capacity).settle (scope.mute capacity) =
      Prod.map id (mute capacity) <$> s.settle scope :=
  handleTriggers_mute (s := s.afterRun scope) triggerLimit scope.effects.triggers

theorem firePasses_mute :
    (s.mute capacity).firePasses = Pass.Progress.mute capacity <$> s.firePasses := by
  unfold firePasses
  rw [closing?_mute]
  refine bind_hom (Pass.run_mute (p := s.ahead) s.game.rules) fun progress => ?_
  rcases s.closing? with _ | second
  · rfl
  · exact Pass.run_mute s.game.rules

theorem runPasses_mute :
    (s.mute capacity).runPasses =
      Prod.map (Pass.Progress.mute capacity) (Phase.Update.mute capacity) <$> s.runPasses := by
  rw [runPasses_eq, runPasses_eq]
  refine bind_hom firePasses_mute fun progress => ?_
  exact bind_hom (Phase.update_mute s.game.phases s.phase) fun _ => rfl

theorem perform_mute (name : String) (params : Values) :
    (s.mute capacity).perform name params =
      Prod.map id (mute capacity) <$> s.perform name params := by
  unfold perform
  rw [game_mute, Game.function?_mute]
  rcases s.game.function? name with _ | actions
  · rfl
  · refine bind_hom (Action.runAll_muteAll (s := s.scope) actions) fun scope => ?_
    exact bind_hom (settle_mute scope) fun _ => rfl

theorem purchase_mute (project : String) :
    (s.mute capacity).purchase project = Prod.map id (mute capacity) <$> s.purchase project := by
  unfold purchase
  rw [game_mute, Game.project?_mute]
  rcases s.game.project? project with _ | p
  · rfl
  · refine bind_hom (Project.purchase_mute (s := s.scope)) fun bought => ?_
    rcases bought with _ | ⟨uses, scope⟩
    · rfl
    · exact bind_hom (settle_mute (s := { s with uses }) scope) fun _ => rfl

variable [SaveStore σ]

/-- An automatic save writes the same snapshot at the same time. -/
theorem autosave_mute : (s.mute capacity).autosave = s.autosave.mute capacity := by
  have hdue : (s.mute capacity).isAutosaveDue = s.isAutosaveDue := rfl
  unfold autosave
  rw [hdue]
  split <;> rfl

/-- A tick fires the same rules and enters the same phase. -/
theorem step_mute :
    (s.mute capacity).step = Prod.map id (mute capacity) <$> s.step := by
  rw [step_eq, step_eq, closing?_mute]
  refine bind_hom runPasses_mute fun (progress, update) => ?_
  refine bind_hom (settle_mute (s := s.afterPasses progress update) update.scope) ?_
  intro (fired, s')
  simp only [Prod.map_apply, id_eq]
  split
  · rw [advanceClock_mute, autosave_mute]
    rfl
  · rfl

theorem steps_mute (n : Nat) : steps n (s.mute capacity) = mute capacity <$> steps n s := by
  induction n generalizing s with
  | zero => rfl
  | succ n ih =>
    rw [steps, steps]
    exact bind_hom step_mute fun _ => ih

theorem tick_mute : (s.mute capacity).tick = Prod.map id (mute capacity) <$> s.tick := by
  unfold tick
  rw [running_mute]
  split
  · exact bind_hom step_mute fun _ => rfl
  · rfl

theorem catchUp_mute (n : Nat) :
    (s.mute capacity).catchUp n = Prod.map id (mute capacity) <$> s.catchUp n := by
  unfold catchUp
  rw [running_mute]
  split
  · exact bind_hom (steps_mute n) fun _ => rfl
  · rfl

/-- A call that plays the game is answered alike. -/
theorem play_mute (move : Move) :
    (s.mute capacity).play move = Prod.map Answer.mute (mute capacity) <$> s.play move := by
  cases move with
  | tick => exact bind_hom tick_mute fun _ => rfl
  | catchUp n => exact bind_hom (catchUp_mute n) fun _ => rfl
  | perform name params => exact bind_hom (perform_mute name params) fun _ => rfl
  | trigger event params => exact bind_hom (handleTriggers_mute _ _) fun _ => rfl
  | purchase id => exact bind_hom (purchase_mute id) fun _ => rfl
  | start | stop | set | spawn | modify | remove | reset => rfl

omit [SaveStore σ] in
/-- A question is answered alike. -/
theorem answer_mute (query : Query) :
    (s.mute capacity).answer query = Answer.mute <$> s.answer query := by
  cases query with
  | canAfford id =>
    refine bind_hom (g := (·)) ?_ fun _ => rfl
    exact (ask_mute id fun _ => rfl).trans (id_map _).symm
  | isAvailable id =>
    refine bind_hom (g := (·)) ?_ fun _ => rfl
    exact (ask_mute id fun _ => rfl).trans (id_map _).symm
  | available =>
    exact bind_hom (filterProjects_mute (fun _ => rfl) s.game.projects s.world.random) fun _ => rfl
  | state | value | entity | entities | ofKind | count | phase | clock | isRunning | uses | fires
  | snapshot => rfl

theorem load_mute (slot : String) :
    (s.mute capacity).load slot = Prod.map id (mute capacity) (s.load slot) := by
  have hstored : (s.mute capacity).stored slot = s.stored slot := rfl
  unfold load
  rw [hstored]
  rcases s.stored slot with _ | _ | shot <;> rfl

/-- A call is answered alike, but for those that ask for messages. -/
theorem apply_mute (op : Operation) :
    (s.mute capacity).apply op = Prod.map Answer.mute (mute capacity) <$> s.apply op := by
  cases op with
  | play move => exact play_mute move
  | ask query => exact bind_hom (answer_mute query) fun _ => rfl
  -- A slot that is refused resets the session, and the empty log stays empty.
  | load slot =>
    rw [apply, apply, load_mute]
    rfl
  | messages | takeMessages | takeEvents | save | hasSave | clearSave => rfl

/-- Calls one after the other are answered alike, with equal snapshots in between. -/
theorem applyAll_mute (ops : List Operation) :
    applyAll ops (s.mute capacity) =
      Prod.map (List.map (Prod.map Answer.mute id)) (mute capacity) <$> applyAll ops s := by
  induction ops generalizing s with
  | nil => rfl
  | cons op ops ih =>
    rw [applyAll, applyAll]
    refine bind_hom (apply_mute op) fun _ => ?_
    exact bind_hom ih fun _ => rfl

/-- Messages are not observed by anything but the calls that ask for them. Played with any calls,
a new session of a game and one of the game without messages, each with room for any number of
messages, stop at the same fault or go on alike: the answers and the snapshots after every call are
the same, and so are the events that wait to be taken. -/
theorem messages_unobserved (g : Game) (capacity : Nat) (random : ρ) (store : σ)
    (ops : List Operation) :
    Agree
      (fun (noted, s) (noted', s') =>
        noted' = noted.map (fun (a, shot) => (a.mute, shot)) ∧ s'.snapshot = s.snapshot ∧
          s'.takeEvents.1 = s.takeEvents.1)
      (applyAll ops (ofGame g random store))
      (applyAll ops (ofGame (g.mute capacity) random store)) := by
  rw [ofGame_mute, applyAll_mute]
  rcases applyAll ops (ofGame g random store) with f | ⟨noted, s⟩
  · exact .error
  · exact .ok ⟨rfl, snapshot_mute, rfl⟩

end Session

end IdleGame
