import IdleGame.Proofs.Session.Evaluation

/-!
# How calls change the world of a session

A call other than loading changes the world in small turns: the changes that the game itself makes,
the clock, and what comes from outside. All that is evaluated on the way is authored in the game
and reads a world that such turns lead to.

## Main definitions

* `Session.Plays` - a session after actions of its game
* `World.Turn` - one change of the world by a call that does not load
* `World.Turns` - some turns, one after the other

## Main results

* `Session.apply_turns` - a call that does not load takes turns
* `Operation.Evaluates.reads` - what a call evaluates, and the world that it reads
-/

namespace IdleGame

open Relation (ReflTransGen)

variable {ρ σ : Type} [RandomSource ρ]

namespace Session

/-- A session after actions of its game: the world has changed as the game may change it, and the
store and the marks of the session are as they were. -/
structure Plays (s s' : Session ρ σ) : Prop where
  game : s'.game = s.game
  world : s.world.Changes s.game.Writes s'.world
  store : s'.store = s.store
  running : s'.running = s.running
  lastAutosave : s'.lastAutosave = s.lastAutosave

variable {s s' s'' : Session ρ σ} {ev : Evaluation ρ}

theorem Plays.refl (s : Session ρ σ) : s.Plays s := ⟨rfl, .refl _, rfl, rfl, rfl⟩

theorem Plays.trans (h : s.Plays s') (h' : s'.Plays s'') : s.Plays s'' where
  game := h'.game.trans h.game
  world := h.world.trans (h.game ▸ h'.world)
  store := h'.store.trans h.store
  running := h'.running.trans h.running
  lastAutosave := h'.lastAutosave.trans h.lastAutosave

/-- Playing moves neither the clock nor the last save, so it is settled before a tick whether it
ends with a save. -/
theorem Plays.isAutosaveDue (h : s.Plays s') :
    s'.advanceClock.isAutosaveDue = s.advanceClock.isAutosaveDue := by
  unfold Session.isAutosaveDue advanceClock
  rw [h.game, h.world.clock_eq, h.lastAutosave]

theorem afterDelivery_plays {event : String} {params : Values} {progress : Pass.Progress ρ}
    (h : s.deliver event params = .ok progress) : s.Plays (s.afterDelivery progress) :=
  ⟨rfl, Pass.run_changes (List.Subset.refl _) rfl h, rfl, rfl, rfl⟩

/-- Handling triggers is playing. -/
theorem handleTriggers_plays {limit : Nat} {queue : List (String × Values)} {fired : List String}
    (h : handleTriggers limit queue s = .ok (fired, s')) : s.Plays s' := by
  induction limit generalizing queue s fired with
  | zero =>
    obtain ⟨-, rfl⟩ := Prod.mk.inj (Except.ok.inj h)
    exact .refl _
  | succ limit ih =>
    rcases queue with _ | ⟨⟨event, params⟩, queue⟩
    · obtain ⟨-, rfl⟩ := Prod.mk.inj (Except.ok.inj h)
      exact .refl _
    · rw [handleTriggers_cons] at h
      obtain ⟨progress, hdeliver, h⟩ := Outcome.bind_eq_ok_iff.mp h
      obtain ⟨⟨fired', t⟩, hlater, h⟩ := Outcome.bind_eq_ok_iff.mp h
      obtain ⟨-, rfl⟩ := Prod.mk.inj (Except.ok.inj h)
      exact (afterDelivery_plays hdeliver).trans (ih hlater)

/-- What is evaluated while triggers are handled is authored in the game. -/
theorem Handles.reads {limit : Nat} {queue : List (String × Values)}
    (h : Handles limit queue s ev) : s.game.Reads s.world ev := by
  induction h with
  | first h => exact h.reads (List.Subset.refl _) rfl
  | later h _ ih => exact Game.Reads.after ih (afterDelivery_plays h).world

theorem settle_plays {scope : Scope ρ} {fired : List String}
    (hscope : s.world.Changes s.game.Writes scope.world)
    (h : s.settle scope = .ok (fired, s')) : s.Plays s' := by
  have hafter : s.Plays (s.afterRun scope) := ⟨rfl, hscope, rfl, rfl, rfl⟩
  exact hafter.trans (handleTriggers_plays h)

theorem firePasses_changes {progress : Pass.Progress ρ} (h : s.firePasses = .ok progress) :
    s.world.Changes s.game.Writes progress.scope.world := by
  obtain ⟨progress', htick, h⟩ := Outcome.bind_eq_ok_iff.mp h
  have hfirst := Pass.run_changes (List.Subset.refl _) rfl htick
  split at h
  · exact hfirst.trans (Pass.run_changes (List.Subset.refl _) rfl h)
  · obtain rfl := Except.ok.inj h
    exact hfirst

theorem runPasses_changes {progress : Pass.Progress ρ} {update : Phase.Update ρ}
    (h : s.runPasses = .ok (progress, update)) :
    s.world.Changes s.game.Writes update.scope.world := by
  rw [runPasses_eq] at h
  obtain ⟨progress', hprogress, h⟩ := Outcome.bind_eq_ok_iff.mp h
  obtain ⟨update', hupdate, h⟩ := Outcome.bind_eq_ok_iff.mp h
  obtain ⟨-, rfl⟩ := Prod.mk.inj (Except.ok.inj h)
  exact (firePasses_changes hprogress).trans
    (Phase.update_changes (List.Subset.refl _) rfl hupdate)

/-- What a tick evaluates is authored in the game. -/
theorem Fires.reads (h : s.Fires ev) : s.game.Reads s.world ev := by
  cases h with
  | tick h => exact h.reads (List.Subset.refl _) rfl
  | second hrun _ hev =>
    exact (hev.reads (List.Subset.refl _) rfl).after
      (Pass.run_changes (List.Subset.refl _) rfl hrun)
  | phase hprogress hev =>
    exact (hev.reads (List.Subset.refl _) rfl).after (firePasses_changes hprogress)
  | settle hrun hev => exact Game.Reads.after hev.reads (runPasses_changes hrun)

/-- A tick plays, moves the clock and may save. -/
theorem step_ok [SaveStore σ] {summary : TickSummary} (h : s.step = .ok (summary, s')) :
    ∃ t, s.Plays t ∧
      s' = if s.closing?.isSome then t.advanceClock.autosave else t.advanceClock := by
  rw [step_eq] at h
  obtain ⟨⟨progress, update⟩, hrun, h⟩ := Outcome.bind_eq_ok_iff.mp h
  obtain ⟨⟨fired, t⟩, hsettle, h⟩ := Outcome.bind_eq_ok_iff.mp h
  obtain ⟨-, rfl⟩ := Prod.mk.inj (Except.ok.inj h)
  refine ⟨t, ?_, rfl⟩
  -- The records and the phase, which the passes have set already, are not among what is compared.
  have hpasses := runPasses_changes hrun
  have hplays := settle_plays (s := s.afterPasses progress update) hpasses hsettle
  exact ⟨hplays.game, hplays.world, hplays.store, hplays.running, hplays.lastAutosave⟩

theorem autosave_world [SaveStore σ] : s.autosave.world = s.world := by
  unfold autosave
  split <;> rfl

theorem autosave_game [SaveStore σ] : s.autosave.game = s.game := by
  unfold autosave
  split <;> rfl

theorem autosave_events [SaveStore σ] : s.autosave.events = s.events := by
  unfold autosave
  split <;> rfl

/-- A tick tells its number and the second that it closes, and moves the clock on by one. -/
theorem step_clock [SaveStore σ] {summary : TickSummary} (h : s.step = .ok (summary, s')) :
    summary.tick = s.world.clock.tick ∧ summary.second = s.closing? ∧
      s'.world.clock = s.world.clock.advance s.game.config.ticksPerSecond := by
  have hsummary : summary.tick = s.world.clock.tick ∧ summary.second = s.closing? := by
    rw [step_eq] at h
    obtain ⟨⟨progress, update⟩, -, h⟩ := Outcome.bind_eq_ok_iff.mp h
    obtain ⟨⟨fired, t⟩, -, h⟩ := Outcome.bind_eq_ok_iff.mp h
    obtain ⟨rfl, -⟩ := Prod.mk.inj (Except.ok.inj h)
    exact ⟨rfl, rfl⟩
  refine ⟨hsummary.1, hsummary.2, ?_⟩
  obtain ⟨t, hplays, rfl⟩ := step_ok h
  have hadvanced : t.advanceClock.world.clock =
      s.world.clock.advance s.game.config.ticksPerSecond := by
    rw [← hplays.world.clock_eq, ← hplays.game]
    rfl
  split
  · rw [autosave_world, hadvanced]
  · exact hadvanced

end Session

namespace World

/-- One change of the world of a game by a call that does not load. -/
inductive Turn (g : Game) : Operation → World ρ → World ρ → Prop
  | change {op w w'} (h : w.Change g.Writes w') : Turn g op w w'
  | clock {op w c} : Turn g op w { w with clock := c }
  | forget {op w} : Turn g op w { w with log := w.log.clear }
  | set {w id v} :
      Turn g (.play (.set id v)) w (w.write id (Surroundings.coerce ⟨g.kinds, Table.empty⟩ id v))
  | reset {op w} : Turn g op w (w.reset g)

/-- Turns of a call, one after the other. -/
def Turns (g : Game) (op : Operation) : World ρ → World ρ → Prop := ReflTransGen (Turn g op)

variable {g : Game} {op : Operation} {w w' w'' : World ρ}

theorem Turns.refl (w : World ρ) : w.Turns g op w := ReflTransGen.refl

theorem Turns.trans (h : w.Turns g op w') (h' : w'.Turns g op w'') : w.Turns g op w'' :=
  ReflTransGen.trans h h'

theorem Turn.turns (h : w.Turn g op w') : w.Turns g op w' := ReflTransGen.single h

theorem Changes.turns (h : w.Changes g.Writes w') : w.Turns g op w' := by
  induction h with
  | refl => exact .refl _
  | tail _ hchange ih => exact ih.trans (Turn.change hchange).turns

/-- What every turn preserves is preserved by turns one after the other. -/
theorem Turns.preserve {motive : World ρ → Prop}
    (hturn : ∀ w w', w.Turn g op w' → motive w → motive w') (h : w.Turns g op w')
    (hw : motive w) : motive w' := by
  induction h with
  | refl => exact hw
  | tail _ h ih => exact hturn _ _ h ih

end World

namespace Session

variable {s s' : Session ρ σ} {ev : Evaluation ρ} {op : Operation}

theorem Plays.turns (h : s.Plays s') : s.world.Turns s.game op s'.world := h.world.turns

variable [SaveStore σ]

theorem step_turns {summary : TickSummary} (h : s.step = .ok (summary, s')) :
    s'.game = s.game ∧ s.world.Turns s.game op s'.world := by
  obtain ⟨t, hplays, rfl⟩ := step_ok h
  have hclock : s.world.Turns s.game op t.advanceClock.world :=
    hplays.turns.trans (World.Turn.clock).turns
  split
  · rw [autosave_game, autosave_world]
    exact ⟨hplays.game, hclock⟩
  · exact ⟨hplays.game, hclock⟩

theorem steps_turns {n : Nat} (h : steps n s = .ok s') :
    s'.game = s.game ∧ s.world.Turns s.game op s'.world := by
  induction n generalizing s with
  | zero =>
    obtain rfl := Except.ok.inj h
    exact ⟨rfl, .refl _⟩
  | succ n ih =>
    rw [steps] at h
    obtain ⟨⟨summary, t⟩, hstep, h⟩ := Outcome.bind_eq_ok_iff.mp h
    obtain ⟨hgame, hturns⟩ := step_turns hstep
    obtain ⟨hgame', hturns'⟩ := ih h
    exact ⟨hgame'.trans hgame, hturns.trans (hgame ▸ hturns')⟩

/-- What ticks evaluate is authored in the game, in a world that turns lead to. -/
theorem Steps.reads {n : Nat} (h : Steps n s ev) :
    ∃ w, s.world.Turns s.game op w ∧ s.game.Reads w ev := by
  induction h with
  | first h => exact ⟨_, .refl _, h.reads⟩
  | later h _ ih =>
    obtain ⟨w, hturns, hreads⟩ := ih
    obtain ⟨hgame, hturns'⟩ := step_turns h
    exact ⟨w, hturns'.trans (hgame ▸ hturns), hgame ▸ hreads⟩

theorem tick_turns {summary : Option TickSummary} (h : s.tick = .ok (summary, s')) :
    s'.game = s.game ∧ s.world.Turns s.game op s'.world := by
  unfold tick at h
  split at h
  · obtain ⟨⟨summary', t⟩, hstep, h⟩ := Outcome.bind_eq_ok_iff.mp h
    obtain ⟨-, rfl⟩ := Prod.mk.inj (Except.ok.inj h)
    exact step_turns hstep
  · obtain ⟨-, rfl⟩ := Prod.mk.inj (Except.ok.inj h)
    exact ⟨rfl, .refl _⟩

theorem catchUp_turns {n m : Nat} (h : s.catchUp n = .ok (m, s')) :
    s'.game = s.game ∧ s.world.Turns s.game op s'.world := by
  unfold catchUp at h
  split at h
  · obtain ⟨t, hsteps, h⟩ := Outcome.bind_eq_ok_iff.mp h
    obtain ⟨-, rfl⟩ := Prod.mk.inj (Except.ok.inj h)
    exact steps_turns hsteps
  · obtain ⟨-, rfl⟩ := Prod.mk.inj (Except.ok.inj h)
    exact ⟨rfl, .refl _⟩

omit [SaveStore σ] in
theorem perform_plays {name : String} {params : Values} {known : Bool}
    (h : s.perform name params = .ok (known, s')) : s.Plays s' := by
  unfold perform at h
  split at h
  · obtain ⟨-, rfl⟩ := Prod.mk.inj (Except.ok.inj h)
    exact .refl _
  · rename_i actions hactions
    obtain ⟨scope, hrun, h⟩ := Outcome.bind_eq_ok_iff.mp h
    obtain ⟨⟨fired, t⟩, hsettle, h⟩ := Outcome.bind_eq_ok_iff.mp h
    obtain ⟨-, rfl⟩ := Prod.mk.inj (Except.ok.inj h)
    exact settle_plays ((Game.Lists.function hactions).changes rfl hrun) hsettle

omit [RandomSource ρ] [SaveStore σ] in
theorem project?_mem {id : String} {p : Project} (h : s.game.project? id = some p) :
    p ∈ s.game.projects :=
  List.mem_of_find?_eq_some h

omit [SaveStore σ] in
theorem purchase_plays {id : String} {bought : Bool} (h : s.purchase id = .ok (bought, s')) :
    s.Plays s' := by
  unfold purchase at h
  split at h
  · obtain ⟨-, rfl⟩ := Prod.mk.inj (Except.ok.inj h)
    exact .refl _
  · rename_i p hp
    obtain ⟨_ | ⟨uses, scope⟩, hpurchase, h⟩ := Outcome.bind_eq_ok_iff.mp h
    · obtain ⟨-, rfl⟩ := Prod.mk.inj (Except.ok.inj h)
      exact .refl _
    · obtain ⟨⟨fired, t⟩, hsettle, h⟩ := Outcome.bind_eq_ok_iff.mp h
      obtain ⟨-, rfl⟩ := Prod.mk.inj (Except.ok.inj h)
      have hbought := Project.purchase_changes (project?_mem hp) rfl hpurchase
      have hplays := settle_plays (s := { s with uses }) hbought hsettle
      exact ⟨hplays.game, hplays.world, hplays.store, hplays.running, hplays.lastAutosave⟩

/-- A call that plays the game takes turns. -/
theorem play_turns {move : Move} {a : Answer} (h : s.play move = .ok (a, s')) :
    s'.game = s.game ∧ s.world.Turns s.game (.play move) s'.world := by
  cases move with
  | start | stop =>
    obtain ⟨-, rfl⟩ := Prod.mk.inj (Except.ok.inj h)
    exact ⟨rfl, .refl _⟩
  | tick =>
    obtain ⟨summary, htick, -⟩ := Outcome.map_fst_eq_ok_iff.mp h
    exact tick_turns htick
  | catchUp n =>
    obtain ⟨m, hcatchUp, -⟩ := Outcome.map_fst_eq_ok_iff.mp h
    exact catchUp_turns hcatchUp
  | perform name params =>
    obtain ⟨known, hperform, -⟩ := Outcome.map_fst_eq_ok_iff.mp h
    have hplays := perform_plays hperform
    exact ⟨hplays.game, hplays.turns⟩
  | trigger event params =>
    obtain ⟨fired, htrigger, -⟩ := Outcome.map_fst_eq_ok_iff.mp h
    have hplays := handleTriggers_plays htrigger
    exact ⟨hplays.game, hplays.turns⟩
  | purchase id =>
    obtain ⟨bought, hpurchase, -⟩ := Outcome.map_fst_eq_ok_iff.mp h
    have hplays := purchase_plays hpurchase
    exact ⟨hplays.game, hplays.turns⟩
  | set id v =>
    obtain ⟨-, rfl⟩ := Prod.mk.inj (Except.ok.inj h)
    exact ⟨rfl, (World.Turn.set).turns⟩
  | spawn kind properties =>
    obtain ⟨-, rfl⟩ := Prod.mk.inj (Except.ok.inj h)
    exact ⟨rfl, (World.Turn.change .spawned).turns⟩
  | modify id properties =>
    obtain ⟨-, rfl⟩ := Prod.mk.inj (Except.ok.inj h)
    have hpatch : s.world.Change s.game.Writes { s.world with
        population := s.world.population.modify id (·.patch properties) } :=
      .modified (fun _ => rfl) (fun _ => rfl)
    exact ⟨rfl, (World.Turn.change hpatch).turns⟩
  | remove id =>
    obtain ⟨-, rfl⟩ := Prod.mk.inj (Except.ok.inj h)
    exact ⟨rfl, (World.Turn.change .removed).turns⟩
  | reset =>
    obtain ⟨-, rfl⟩ := Prod.mk.inj (Except.ok.inj h)
    exact ⟨rfl, (World.Turn.reset).turns⟩

/-- A call that does not load takes turns. -/
theorem apply_turns {a : Answer} (hload : ∀ slot, op ≠ .load slot)
    (h : s.apply op = .ok (a, s')) :
    s'.game = s.game ∧ s.world.Turns s.game op s'.world := by
  cases op with
  | play move => exact play_turns h
  | ask query =>
    obtain ⟨a', -, h⟩ := Outcome.bind_eq_ok_iff.mp h
    obtain ⟨-, rfl⟩ := Prod.mk.inj (Except.ok.inj h)
    exact ⟨rfl, .refl _⟩
  | messages | takeEvents | save slot | hasSave slot | clearSave slot =>
    obtain ⟨-, rfl⟩ := Prod.mk.inj (Except.ok.inj h)
    exact ⟨rfl, .refl _⟩
  | takeMessages =>
    obtain ⟨-, rfl⟩ := Prod.mk.inj (Except.ok.inj h)
    exact ⟨rfl, (World.Turn.forget).turns⟩
  | load slot => exact (hload slot rfl).elim

end Session

variable {s : Session ρ σ} {ev : Evaluation ρ}

/-- What a question evaluates is authored in the game. -/
theorem Query.Evaluates.reads {query : Query} (h : query.Evaluates s ev) :
    s.game.Reads s.world ev := by
  cases h with
  | canAfford hp hev => exact Project.reads_of_inTurn_amounts (Session.project?_mem hp) hev
  | isAvailable hp => exact (Game.Authors.project (Session.project?_mem hp)).reads
  | available hev =>
    obtain ⟨p, hp, hexpr⟩ := List.mem_map.mp hev.expr_mem
    have hauthors : s.game.Authors p.trigger := .project (List.mem_filter.mp hp).1
    exact ⟨s.world, Table.empty, none, .refl _, hev.view_eq, hexpr ▸ hauthors⟩

variable [SaveStore σ]

/-- What a call that plays the game evaluates is authored in the game, in a world that turns lead
to. -/
theorem Move.Evaluates.reads {move : Move} (h : move.Evaluates s ev) :
    ∃ w, s.world.Turns s.game (.play move) w ∧ s.game.Reads w ev := by
  cases h with
  | tick _ hev => exact ⟨_, .refl _, hev.reads⟩
  | catchUp _ hev => exact hev.reads
  | perform hactions hev =>
    exact ⟨_, .refl _, (Game.Lists.function hactions).reads rfl hev⟩
  | performed hactions hrun hev =>
    refine ⟨_, .refl _, Game.Reads.after hev.reads ?_⟩
    exact (Game.Lists.function hactions).changes rfl hrun
  | trigger hev => exact ⟨_, .refl _, hev.reads⟩
  | purchase hp hev => exact ⟨_, .refl _, hev.reads (Session.project?_mem hp) rfl⟩
  | purchased hp hrun hev =>
    refine ⟨_, .refl _, Game.Reads.after hev.reads ?_⟩
    exact Project.purchase_changes (Session.project?_mem hp) rfl hrun

/-- What a call evaluates is authored in the game, in a world that turns lead to. -/
theorem Operation.Evaluates.reads {op : Operation} (h : op.Evaluates s ev) :
    ∃ w, s.world.Turns s.game op w ∧ s.game.Reads w ev := by
  cases h with
  | play hev => exact hev.reads
  | ask hev => exact ⟨_, .refl _, hev.reads⟩

end IdleGame
