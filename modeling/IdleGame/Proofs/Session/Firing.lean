import IdleGame.Proofs.Session.History
import IdleGame.Proofs.Session.Trial
import IdleGame.Proofs.Snapshot.Counts
import IdleGame.Store.Memory

/-!
# How often rules fire

A session counts the fires of its rules from what it began with: nothing when it is new or reset,
and what was counted in a snapshot when it goes on from there. The counts are exact, and no rule
fires more often than its cap leaves.

## Main definitions

* `Session.Tally` - a session after any calls, with the records that it has last begun with, and the
  trials of rules since

## Main results

* `Session.Reachable.tally` - every reachable session has a tally
* `Session.Tally.logs` - the trials lead from those records to the ones there are now
* `Session.Tally.fires_counted` - fires are counted, capped and listed
-/

namespace IdleGame

namespace Session

variable {ρ σ : Type} [RandomSource ρ] [SaveStore σ]

/-- A session of a game after any calls, with the records that it has last begun with, and the
trials of rules since. -/
inductive Tally (g : Game) : FireRecords → List Trial → Session ρ σ → Prop
  | new {random store} : Tally g Table.empty [] (ofGame g random store)
  | call {start log s op a s'} (h : Tally g start log s) (hop : ¬ op.restarts)
      (hcall : s.apply op = .ok (a, s')) : Tally g start (log ++ s.trials op) s'
  | reset {start log s} (h : Tally g start log s) : Tally g Table.empty [] s.reset
  | loaded {start log s slot shot} (h : Tally g start log s)
      (hslot : s.stored slot = .ok (some shot)) : Tally g shot.records [] (s.load slot).2
  | refused {start log s slot} (h : Tally g start log s) (hslot : ¬ (s.load slot).1) :
      Tally g Table.empty [] (s.load slot).2
  | share {start log s store} (h : Tally g start log s) : Tally g start log { s with store }

variable {g : Game} {sources : Set ρ} {s s' : Session ρ σ} {start : FireRecords} {log : List Trial}

/-- A call that begins anew resets the session, or goes on from a slot. -/
theorem restarts_cases {op : Operation} {a : Answer} (hop : op.restarts)
    (hcall : s.apply op = .ok (a, s')) :
    (op = .play .reset ∧ s' = s.reset) ∨
      ∃ slot, op = .load slot ∧ s' = (s.load slot).2 ∧
        ((∃ shot, s.stored slot = .ok (some shot)) ∨ ¬ (s.load slot).1) := by
  cases op with
  | play move =>
    cases move with
    | reset =>
      obtain ⟨-, rfl⟩ := Prod.mk.inj (Except.ok.inj hcall)
      exact .inl ⟨rfl, rfl⟩
    | _ => cases hop
  | load slot =>
    rw [apply_load] at hcall
    obtain ⟨-, rfl⟩ := Prod.mk.inj (Except.ok.inj hcall)
    refine .inr ⟨slot, rfl, rfl, ?_⟩
    rcases load_cases s slot with ⟨shot, hstored, -⟩ | hrefused
    · exact .inl ⟨shot, hstored⟩
    · exact .inr (by rw [hrefused]; exact Bool.false_ne_true)
  | _ => cases hop

/-- Every reachable session has a tally. -/
theorem Reachable.tally (h : s.Reachable g sources) : ∃ start log, s.Tally g start log := by
  induction h with
  | new => exact ⟨_, _, .new⟩
  | share _ ih =>
    obtain ⟨start, log, htally⟩ := ih
    exact ⟨start, log, htally.share⟩
  | @call s op a s' _ hcall ih =>
    obtain ⟨start, log, htally⟩ := ih
    by_cases hop : op.restarts
    · rcases restarts_cases hop hcall with
        ⟨-, rfl⟩ | ⟨slot, -, rfl, ⟨shot, hstored⟩ | hrefused⟩
      · exact ⟨_, _, htally.reset⟩
      · exact ⟨_, _, htally.loaded hstored⟩
      · exact ⟨_, _, htally.refused hrefused⟩
    · exact ⟨_, _, htally.call hop hcall⟩

omit [RandomSource ρ] in
theorem bounded_of_stored {slot : String} {shot : Snapshot}
    (h : s.stored slot = .ok (some shot)) : shot.records.Bounded := by
  obtain ⟨held, hheld, h⟩ := Outcome.bind_eq_ok_iff.mp h
  rcases held with _ | held
  · cases h
  · obtain ⟨_, -, h⟩ := Outcome.bind_eq_ok_iff.mp h
    obtain rfl := Option.some.inj (Except.ok.inj h)
    exact Slot.bounded_of_load hheld

theorem load_of_stored {slot : String} {shot : Snapshot}
    (h : s.stored slot = .ok (some shot)) : s.load slot = (true, s.restore shot) := by
  rw [load, h]

namespace Tally

theorem game (h : s.Tally g start log) : s.game = g := by
  induction h with
  | new => rfl
  | call _ _ hcall ih => exact (apply_game hcall).trans ih
  | reset _ ih | share _ ih => exact ih
  | loaded _ hslot ih =>
    rw [load_of_stored hslot]
    exact ih
  | refused _ hslot ih =>
    rw [load_refused hslot]
    exact ih

/-- The counts that a session begins with can be kept. -/
theorem bounded (h : s.Tally g start log) : start.Bounded := by
  induction h with
  | call _ _ _ ih | share _ ih => exact ih
  | loaded _ hslot => exact bounded_of_stored hslot
  | new | reset | refused => exact FireRecords.bounded_empty

/-- The trials lead from the records at the beginning to those there are now. -/
theorem logs (h : s.Tally g start log) : ∃ c, g.Logs start c log s.records s.world.clock := by
  induction h with
  | new | reset => exact ⟨_, .nil⟩
  | share _ ih => exact ih
  | call hs hop hcall ih =>
    obtain ⟨c, hlogs⟩ := ih
    exact ⟨c, hlogs.append (hs.game ▸ (apply_course hop hcall).logsTo.logs)⟩
  | loaded _ hslot =>
    rw [load_of_stored hslot]
    exact ⟨_, .nil⟩
  | refused _ hslot =>
    rw [load_refused hslot]
    exact ⟨_, .nil⟩

/-- The fires of rules are counted from what a session has last begun with. A rule does not fire
more often than its cap leaves, and a tick or an event lists the rules that fire in it. The trials
that are counted are what a call does: each is made in what those before have left, one that fires
has run the actions of its rule once, and the session goes on from what the last one leaves. -/
theorem fires_counted (h : s.Tally g start log) :
    (∀ id, s.answer (.fires id) = .ok (.count
      (min ((FireRecords.of start id).fires + Trial.firesOf id log) FireRecord.maxCount))) ∧
    (∀ r cap, r.maxFires = some cap → cap ≤ FireRecord.maxCount →
      Trial.executions r log ≤ cap - (FireRecords.of start r.id).fires) ∧
    (∀ summary s', s.tick = .ok (some summary, s') →
      summary.fired = Trial.fired (s.trials (.play .tick))) ∧
    (∀ event params fired s', s.trigger event params = .ok (fired, s') →
      fired = Trial.fired (s.trials (.play (.trigger event params)))) ∧
    ∀ op a s', ¬ op.restarts → s.apply op = .ok (a, s') → s.Course op (s.trials op) s' := by
  obtain ⟨c, hlogs⟩ := h.logs
  refine ⟨fun id => ?_, fun r cap hcap hmax => hlogs.executions_le hcap hmax,
    fun summary s' htick => ?_, fun event params fired s' htrigger =>
      (handleTriggers_hands htrigger).2, fun op a s' hop hcall => apply_course hop hcall⟩
  · rw [answer, hlogs.records_eq, FireRecords.fires_noteAll h.bounded]
  · rcases tick_ok htick with ⟨hrunning, done, hstep, hsummary⟩ | ⟨-, hsummary, -⟩
    · obtain rfl := Option.some.inj hsummary
      rw [trials, if_pos hrunning]
      exact (step_tries hstep).2
    · cases hsummary

end Tally

end Session

/-- A rule that counts a toll and rings again whenever it is rung, but not more than three times. -/
def toll : Rule where
  id := "toll"
  timing := .event
  event := some "ring"
  actions := [.add "tolls" (.lit (.number 1.0)), .trigger "ring" []]
  maxFires := some 3

/-- A game with a bell. -/
def bellGame : Game where
  identity := { id := "bell", name := "Bell" }
  declarations := [{ id := "tolls" }]
  rules := [toll]

namespace Session

/-- The bell before it is rung. -/
def newBell : Session Xorshift MemoryStore := ofGame bellGame (Xorshift.ofWord 7) MemoryStore.empty

/-- The bell after it has been rung. -/
def rungBell : Session Xorshift MemoryStore :=
  match newBell.trigger "ring" Table.empty with
  | .ok (_, s) => s
  | .error _ => newBell

set_option maxRecDepth 10000 in
theorem newBell_trigger :
    newBell.trigger "ring" Table.empty = .ok (["toll", "toll", "toll"], rungBell) := by
  have hfired : (newBell.trigger "ring" Table.empty).map Prod.fst =
      .ok ["toll", "toll", "toll"] := by decide +kernel
  unfold rungBell
  rcases h : newBell.trigger "ring" Table.empty with f | ⟨fired, s⟩
  · rw [h] at hfired
    cases hfired
  · rw [h] at hfired
    obtain rfl := Except.ok.inj hfired
    rfl

theorem newBell_apply : newBell.apply (.play (.trigger "ring" Table.empty)) =
    .ok (.fired ["toll", "toll", "toll"], rungBell) :=
  Outcome.map_fst_eq_ok_iff.mpr ⟨_, newBell_trigger, rfl⟩

theorem rungBell_tally : rungBell.Tally bellGame Table.empty
    ([] ++ newBell.trials (.play (.trigger "ring" Table.empty))) :=
  Tally.new.call (by decide) newBell_apply

set_option maxRecDepth 10000 in
/-- The bell is rung once and tolls three times, as often as it may. Each toll is counted once. -/
theorem rungBell_fires_counted :
    rungBell.answer (.fires "toll") = .ok (.count (min (0 + Trial.firesOf "toll"
      ([] ++ newBell.trials (.play (.trigger "ring" Table.empty)))) FireRecord.maxCount)) ∧
    Trial.executions toll ([] ++ newBell.trials (.play (.trigger "ring" Table.empty))) ≤ 3 - 0 ∧
    ["toll", "toll", "toll"] = Trial.fired
      (newBell.trials (.play (.trigger "ring" Table.empty))) ∧
    newBell.Course (.play (.trigger "ring" Table.empty))
      (newBell.trials (.play (.trigger "ring" Table.empty))) rungBell ∧
    rungBell.world.state.get? "tolls" = some (.number 3.0) := by
  have hnone (id : String) : (FireRecords.of Table.empty id).fires = 0 := rfl
  have h := rungBell_tally.fires_counted
  simp only [hnone] at h
  obtain ⟨-, -, -, hfired, hcourse⟩ := Tally.fires_counted (s := newBell) .new
  exact ⟨h.1 "toll", h.2.1 toll 3 rfl (by decide), hfired "ring" Table.empty _ _ newBell_trigger,
    hcourse _ _ _ (by decide) newBell_apply, by decide +kernel⟩

end Session

end IdleGame
