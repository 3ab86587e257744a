import IdleGame.Proofs.Session.History
import IdleGame.Proofs.Session.Trial
import IdleGame.Store.Memory

/-!
# Cooldowns

A history of play goes on through saves: a session that loads what was saved from another one has
the history of that one behind it. In such a history a cooldown keeps the fires of a rule apart,
whatever call they come from, and no rule gets ahead of the clock.

## Main definitions

* `Session.Chronicle` - a session with the trials of rules in its history of play

## Main results

* `Session.Chronicle.logs` - the trials lead from the start of the game to the session
* `Session.Chronicle.timesOf_eq_range` - a rule of ticks has been tried once at every tick
* `Session.Chronicle.spaced_by_cooldown` - cooldowns keep fires apart
-/

namespace IdleGame

namespace Session

variable {ρ σ : Type} [RandomSource ρ] [SaveStore σ]

/-- A session of a game after calls that neither reset it nor fail to load, with the trials of rules
in its history of play. A session that loads what was saved from another one takes over the history
of that one. -/
inductive Chronicle (g : Game) : List Trial → Session ρ σ → Prop
  | new {random store} : Chronicle g [] (ofGame g random store)
  | call {log s op a s'} (h : Chronicle g log s) (hop : ¬ op.restarts)
      (hcall : s.apply op = .ok (a, s')) : Chronicle g (log ++ s.trials op) s'
  | resumed {log past s t slot} (h : Chronicle g log s) (hsaved : Chronicle g past t)
      (hslot : Slot.load s.store g.identity.id slot = .ok (some t.snapshot)) :
      Chronicle g past (s.load slot).2
  | share {log s store} (h : Chronicle g log s) : Chronicle g log { s with store }

namespace Chronicle

variable {g : Game} {s t : Session ρ σ} {log past : List Trial} {slot : String} {r : Rule}

theorem game (h : s.Chronicle g log) : s.game = g := by
  induction h with
  | new => rfl
  | call _ _ hcall ih => exact (apply_game hcall).trans ih
  | resumed _ _ _ ih => exact (apply_game (apply_load _ _)).trans ih
  | share _ ih => exact ih

theorem load_eq (h : s.Chronicle g log) (hsaved : t.Chronicle g past)
    (hslot : Slot.load s.store g.identity.id slot = .ok (some t.snapshot)) :
    s.load slot = (true, s.restore t.snapshot) := by
  have hgame : t.game = s.game := hsaved.game.trans h.game.symm
  exact load_of_snapshot hgame (h.game.symm ▸ hslot)

/-- The trials of a history lead from the start of the game to the session. -/
theorem logs (h : s.Chronicle g log) :
    g.Logs Table.empty Clock.start log s.records s.world.clock := by
  induction h with
  | new => exact .nil
  | call hs hop hcall ih =>
    have hlogs := (apply_course hop hcall).logsTo.logs
    rw [hs.game] at hlogs
    exact ih.append hlogs
  -- The records and the clock are those of the session that was saved.
  | resumed hs hsaved hslot _ ih =>
    rw [load_eq hs hsaved hslot]
    exact ih
  | share _ ih => exact ih

variable (hnodup : (g.rules.map Rule.id).Nodup)

include hnodup in
/-- A rule of ticks has been tried once at every tick. -/
theorem timesOf_eq_range (h : s.Chronicle g log) (hr : r ∈ g.rules) (htiming : r.timing = .tick) :
    Trial.timesOf r.id log = List.range' 0 s.world.clock.tick := by
  induction h with
  | new => rfl
  | @call log s op a s' hs hop hcall ih =>
    have hgame := hs.game
    obtain ⟨n, hclock, htimes⟩ :=
      (apply_course hop hcall).triedEachTick (hgame ▸ hnodup) (hgame ▸ hr) htiming
    rw [Trial.timesOf_append, ih, htimes, hclock]
    have happend := @List.range'_append_1 0 s.world.clock.tick n
    rwa [Nat.zero_add] at happend
  | resumed hs hsaved hslot _ ih =>
    rw [load_eq hs hsaved hslot]
    exact ih
  | share _ ih => exact ih

theorem notAhead_empty : FireRecords.NotAhead g Table.empty Clock.start := by
  rintro r - u ⟨⟩

include hnodup in
/-- In a history of play a cooldown keeps two fires of a rule apart. No rule has fired later than
the clock shows, neither when it is tried nor in the end. A rule of ticks without a condition and a
cap fires at the multiples of its cooldown. -/
theorem spaced_by_cooldown (h : s.Chronicle g log) :
    (∀ r ∈ g.rules, ∀ n, r.cooldown = some n →
      (Trial.firingTimes r.id log).IsChain fun u v => u + n ≤ v) ∧
    s.records = FireRecords.noteAll Table.empty log ∧
    (∀ before t after u, log = before ++ t :: after →
      (FireRecords.of (FireRecords.noteAll Table.empty before) t.rule.id).last = some u →
        u ≤ t.time) ∧
    (∀ r ∈ g.rules, ∀ u, (FireRecords.of s.records r.id).last = some u →
      u ≤ r.timeOn s.world.clock) ∧
    ∀ r ∈ g.rules, ∀ n, r.timing = .tick → r.condition = .always → r.maxFires = none →
      r.cooldown = some n → 0 < n →
        Trial.firingTimes r.id log = (List.range s.world.clock.tick).filter (n ∣ ·) := by
  have hlogs := h.logs
  refine ⟨fun r hr n hcooldown => ?_, hlogs.records_eq, fun before t after u hlog hu => ?_,
    hlogs.notAhead hnodup notAhead_empty, fun r hr n htiming halways hcap hcooldown hn => ?_⟩
  · exact hlogs.spaced hnodup notAhead_empty hr hcooldown
  · subst hlog
    exact hlogs.notAhead_trial hnodup notAhead_empty hu
  · rw [List.range_eq_range']
    exact hlogs.periodic hnodup hr halways hcap hcooldown hn
      (h.timesOf_eq_range hnodup hr htiming) rfl

end Chronicle

end Session

/-- A rule that makes a flower bloom at every other tick. -/
def bloom : Rule where
  id := "bloom"
  actions := [.add "flowers" (.lit (.number 1.0))]
  cooldown := some 2

/-- A game with flowers, which also bloom after rain. -/
def gardenGame : Game where
  identity := { id := "garden", name := "Garden" }
  declarations := [{ id := "flowers" }]
  rules := [bloom, { id := "rain", timing := .event, event := some "rain", cooldown := some 3 }]

namespace Session

/-- The garden while time passes. -/
def newGarden : Session Xorshift MemoryStore :=
  (ofGame gardenGame (Xorshift.ofWord 3) MemoryStore.empty).start

/-- The garden after five ticks. -/
def garden : Session Xorshift MemoryStore :=
  match steps 5 newGarden with
  | .ok s => s
  | .error _ => newGarden

set_option maxRecDepth 10000 in
theorem newGarden_steps : steps 5 newGarden = .ok garden := by
  have hok : (steps 5 newGarden).isOk := by decide +kernel
  obtain ⟨s, h⟩ := Outcome.exists_eq_ok_of_isOk hok
  rw [garden, h]

theorem garden_chronicle :
    garden.Chronicle gardenGame ([] ++ [] ++ newGarden.trials (.play (.catchUp 5))) := by
  have hstart : (ofGame gardenGame (Xorshift.ofWord 3) MemoryStore.empty).apply (.play .start) =
      .ok (.done, newGarden) := rfl
  have hcatchUp : newGarden.apply (.play (.catchUp 5)) = .ok (.count 5, garden) :=
    apply_catchUp rfl newGarden_steps
  exact (Chronicle.new.call (by decide) hstart).call (by decide) hcatchUp

/-- Flowers bloom at every other of the five ticks. -/
theorem garden_spaced_by_cooldown :
    (gardenGame.rules.map Rule.id).Nodup ∧
    (Trial.firingTimes "bloom" ([] ++ [] ++ newGarden.trials (.play (.catchUp 5)))).IsChain
      (fun u v => u + 2 ≤ v) ∧
    Trial.firingTimes "bloom" ([] ++ [] ++ newGarden.trials (.play (.catchUp 5))) =
      (List.range garden.world.clock.tick).filter (2 ∣ ·) := by
  have hnodup : (gardenGame.rules.map Rule.id).Nodup := by decide
  have hbloom : bloom ∈ gardenGame.rules := List.mem_cons_self
  have h := garden_chronicle.spaced_by_cooldown hnodup
  exact ⟨hnodup, h.1 bloom hbloom 2 rfl,
    h.2.2.2.2 bloom hbloom 2 rfl rfl rfl rfl (by decide)⟩

end Session

end IdleGame
