import IdleGame.Proofs.Session.Stretch
import IdleGame.Proofs.Session.Time

/-!
# Seconds

The clock counts ticks and seconds apart, and a tick finds out twice whether it closes a second:
before the rules of seconds are tried, and when the clock moves on. Both come to the same, so the
completed seconds are the full ones of the completed ticks, and no second is left out or closed
twice, however the ticks are told to pass and from wherever the session goes on.

## Main definitions

* `Clock.IsFull` - the completed seconds are the full ones of the completed ticks
* `Session.seconds` - the seconds that a call closes
* `Trial.tried`, `Game.rulesAt` - the rules of a timing, as they have been tried and as they should
* `Session.Counts` - seconds lead from one session to another
* `Session.Past` - a session with the calls that it has behind it, also those before a loaded save

## Main results

* `Clock.closing?_eq_some_iff` - which tick closes a second
* `Clock.IsFull.fits_advance_iff` - how long a clock can be held in a snapshot
* `Session.Course.counts` - a call tries the rules of seconds in each second that it closes
* `Session.Played.past` - what has been played has a past
* `Session.Past.seconds_counted` - in it every second is closed once, in order
-/

namespace IdleGame

namespace Clock

/-- The completed seconds are the full ones of the completed ticks. -/
def IsFull (rate : Nat) (c : Clock) : Prop := c.seconds = c.tick / max rate 1

variable {rate k : Nat} {c : Clock}

theorem isFull_start (rate : Nat) : start.IsFull rate := (Nat.zero_div _).symm

theorem IsFull.advance (h : c.IsFull rate) : (c.advance rate).IsFull rate := by
  unfold IsFull at *
  unfold Clock.advance closing?
  by_cases hcloses : (c.tick + 1) % max rate 1 = 0
  · rw [if_pos hcloses]
    exact (congrArg (· + 1) h).trans (Nat.succ_div_of_mod_eq_zero hcloses).symm
  · rw [if_neg hcloses]
    exact h.trans (Nat.succ_div_of_mod_ne_zero hcloses).symm

theorem IsFull.seconds_le (h : c.IsFull rate) : c.seconds ≤ c.tick := h ▸ Nat.div_le_self _ _

theorem IsFull.fits_iff (h : c.IsFull rate) : c.Fits ↔ c.tick ≤ maxCount :=
  ⟨Fits.tick, fun htick => ⟨htick, Nat.le_trans h.seconds_le htick⟩⟩

/-- A clock can be held in a snapshot until it has completed the last tick that can. -/
theorem IsFull.fits_advance_iff (h : c.IsFull rate) (hfits : c.Fits) :
    (c.advance rate).Fits ↔ c.tick ≠ maxCount := by
  have htick := hfits.tick
  rw [h.advance.fits_iff, tick_advance]
  omega

/-- A tick closes the second that it is the last tick of. -/
theorem closing?_eq_some_iff (h : c.IsFull rate) :
    c.closing? rate = some k ↔ c.tick = (k + 1) * max rate 1 - 1 := by
  have hpos : 0 < max rate 1 := Nat.le_max_right rate 1
  have hlast : c.tick = (k + 1) * max rate 1 - 1 ↔ c.tick + 1 = (k + 1) * max rate 1 := by
    have hticks : 0 < (k + 1) * max rate 1 := Nat.mul_pos (Nat.succ_pos k) hpos
    omega
  rw [hlast, closing?]
  constructor
  · intro hclosing
    split at hclosing
    · rename_i hcloses
      obtain rfl := Option.some.inj hclosing
      rw [h, ← Nat.succ_div_of_mod_eq_zero hcloses,
        Nat.div_mul_cancel (Nat.dvd_of_mod_eq_zero hcloses)]
    · cases hclosing
  · intro htick
    have hcloses : (c.tick + 1) % max rate 1 = 0 := by rw [htick, Nat.mul_mod_left]
    have hdiv := Nat.succ_div_of_mod_eq_zero hcloses
    rw [htick, Nat.mul_div_cancel _ hpos] at hdiv
    rw [if_pos hcloses, h, Nat.succ.inj hdiv]

end Clock

/-- The rules of a timing that have been tried, with the times of their passes. -/
def Trial.tried (timing : Timing) (ts : List Trial) : List (Rule × Nat) :=
  (ts.filter fun t => t.rule.timing = timing).map fun t => (t.rule, t.time)

/-- The rules of a timing, each with a time. -/
def Game.rulesAt (g : Game) (timing : Timing) (time : Nat) : List (Rule × Nat) :=
  (g.rules.filter fun r => r.timing = timing).map fun r => (r, time)

namespace Trial

variable {timing : Timing} {ts us : List Trial}

@[simp] theorem tried_append : tried timing (ts ++ us) = tried timing ts ++ tried timing us := by
  simp [tried]

theorem tried_eq_nil (h : ∀ t ∈ ts, t.rule.timing ≠ timing) : tried timing ts = [] := by
  simpa [tried] using h

end Trial

variable {ρ σ : Type} [RandomSource ρ]

/-- The pass of a second tries every rule of seconds once, in the order of declaration. -/
theorem Pass.Tries.tried_second {env : Surroundings} {rules : List Rule} {p p' : Progress ρ}
    {ts : List Trial} {k : Nat} (h : (Pass.second k).Tries env rules p ts p') :
    Trial.tried .second ts = (rules.filter fun r => r.timing = .second).map fun r => (r, k) := by
  induction h with
  | nil => rfl
  | @passed r _ _ _ _ hadmitted _ ih =>
    have htiming : r.timing ≠ .second := fun h => hadmitted (decide_eq_true h)
    rw [ih, List.filter_cons_of_neg (by simp [htiming])]
  | @tried t _ _ _ ts _ hadmitted htime _ _ ih =>
    have htiming : t.rule.timing = .second := of_decide_eq_true hadmitted
    have hnow : t.time = k := htime
    rw [List.filter_cons_of_pos (by simp [htiming]), List.map_cons, ← ih]
    simp [Trial.tried, htiming, hnow]

namespace Session

/-- Seconds, one after the other, are completed between one session and another. -/
structure Counts (s : Session ρ σ) (ks : List Nat) (s' : Session ρ σ) : Prop where
  game : s'.game = s.game
  seconds : s'.world.clock.seconds = s.world.clock.seconds + ks.length
  consecutive : ks = List.range' s.world.clock.seconds ks.length
  isFull : s.world.clock.IsFull s.game.config.ticksPerSecond →
    s'.world.clock.IsFull s.game.config.ticksPerSecond

variable {s s' s'' : Session ρ σ} {ks ks' : List Nat}

omit [RandomSource ρ] in
theorem counts_of_clock_eq (hgame : s'.game = s.game) (hclock : s'.world.clock = s.world.clock) :
    s.Counts [] s' :=
  ⟨hgame, congrArg Clock.seconds hclock, rfl, fun h => hclock ▸ h⟩

omit [RandomSource ρ] in
theorem Counts.append (h : s.Counts ks s') (h' : s'.Counts ks' s'') :
    s.Counts (ks ++ ks') s'' where
  game := h'.game.trans h.game
  seconds := by rw [h'.seconds, h.seconds, List.length_append, Nat.add_assoc]
  consecutive := by
    have hlater := h'.consecutive
    rw [h.seconds] at hlater
    rw [List.length_append, ← List.range'_append_1, ← h.consecutive, ← hlater]
  isFull hs := by
    have hs' := h.isFull hs
    rw [← h.game] at hs' ⊢
    exact h'.isFull hs'

variable [SaveStore σ]

/-- The second that the current tick closes, as it is told. -/
def tickSeconds (s : Session ρ σ) : List Nat :=
  Outcome.listed s.step fun (summary, _) => summary.second.toList

/-- The seconds that a call closes. -/
def seconds (s : Session ρ σ) (op : Operation) : List Nat := s.listedTicks tickSeconds op

theorem tickSeconds_of_step {summary : TickSummary} (h : s.step = .ok (summary, s')) :
    s.tickSeconds = s.closing?.toList := by
  rw [tickSeconds, h, Outcome.listed_ok, ← (step_clock h).2.1]

/-- A tick completes the second that it closes. -/
theorem step_counts {summary : TickSummary} (h : s.step = .ok (summary, s')) :
    s.Counts s.tickSeconds s' := by
  obtain ⟨-, -, hclock⟩ := step_clock h
  have hgame : s'.game = s.game ∧ s.world.Turns s.game (.play .tick) s'.world := step_turns h
  rw [tickSeconds_of_step h, closing?, Clock.closing?]
  refine ⟨hgame.1, ?_, ?_, fun hs => hclock ▸ hs.advance⟩
  · rw [hclock, Clock.advance, Clock.closing?]
    split <;> rfl
  · split <;> rfl

theorem steps_counts {n : Nat} (h : steps n s = .ok s') :
    s.Counts (listedSteps tickSeconds n s) s' :=
  listedSteps_leads tickSeconds (fun _ => counts_of_clock_eq rfl rfl)
    (fun _ _ _ _ _ hst htu => hst.append htu) (fun _ _ _ hstep => step_counts hstep) h

/-- A call that neither resets nor loads completes the seconds that it closes. -/
theorem apply_counts {op : Operation} {a : Answer} (hop : ¬ op.restarts)
    (h : s.apply op = .ok (a, s')) : s.Counts (s.seconds op) s' := by
  by_cases hpasses : op.passesTime
  · exact listedTicks_leads tickSeconds (fun _ => counts_of_clock_eq rfl rfl)
      (fun _ _ _ _ _ hst htu => hst.append htu) (fun _ _ _ hstep => step_counts hstep) hpasses h
  · have hrests := apply_rests hop hpasses h
    rw [seconds, listedTicks_of_rests hpasses]
    exact counts_of_clock_eq hrests.game hrests.clock

/-! ## Rules of seconds -/

omit [SaveStore σ] in
/-- Every rule of seconds is tried once in the second that closes. -/
theorem SecondTries.tried_eq {progress progress' : Pass.Progress ρ} {ts : List Trial}
    (h : s.SecondTries progress ts progress') :
    Trial.tried .second ts = s.closing?.toList.flatMap (s.game.rulesAt .second) := by
  cases h with
  | within hclosing =>
    rw [hclosing]
    rfl
  | closes hclosing htries =>
    rw [hclosing, htries.tried_second, Option.toList_some, List.flatMap_singleton]
    rfl

/-- A tick tries every rule of seconds once in the second that it closes. -/
theorem TickTries.tried_eq {ts : List Trial} (h : s.TickTries ts s') :
    Trial.tried .second ts = s.tickSeconds.flatMap (s.game.rulesAt .second) := by
  obtain ⟨summary, hstep⟩ := h.step
  rw [tickSeconds_of_step hstep]
  cases h with
  | @of_parts _ _ _ ts us vs _ htick hsecond _ hhands =>
    -- Only the pass of the second tries rules of seconds.
    have hfirst : Trial.tried .second ts = [] := by
      refine Trial.tried_eq_nil fun t ht => ?_
      have htiming : t.rule.timing = .tick := of_decide_eq_true (htick.mem ht).2.1
      simp [htiming]
    have hlast : Trial.tried .second vs = [] := by
      refine Trial.tried_eq_nil fun t ht => ?_
      simp [(hhands.mem ht).2]
    rw [Trial.tried_append, Trial.tried_append, hfirst, hlast, List.nil_append, List.append_nil]
    exact hsecond.tried_eq

theorem TicksTry.tried_eq {n : Nat} {ts : List Trial} (h : TicksTry n s ts s') :
    Trial.tried .second ts = (listedSteps tickSeconds n s).flatMap (s.game.rulesAt .second) := by
  induction h with
  | zero => rfl
  | succ h _ ih =>
    obtain ⟨summary, hstep⟩ := h.step
    rw [listedSteps, hstep, Outcome.listed_ok, Trial.tried_append, List.flatMap_append, h.tried_eq,
      ih, (step_counts hstep).game]

/-- However a call tries rules, those of seconds are tried once in each second that is completed. -/
theorem Course.counts {op : Operation} {ts : List Trial} (h : s.Course op ts s') :
    ∃ ks, s.Counts ks s' ∧ Trial.tried .second ts = ks.flatMap (s.game.rulesAt .second) := by
  cases h with
  | idle => exact ⟨[], counts_of_clock_eq rfl rfl, rfl⟩
  | rest _ h => exact ⟨[], counts_of_clock_eq h.game h.clock, rfl⟩
  | triggers hprepares hhands =>
    have hplays := hhands.plays
    have hclock := hplays.world.clock_eq.trans hprepares.abreast.clock
    have hgame := hplays.game.trans hprepares.abreast.game
    refine ⟨[], counts_of_clock_eq hgame hclock, ?_⟩
    refine Trial.tried_eq_nil fun t ht => ?_
    simp [(hhands.mem ht).2]
  | tick h =>
    obtain ⟨summary, hstep⟩ := h.step
    exact ⟨_, step_counts hstep, h.tried_eq⟩
  | ticks h => exact ⟨_, steps_counts h.steps, h.tried_eq⟩

omit [RandomSource ρ] [SaveStore σ] in
theorem Counts.eq (h : s.Counts ks s') (h' : s.Counts ks' s') : ks = ks' := by
  have hlength : ks.length = ks'.length := by
    have hseconds := h.seconds.symm.trans h'.seconds
    omega
  rw [h.consecutive, h'.consecutive, hlength]

/-- A call that neither resets nor loads tries the rules of seconds once in each second that it
closes. -/
theorem tried_trials {op : Operation} {a : Answer} (hop : ¬ op.restarts)
    (h : s.apply op = .ok (a, s')) :
    Trial.tried .second (s.trials op) = (s.seconds op).flatMap (s.game.rulesAt .second) := by
  obtain ⟨ks, hcounts, htried⟩ := (apply_course hop h).counts
  rw [htried, hcounts.eq (apply_counts hop h)]

/-- A session of a game with the calls that it has behind it since the game began. A session that
goes on from what was saved from another one has the calls of that one behind it. -/
inductive Past (g : Game) : List (Served ρ σ) → Session ρ σ → Prop
  | new {random store} : Past g [] (ofGame g random store)
  | call {log s op a s'} (h : Past g log s) (hop : ¬ op.restarts)
      (hcall : s.apply op = .ok (a, s')) : Past g (log ++ [⟨s, op, a⟩]) s'
  | reset {log s} (h : Past g log s) : Past g [] s.reset
  | resumed {log past s t slot} (h : Past g log s) (hsaved : Past g past t)
      (hslot : Slot.load s.store g.identity.id slot = .ok (some t.snapshot)) :
      Past g past (s.load slot).2
  | refused {log s slot} (h : Past g log s) (hslot : ¬ (s.load slot).1) : Past g [] (s.load slot).2
  | share {log s store} (h : Past g log s) : Past g log { s with store }

/-- What has been played has a past. -/
theorem Played.past {g : Game} {sources : Set ρ} {history : List Operation}
    (h : s.Played g sources history) : ∃ log, s.Past g log := by
  induction h with
  | new => exact ⟨_, .new⟩
  | @call history s op a s' _ hload hcall ih =>
    obtain ⟨log, hpast⟩ := ih
    by_cases hop : op.restarts
    · rcases restarts_cases hop hcall with ⟨-, rfl⟩ | ⟨slot, rfl, -⟩
      · exact ⟨_, hpast.reset⟩
      · exact (hload slot rfl).elim
    · exact ⟨_, hpast.call hop hcall⟩
  | resumed _ _ hslot ih ihsaved =>
    obtain ⟨log, hpast⟩ := ih
    obtain ⟨past, hsaved⟩ := ihsaved
    exact ⟨_, hpast.resumed hsaved hslot⟩
  | refused _ hslot ih =>
    obtain ⟨log, hpast⟩ := ih
    exact ⟨_, hpast.refused hslot⟩
  | share _ ih =>
    obtain ⟨log, hpast⟩ := ih
    exact ⟨_, hpast.share⟩

end Session

namespace Session.Past

variable [SaveStore σ] {g : Game} {s t : Session ρ σ} {log past : List (Served ρ σ)} {slot : String}

theorem game (h : s.Past g log) : s.game = g := by
  induction h with
  | new => rfl
  | call _ _ hcall ih => exact (apply_game hcall).trans ih
  | resumed _ _ _ ih | refused _ _ ih => exact (apply_game (apply_load _ _)).trans ih
  | reset _ ih | share _ ih => exact ih

theorem load_eq (h : s.Past g log) (hsaved : t.Past g past)
    (hslot : Slot.load s.store g.identity.id slot = .ok (some t.snapshot)) :
    s.load slot = (true, s.restore t.snapshot) := by
  have hgame : t.game = s.game := hsaved.game.trans h.game.symm
  exact load_of_snapshot hgame (h.game.symm ▸ hslot)

/-- The completed seconds are the full ones of the completed ticks. -/
theorem isFull (h : s.Past g log) : s.world.clock.IsFull g.config.ticksPerSecond := by
  induction h with
  | new | reset => exact Clock.isFull_start _
  | call hs hop hcall ih =>
    have hcounts := apply_counts hop hcall
    rw [← hs.game] at ih ⊢
    exact hcounts.isFull ih
  | resumed hs hsaved hslot _ ih =>
    rw [load_eq hs hsaved hslot]
    exact ih
  | refused _ hslot =>
    rw [load_refused hslot]
    exact Clock.isFull_start _
  | share _ ih => exact ih

/-- Every second has been closed once, in order. -/
theorem seconds_eq_range (h : s.Past g log) :
    Served.listed Session.seconds log = List.range s.world.clock.seconds := by
  induction h with
  | new | reset => rfl
  | call hs hop hcall ih =>
    have hcounts := apply_counts hop hcall
    rw [Served.listed_append, ih, hcounts.seconds, List.range_eq_range', List.range_eq_range',
      ← List.range'_append_1, Nat.zero_add, ← hcounts.consecutive]
  | resumed hs hsaved hslot _ ih =>
    rw [load_eq hs hsaved hslot]
    exact ih
  | refused _ hslot =>
    rw [load_refused hslot]
    rfl
  | share _ ih => exact ih

/-- The rules of seconds have been tried once in each second that has been closed. -/
theorem tried_trials (h : s.Past g log) :
    Trial.tried .second (Served.listed Session.trials log) =
      (Served.listed Session.seconds log).flatMap (g.rulesAt .second) := by
  induction h with
  | new | reset | refused => rfl
  | call hs hop hcall ih =>
    rw [Served.listed_append, Served.listed_append, Trial.tried_append, List.flatMap_append, ih,
      Session.tried_trials hop hcall, hs.game]
  | resumed _ _ _ _ ih | share _ ih => exact ih

/-- In the past of a session the completed seconds are the full ones of the completed ticks. Every
second up to now has been closed once, in order, and in each of them the rules of seconds have been
tried once. A tick closes a second exactly when it is the last tick of it, and goes on from what the
rules of that second have left. -/
theorem seconds_counted (h : s.Past g log) :
    s.world.clock.seconds = s.world.clock.tick / max g.config.ticksPerSecond 1 ∧
    Served.listed Session.seconds log = List.range s.world.clock.seconds ∧
    Trial.tried .second (Served.listed Session.trials log) =
      (List.range s.world.clock.seconds).flatMap (g.rulesAt .second) ∧
    ∀ n t summary t', steps n s = .ok t → t.step = .ok (summary, t') →
      summary.tick = t.world.clock.tick ∧
      (∀ k, summary.second = some k ↔
        summary.tick = (k + 1) * max g.config.ticksPerSecond 1 - 1) ∧
      t.TickTries t.stepTrials t' := by
  refine ⟨h.isFull, h.seconds_eq_range, ?_, fun n t summary t' hsteps hstep => ?_⟩
  · rw [h.tried_trials, h.seconds_eq_range]
  · have hcounts := steps_counts hsteps
    have hfull := h.isFull
    rw [← h.game] at hfull ⊢
    obtain ⟨htick, hsecond, -⟩ := step_clock hstep
    refine ⟨htick, fun k => ?_, (step_tries hstep).1⟩
    rw [hsecond, htick, closing?, hcounts.game]
    exact Clock.closing?_eq_some_iff (hcounts.isFull hfull)

end Session.Past

/-- A game of three ticks a second, with a rule of seconds. -/
def sandglassGame : Game where
  identity := { id := "sandglass", name := "Sandglass" }
  config := { ticksPerSecond := 3 }
  declarations := [{ id := "grains" }]
  rules := [{ id := "trickle", timing := .second, actions := [.add "grains" (.lit (.number 1.0))] }]

namespace Session

/-- The sandglass while time passes. -/
def newSandglass : Session Xorshift MemoryStore :=
  (ofGame sandglassGame (Xorshift.ofWord 9) MemoryStore.empty).start

/-- The sandglass after seven ticks. -/
def sandglass : Session Xorshift MemoryStore := newSandglass.after 7

/-- The calls that the sandglass has behind it. -/
def sandglassCalls : List (Served Xorshift MemoryStore) :=
  [⟨ofGame sandglassGame (Xorshift.ofWord 9) MemoryStore.empty, .play .start, .done⟩,
    ⟨newSandglass, .play (.catchUp 7), .count 7⟩]

theorem sandglass_past : sandglass.Past sandglassGame sandglassCalls := by
  have hstart : (ofGame sandglassGame (Xorshift.ofWord 9) MemoryStore.empty).apply
      (.play .start) = .ok (.done, newSandglass) := rfl
  have hcatchUp : newSandglass.apply (.play (.catchUp 7)) = .ok (.count 7, sandglass) :=
    apply_catchUp_after rfl (by decide +kernel)
  exact (Past.new.call (by decide) hstart).call (by decide) hcatchUp

set_option maxRecDepth 10000 in
/-- In seven ticks two seconds are closed. The third is closed by the ninth tick, and the grain that
trickles in it is there after the tick. -/
theorem sandglass_seconds_counted :
    sandglass.world.clock.seconds = sandglass.world.clock.tick / 3 ∧
    Served.listed seconds sandglassCalls = List.range sandglass.world.clock.seconds ∧
    Trial.tried .second (Served.listed trials sandglassCalls) =
      (List.range sandglass.world.clock.seconds).flatMap (sandglassGame.rulesAt .second) ∧
    sandglass.world.clock = ⟨7, 2⟩ ∧
    sandglass.world.state.get? "grains" = some (.number 2.0) ∧
    ∃ summary s', (sandglass.after 1).step = .ok (summary, s') ∧ summary.second = some 2 ∧
      (sandglass.after 1).TickTries (sandglass.after 1).stepTrials s' ∧
      s'.world.state.get? "grains" = some (.number 3.0) := by
  have hrate : max sandglassGame.config.ticksPerSecond 1 = 3 := rfl
  obtain ⟨hfull, hseconds, htried, hticks⟩ := sandglass_past.seconds_counted
  rw [hrate] at hfull hticks
  refine ⟨hfull, hseconds, htried, by decide +kernel, by decide +kernel, ?_⟩
  have hninth : (sandglass.after 1).step.map (fun (summary, s') =>
      (summary.tick, s'.world.state.get? "grains")) = .ok (8, some (.number 3.0)) := by
    decide +kernel
  rcases hstep : (sandglass.after 1).step with f | ⟨summary, s'⟩
  · rw [hstep] at hninth
    cases hninth
  · rw [hstep] at hninth
    obtain ⟨htick, hgrains⟩ := Prod.mk.inj (Except.ok.inj hninth)
    obtain ⟨-, hcloses, htries⟩ := hticks 1 _ _ _ (steps_after (by decide +kernel)) hstep
    exact ⟨summary, s', rfl, (hcloses 2).mpr htick, htries, hgrains⟩

end Session

end IdleGame
