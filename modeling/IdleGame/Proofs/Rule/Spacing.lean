import IdleGame.Proofs.Rule.Trial
import Mathlib.Data.List.Nodup

/-!
# Fires and time

A rule never fires ahead of the clock, so the time since its last fire is what is left of the clock
after it, and a cooldown keeps two fires apart. A rule without a condition fires as often as its
cooldown allows.

## Main definitions

* `Trial.firingTimes` - when rules with an id have fired
* `FireRecords.NotAhead` - no rule has fired later than a clock shows
* `lastMultiple?` - the last multiple of a period before a time

## Main results

* `Game.Logs.notAhead` - no rule gets ahead of the clock
* `Game.Logs.spaced` - a cooldown keeps two fires apart
* `Game.Logs.periodic` - a rule without a condition fires at the multiples of its cooldown
* `Pass.Tries.timesOf_eq` - a pass tries each rule of its timing once
-/

namespace IdleGame

/-- The times at which rules with an id have fired, in order. -/
def Trial.firingTimes (id : String) (ts : List Trial) : List Nat :=
  (ts.filter fun t => t.fires && t.rule.id = id).map Trial.time

/-- The times at which rules with an id have been tried, in order. -/
def Trial.timesOf (id : String) (ts : List Trial) : List Nat :=
  (ts.filter fun t => t.rule.id = id).map Trial.time

/-- No rule of a game has fired later than a clock shows. -/
def FireRecords.NotAhead (g : Game) (records : FireRecords) (c : Clock) : Prop :=
  ∀ r ∈ g.rules, ∀ u, (of records r.id).last = some u → u ≤ r.timeOn c

namespace Trial

variable {id : String} {t : Trial} {ts us : List Trial}

@[simp] theorem firingTimes_nil : firingTimes id [] = [] := rfl

theorem firingTimes_cons_of_fires (h : t.fires ∧ t.rule.id = id) :
    firingTimes id (t :: ts) = t.time :: firingTimes id ts := by
  simp [firingTimes, h]

theorem firingTimes_cons_of_not_fires (h : ¬ (t.fires ∧ t.rule.id = id)) :
    firingTimes id (t :: ts) = firingTimes id ts := by
  simp [firingTimes, h]

@[simp] theorem timesOf_append : timesOf id (ts ++ us) = timesOf id ts ++ timesOf id us := by
  simp [timesOf]

theorem timesOf_cons_of_eq (h : t.rule.id = id) :
    timesOf id (t :: ts) = t.time :: timesOf id ts := by
  simp [timesOf, h]

theorem timesOf_cons_of_ne (h : t.rule.id ≠ id) : timesOf id (t :: ts) = timesOf id ts := by
  simp [timesOf, h]

theorem timesOf_eq_nil (h : ∀ t ∈ ts, t.rule.id ≠ id) : timesOf id ts = [] := by
  simpa [timesOf] using h

end Trial

theorem Rule.timeOn_le_advance (r : Rule) (rate : Nat) (c : Clock) :
    r.timeOn c ≤ r.timeOn (c.advance rate) := by
  unfold timeOn Clock.advance
  cases r.timing
  case second =>
    dsimp only
    split <;> omega
  all_goals exact Nat.le_succ _

/-- The multiples of a period are the numbers that are a period away from the last multiple
before. -/
theorem dvd_succ_iff_le_sub {n k : Nat} (hn : 0 < n) : n ∣ k + 1 ↔ n ≤ k + 1 - k / n * n := by
  have hk : k + 1 = k / n * n + (k % n + 1) := by rw [← Nat.add_assoc, Nat.div_add_mod']
  have hmod : k % n < n := Nat.mod_lt k hn
  rw [hk, Nat.dvd_add_right (Nat.dvd_mul_left n _), Nat.add_sub_cancel_left]
  constructor
  · exact Nat.le_of_dvd (Nat.succ_pos _)
  · intro hle
    have hlast : k % n + 1 = n := Nat.le_antisymm hmod hle
    exact ⟨1, hlast.trans (Nat.mul_one n).symm⟩

/-- The last multiple of a period before a time. -/
def lastMultiple? (n : Nat) : Nat → Option Nat
  | 0 => none
  | t + 1 => some (t / n * n)

/-- The last multiple up to a time is that time or the last one before it. -/
theorem lastMultiple?_succ (n t : Nat) :
    lastMultiple? n (t + 1) = if n ∣ t then some t else lastMultiple? n t := by
  split
  · rename_i hdvd
    rw [lastMultiple?, Nat.div_mul_cancel hdvd]
  · rename_i hdvd
    rcases t with _ | t
    · exact (hdvd (Nat.dvd_zero n)).elim
    · rw [lastMultiple?, lastMultiple?, Nat.succ_div_of_not_dvd hdvd]

/-- A rule without a cap that has last fired at a multiple of its cooldown is ready again when the
time is the next one. -/
theorem Rule.isReady_iff_dvd {r : Rule} {record : FireRecord} {n t : Nat}
    (hcap : r.maxFires = none) (hcooldown : r.cooldown = some n) (hn : 0 < n)
    (hlast : record.last = lastMultiple? n t) : r.isReady record t ↔ n ∣ t := by
  simp only [Rule.isReady, hcap, hcooldown, hlast, Option.all_none, Bool.true_and]
  rcases t with _ | t
  · simp [lastMultiple?]
  · simpa [lastMultiple?] using (dvd_succ_iff_le_sub hn).symm

namespace Game

variable {g : Game} {records records' : FireRecords} {c c' : Clock} {ts : List Trial} {r r' : Rule}

theorem rule_eq_of_id_eq (hnodup : (g.rules.map Rule.id).Nodup) (hr : r ∈ g.rules)
    (hr' : r' ∈ g.rules) (h : r.id = r'.id) : r = r' :=
  List.inj_on_of_nodup_map hnodup hr hr' h

namespace Logs

/-- Every trial comes after those before it, at the time that the clock then shows. -/
theorem split {t : Trial} {before after : List Trial}
    (h : g.Logs records c (before ++ t :: after) records' c') :
    ∃ c₁, g.Logs records c before (records.noteAll before) c₁ ∧ t.time = t.rule.timeOn c₁ ∧
      t.rule ∈ g.rules := by
  generalize hts : before ++ t :: after = ts at h
  induction h generalizing before with
  | nil => simp at hts
  | trial hrule htime hjust hlater ih =>
    rcases before with _ | ⟨t', before⟩
    · obtain ⟨rfl, rfl⟩ := List.cons.inj hts
      exact ⟨_, .nil, htime, hrule⟩
    · obtain ⟨rfl, rfl⟩ := List.cons.inj hts
      obtain ⟨c₁, hlogs, hfound⟩ := ih rfl
      exact ⟨c₁, .trial hrule htime hjust hlogs, hfound⟩
  | advance _ ih =>
    obtain ⟨c₁, hlogs, hfound⟩ := ih hts
    exact ⟨c₁, .advance hlogs, hfound⟩

variable (hnodup : (g.rules.map Rule.id).Nodup)

include hnodup in
theorem notAhead_note {t : Trial} (hrule : t.rule ∈ g.rules) (htime : t.time = t.rule.timeOn c)
    (h : records.NotAhead g c) : (records.note t).NotAhead g c := by
  intro r hr u hu
  rw [FireRecords.of_note] at hu
  split at hu
  -- A rule with the id of the one that has fired is that rule, so the units are the same.
  · rename_i hfires
    obtain rfl := rule_eq_of_id_eq hnodup hrule hr hfires.2
    obtain rfl := Option.some.inj hu
    exact Nat.le_of_eq htime
  · exact h r hr u hu

theorem notAhead_advance (h : records.NotAhead g c) (rate : Nat) :
    records.NotAhead g (c.advance rate) :=
  fun r hr u hu => Nat.le_trans (h r hr u hu) (r.timeOn_le_advance rate c)

include hnodup in
/-- Trials leave no rule ahead of the clock. -/
theorem notAhead (h : g.Logs records c ts records' c') (hahead : records.NotAhead g c) :
    records'.NotAhead g c' := by
  induction h with
  | nil => exact hahead
  | trial hrule htime _ _ ih => exact ih (notAhead_note hnodup hrule htime hahead)
  | advance _ ih => exact ih (notAhead_advance hahead _)

include hnodup in
/-- When a rule is tried, it has not fired later than the time of its trial. -/
theorem notAhead_trial {t : Trial} {before after : List Trial} {u : Nat}
    (h : g.Logs records c (before ++ t :: after) records' c') (hahead : records.NotAhead g c)
    (hu : (FireRecords.of (records.noteAll before) t.rule.id).last = some u) : u ≤ t.time := by
  obtain ⟨c₁, hbefore, htime, hrule⟩ := h.split
  rw [htime]
  exact hbefore.notAhead hnodup hahead t.rule hrule u hu

include hnodup in
/-- A cooldown keeps apart two fires of a rule, and its last fire before from the first. -/
theorem spaced {n : Nat} (h : g.Logs records c ts records' c') (hahead : records.NotAhead g c)
    (hr : r ∈ g.rules) (hcooldown : r.cooldown = some n) :
    ((FireRecords.of records r.id).last.toList ++ Trial.firingTimes r.id ts).IsChain
      fun u v => u + n ≤ v := by
  -- The chain begins with the last fire before, so that the first trial has something to keep from.
  induction h with
  | @nil records c =>
    cases (FireRecords.of records r.id).last <;> simp
  | advance _ ih => exact ih (notAhead_advance hahead _)
  | @trial records c t ts _ _ hrule htime hjust _ ih =>
    have ih := ih (notAhead_note hnodup hrule htime hahead)
    rw [FireRecords.of_note] at ih
    by_cases hfires : t.fires ∧ t.rule.id = r.id
    · obtain rfl := rule_eq_of_id_eq hnodup hrule hr hfires.2
      rw [if_pos hfires] at ih
      rw [Trial.firingTimes_cons_of_fires hfires]
      rcases hlast : (FireRecords.of records t.rule.id).last with _ | u
      · exact ih
      · have hu : u ≤ t.time := htime ▸ hahead t.rule hrule u hlast
        have hready := hjust.ready hfires.1
        simp only [Rule.isReady, hcooldown, hlast, Bool.and_eq_true, decide_eq_true_eq] at hready
        exact List.isChain_cons_cons.mpr ⟨by omega, ih⟩
    · rw [if_neg hfires] at ih
      rwa [Trial.firingTimes_cons_of_not_fires hfires]

include hnodup in
/-- A rule without a condition and a cap, which is tried at each of some times in a row, fires at
the multiples of its cooldown. -/
theorem periodic {n k m : Nat} (h : g.Logs records c ts records' c') (hr : r ∈ g.rules)
    (halways : r.condition = .always) (hcap : r.maxFires = none) (hcooldown : r.cooldown = some n)
    (hn : 0 < n) (htimes : Trial.timesOf r.id ts = List.range' k m)
    (hlast : (FireRecords.of records r.id).last = lastMultiple? n k) :
    Trial.firingTimes r.id ts = (List.range' k m).filter (n ∣ ·) := by
  -- Before each trial the last fire was at the last multiple of the cooldown.
  induction h generalizing k m with
  | nil =>
    rw [← htimes]
    rfl
  | advance _ ih => exact ih htimes hlast
  | @trial records c t ts _ _ hrule _ hjust _ ih =>
    by_cases hid : t.rule.id = r.id
    · obtain rfl := rule_eq_of_id_eq hnodup hrule hr hid
      rw [Trial.timesOf_cons_of_eq rfl] at htimes
      rcases m with _ | m
      · cases htimes
      rw [List.range'_succ] at htimes ⊢
      obtain ⟨rfl, htimes⟩ := List.cons.inj htimes
      have hready := Rule.isReady_iff_dvd hcap hcooldown hn hlast
      have hfires : t.fires ∧ t.rule.id = t.rule.id ↔ n ∣ t.time :=
        ⟨fun h => hready.mp (hjust.ready h.1), fun h => ⟨hjust.fires halways (hready.mpr h), rfl⟩⟩
      by_cases hdvd : n ∣ t.time
      · have hfired := hfires.mpr hdvd
        rw [Trial.firingTimes_cons_of_fires hfired, List.filter_cons_of_pos (by simpa using hdvd)]
        refine congrArg (t.time :: ·) (ih htimes ?_)
        rw [FireRecords.of_note, if_pos hfired, lastMultiple?_succ, if_pos hdvd]
        rfl
      · have hnot := mt hfires.mp hdvd
        rw [Trial.firingTimes_cons_of_not_fires hnot,
          List.filter_cons_of_neg (by simpa using hdvd)]
        refine ih htimes ?_
        rw [FireRecords.of_note, if_neg hnot, lastMultiple?_succ, if_neg hdvd, hlast]
    -- The trial of another rule changes neither the times nor the record of this one.
    · rw [Trial.timesOf_cons_of_ne hid] at htimes
      have hnot : ¬ (t.fires ∧ t.rule.id = r.id) := fun h => hid h.2
      rw [Trial.firingTimes_cons_of_not_fires hnot]
      exact ih htimes (by rw [FireRecords.of_note, if_neg hnot, hlast])

end Logs

end Game

/-- A pass tries each rule of its timing once. -/
theorem Pass.Tries.timesOf_eq {ρ : Type} [RandomSource ρ] {pass : Pass} {env : Surroundings}
    {rules : List Rule} {p p' : Progress ρ} {ts : List Trial} {r : Rule}
    (h : pass.Tries env rules p ts p') (hnodup : (rules.map Rule.id).Nodup) (hr : r ∈ rules)
    (hadmitted : r.isAdmitted pass) : Trial.timesOf r.id ts = [pass.now] := by
  induction h with
  | nil => cases hr
  | passed hpassed _ ih =>
    rw [List.map_cons, List.nodup_cons] at hnodup
    rcases List.mem_cons.mp hr with rfl | hr
    · exact (hpassed hadmitted).elim
    · exact ih hnodup.2 hr
  | @tried t _ _ _ us _ _ htime _ hlater ih =>
    rw [List.map_cons, List.nodup_cons] at hnodup
    rcases List.mem_cons.mp hr with rfl | hr
    · have hrest : ∀ u ∈ us, u.rule.id ≠ t.rule.id := fun u hu hid =>
        hnodup.1 (hid ▸ List.mem_map_of_mem (hlater.mem hu).1)
      rw [Trial.timesOf_cons_of_eq rfl, Trial.timesOf_eq_nil hrest, htime]
    · have hne : t.rule.id ≠ r.id := fun hid => hnodup.1 (hid ▸ List.mem_map_of_mem hr)
      rw [Trial.timesOf_cons_of_ne hne]
      exact ih hnodup.2 hr

end IdleGame
