import IdleGame.Proofs.Rule.Pass
import IdleGame.Proofs.Table

/-!
# Trials of rules

A pass tries the rules of its timing, and each of them fires or does not. What a rule that fires has
done is there when the next one is tried. The list of all trials, in order, tells the records: how
often a rule has fired, and when it did last.

## Main definitions

* `Trial` - a rule that a pass has tried
* `FireRecords.noteAll` - the records after trials
* `Game.Logs` - trials that lead from some records and a clock to others
* `Trial.Does` - what it does to try a rule
* `Pass.Tries` - trials that lead from one progress of a pass to another
* `Pass.trials` - the trials of a pass

## Main results

* `FireRecords.fires_noteAll` - fires are counted
* `Game.Logs.executions_le` - a cap bounds how often a rule fires
* `Pass.run_tries`, `Pass.Tries.run` - a pass is the same as its trials
* `Pass.Tries.logs` - what a pass leaves in the records and lists as fired are its trials
-/

namespace IdleGame

/-- A rule that a pass has tried, with the time of the pass. -/
structure Trial where
  rule : Rule
  time : Nat
  /-- Whether the actions of the rule have been run. -/
  fires : Bool

namespace Trial

/-- The ids of the rules that have fired, in order. -/
def fired (ts : List Trial) : List String := (ts.filter fires).map fun t => t.rule.id

/-- How often rules with an id have fired. -/
def firesOf (id : String) (ts : List Trial) : Nat := ts.countP fun t => t.fires && t.rule.id = id

open Classical in
/-- How often the actions of a rule have been run. -/
noncomputable def executions (r : Rule) (ts : List Trial) : Nat :=
  ts.countP fun t => t.fires ∧ t.rule = r

@[simp] theorem fired_append (ts us : List Trial) : fired (ts ++ us) = fired ts ++ fired us := by
  simp [fired]

theorem firesOf_cons (id : String) (t : Trial) (ts : List Trial) :
    firesOf id (t :: ts) = firesOf id ts + if t.fires ∧ t.rule.id = id then 1 else 0 := by
  simp [firesOf, List.countP_cons]

theorem executions_cons_of_ne {r : Rule} {t : Trial} {ts : List Trial}
    (h : ¬ (t.fires ∧ t.rule = r)) : executions r (t :: ts) = executions r ts :=
  List.countP_cons_of_neg (by simpa using h)

theorem executions_cons_of_eq {r : Rule} {t : Trial} {ts : List Trial} (h : t.fires)
    (hr : t.rule = r) : executions r (t :: ts) = executions r ts + 1 :=
  List.countP_cons_of_pos (by simp [h, hr])

end Trial

namespace FireRecords

/-- The records after a trial. -/
def note (records : FireRecords) (t : Trial) : FireRecords :=
  if t.fires then records.insert t.rule.id ((of records t.rule.id).fire t.time) else records

/-- The records after trials one after the other. -/
def noteAll (records : FireRecords) (ts : List Trial) : FireRecords := ts.foldl note records

variable {records : FireRecords} {t : Trial} {ts : List Trial} {id : String}

theorem of_note :
    of (note records t) id =
      if t.fires ∧ t.rule.id = id then (of records id).fire t.time else of records id := by
  unfold note of
  by_cases hfires : t.fires
  · rw [if_pos hfires, Table.get?_insert]
    by_cases hid : t.rule.id = id
    · simp [hfires, hid]
    · simp [hid]
  · simp [hfires]

@[simp] theorem noteAll_cons : noteAll records (t :: ts) = noteAll (note records t) ts := rfl

/-- No count is larger than can be kept. -/
def Bounded (records : FireRecords) : Prop := ∀ id, (of records id).fires ≤ FireRecord.maxCount

theorem bounded_empty : Bounded Table.empty := fun _ => Nat.zero_le _

theorem bounded_note (h : Bounded records) : Bounded (note records t) := fun id => by
  rw [of_note]
  split
  · exact Nat.min_le_right _ _
  · exact h id

/-- The fires are counted, up to the largest count that is kept. -/
theorem fires_noteAll (h : Bounded records) :
    (of (noteAll records ts) id).fires =
      min ((of records id).fires + Trial.firesOf id ts) FireRecord.maxCount := by
  induction ts generalizing records with
  | nil => exact (Nat.min_eq_left (h id)).symm
  | cons t ts ih =>
    rw [noteAll_cons, ih (bounded_note h), of_note, Trial.firesOf_cons]
    -- A count that has reached the largest one stays there, on both sides.
    split
    · simp only [FireRecord.fire]
      omega
    · rw [Nat.add_zero]

end FireRecords

/-- The time that a clock shows in the unit of a rule. -/
def Rule.timeOn (r : Rule) (c : Clock) : Nat :=
  match r.timing with
  | .second => c.seconds
  | .tick | .event => c.tick

/-- A rule fires only when its cap and its cooldown let it, and without a condition it then does. -/
structure Trial.IsJust (t : Trial) (records : FireRecords) : Prop where
  ready : t.fires → t.rule.isReady (FireRecords.of records t.rule.id) t.time
  fires : t.rule.condition = .always →
    t.rule.isReady (FireRecords.of records t.rule.id) t.time → t.fires

/-- Trials of rules of a game, one after the other, lead from records and a clock to others. In
between the clock may advance. -/
inductive Game.Logs (g : Game) : FireRecords → Clock → List Trial → FireRecords → Clock → Prop
  | nil {records c} : Logs g records c [] records c
  | trial {records c t ts records' c'} (hrule : t.rule ∈ g.rules) (htime : t.time = t.rule.timeOn c)
      (hjust : t.IsJust records) (hlater : Logs g (records.note t) c ts records' c') :
      Logs g records c (t :: ts) records' c'
  | advance {records c ts records' c'}
      (hlater : Logs g records (c.advance g.config.ticksPerSecond) ts records' c') :
      Logs g records c ts records' c'

namespace Game.Logs

variable {g : Game} {records records' records'' : FireRecords} {c c' c'' : Clock}
  {ts us : List Trial}

theorem append (h : g.Logs records c ts records' c') (h' : g.Logs records' c' us records'' c'') :
    g.Logs records c (ts ++ us) records'' c'' := by
  induction h with
  | nil => exact h'
  | trial hrule htime hjust _ ih => exact .trial hrule htime hjust (ih h')
  | advance _ ih => exact .advance (ih h')

theorem records_eq (h : g.Logs records c ts records' c') : records' = records.noteAll ts := by
  induction h with
  | nil => rfl
  | trial _ _ _ _ ih => exact ih
  | advance _ ih => exact ih

/-- A rule with a cap does not fire more often than the cap leaves. -/
theorem executions_le {r : Rule} {cap : Nat} (h : g.Logs records c ts records' c')
    (hcap : r.maxFires = some cap) (hmax : cap ≤ FireRecord.maxCount) :
    Trial.executions r ts ≤ cap - (FireRecords.of records r.id).fires := by
  -- Every fire takes one from what the cap leaves, and a rule is ready only while some is left.
  induction h with
  | nil => exact Nat.zero_le _
  | advance _ ih => exact ih
  | @trial records c t ts _ _ _ _ hjust _ ih =>
    rw [FireRecords.of_note] at ih
    by_cases hfires : t.fires ∧ t.rule = r
    · obtain ⟨hfires, rfl⟩ := hfires
      have hready := hjust.ready hfires
      simp only [Rule.isReady, hcap, Option.all_some, Bool.and_eq_true, decide_eq_true_eq] at hready
      rw [if_pos ⟨hfires, rfl⟩] at ih
      rw [Trial.executions_cons_of_eq hfires rfl]
      simp only [FireRecord.fire] at ih
      omega
    · rw [Trial.executions_cons_of_ne hfires]
      refine Nat.le_trans ih ?_
      -- Another rule with the same id counts against the cap as well.
      split
      · simp only [FireRecord.fire]
        omega
      · exact Nat.le_refl _

end Game.Logs

variable {ρ : Type} [RandomSource ρ]

/-- What it does to try a rule. One that is not ready leaves the scope as it is. If it is ready its
condition has been evaluated, and where that holds its actions have been run, once. -/
inductive Trial.Does (t : Trial) (env : Surroundings) (records : FireRecords) (s : Scope ρ) :
    Scope ρ → Prop
  | unready (hready : ¬ t.rule.isReady (FireRecords.of records t.rule.id) t.time)
      (hrests : ¬ t.fires) : Does t env records s s
  | unmet {v s'} (hready : t.rule.isReady (FireRecords.of records t.rule.id) t.time)
      (hv : s.eval env none t.rule.condition = .ok (v, s')) (hholds : ¬ v.isTruthy)
      (hrests : ¬ t.fires) : Does t env records s s'
  | fires {v s' s''} (hready : t.rule.isReady (FireRecords.of records t.rule.id) t.time)
      (hv : s.eval env none t.rule.condition = .ok (v, s')) (hholds : v.isTruthy)
      (hrun : Action.runAll env none t.rule.actions s' = .ok s'') (hfires : t.fires) :
      Does t env records s s''

/-- Trying a rule fires it only when it may, and does so without a condition. -/
theorem Trial.Does.isJust {t : Trial} {env : Surroundings} {records : FireRecords} {s s' : Scope ρ}
    (h : t.Does env records s s') : t.IsJust records := by
  cases h with
  | unready hready hrests =>
    exact ⟨fun hfires => (hrests hfires).elim, fun _ hready' => (hready hready').elim⟩
  | unmet hready hv hholds hrests =>
    refine ⟨fun hfires => (hrests hfires).elim, fun halways _ => (hholds ?_).elim⟩
    rw [halways] at hv
    have htrue : s.eval env none .always = .ok (.bool true, s) := rfl
    rw [← (Prod.mk.inj (Except.ok.inj (htrue.symm.trans hv))).1]
    rfl
  | fires hready hv hholds hrun hfires => exact ⟨fun _ => hready, fun _ _ => hfires⟩

namespace Pass

/-- The progress of a pass after a trial that has led to a scope. -/
def Progress.note (p : Progress ρ) (t : Trial) (s : Scope ρ) : Progress ρ :=
  ⟨p.records.note t, s, p.fired ++ Trial.fired [t]⟩

/-- A pass tries the rules that it admits, once and in order. What one of them does is there for the
next one. -/
inductive Tries (pass : Pass) (env : Surroundings) :
    List Rule → Progress ρ → List Trial → Progress ρ → Prop
  | nil {p} : Tries pass env [] p [] p
  | passed {r rules p ts p'} (hadmitted : ¬ r.isAdmitted pass)
      (hlater : Tries pass env rules p ts p') : Tries pass env (r :: rules) p ts p'
  | tried {t rules p s ts p'} (hadmitted : t.rule.isAdmitted pass) (htime : t.time = pass.now)
      (hdoes : t.Does env p.records p.scope s)
      (hlater : Tries pass env rules (p.note t s) ts p') :
      Tries pass env (t.rule :: rules) p (t :: ts) p'

/-- A rule fires in a pass: it is looked at, its condition holds, and its actions run to the end. -/
def fires (pass : Pass) (env : Surroundings) (r : Rule) (p : Progress ρ) : Bool :=
  r.isAdmitted pass && r.isReady (FireRecords.of p.records r.id) pass.now &&
    match p.scope.eval env none r.condition with
    | .ok (v, s) => v.isTruthy && (Action.runAll env none r.actions s).isOk
    | .error _ => false

/-- The trial of a rule, if the pass is of its timing. -/
def trial (pass : Pass) (env : Surroundings) (r : Rule) (p : Progress ρ) : List Trial :=
  if r.isAdmitted pass then [⟨r, pass.now, pass.fires env r p⟩] else []

/-- The trials of a pass, up to a rule that faults. -/
def trials (pass : Pass) (env : Surroundings) : List Rule → Progress ρ → List Trial
  | [], _ => []
  | r :: rules, p =>
    pass.trial env r p ++ Outcome.listed (pass.consider env r p) (pass.trials env rules)

/-- A pass is made while a clock shows its time. -/
def IsAt (c : Clock) : Pass → Prop
  | tick t => t = c.tick
  | second s => s = c.seconds
  | event _ t => t = c.tick

variable {pass : Pass} {env : Surroundings} {r : Rule} {rules : List Rule} {p p' : Progress ρ}
  {t : Trial} {ts : List Trial} {s : Scope ρ} {g : Game} {c : Clock}

theorem now_eq_timeOn (hpass : pass.IsAt c) (h : r.isAdmitted pass) : pass.now = r.timeOn c := by
  cases pass with
  | tick t =>
    have htiming : r.timing = .tick := of_decide_eq_true h
    rw [Rule.timeOn, htiming]
    exact hpass
  | second s =>
    have htiming : r.timing = .second := of_decide_eq_true h
    rw [Rule.timeOn, htiming]
    exact hpass
  | event name t =>
    have htiming : r.timing = .event := of_decide_eq_true (Bool.and_eq_true_iff.mp h).1
    rw [Rule.timeOn, htiming]
    exact hpass

omit [RandomSource ρ] in
theorem considers_iff :
    pass.Considers r p ↔
      r.isAdmitted pass ∧ r.isReady (FireRecords.of p.records r.id) pass.now :=
  Bool.and_eq_true_iff

omit [RandomSource ρ] in
theorem note_of_not_fires (h : ¬ t.fires) : p.note t s = { p with scope := s } := by
  simp [Progress.note, FireRecords.note, Trial.fired, h]

omit [RandomSource ρ] in
theorem note_of_fires (h : t.fires) :
    p.note t s = ⟨p.records.insert t.rule.id ((FireRecords.of p.records t.rule.id).fire t.time), s,
      p.fired ++ [t.rule.id]⟩ := by
  simp [Progress.note, FireRecords.note, Trial.fired, h]

theorem fires_iff :
    pass.fires env r p ↔
      pass.Considers r p ∧ ∃ v s s', p.scope.eval env none r.condition = .ok (v, s) ∧
        v.isTruthy ∧ Action.runAll env none r.actions s = .ok s' := by
  rw [fires, Bool.and_eq_true_iff]
  refine and_congr_right fun _ => ?_
  rcases p.scope.eval env none r.condition with f | ⟨v, s⟩
  · simp
  constructor
  · intro hfires
    obtain ⟨hholds, hok⟩ := Bool.and_eq_true_iff.mp hfires
    obtain ⟨s', hrun⟩ := Outcome.exists_eq_ok_of_isOk hok
    exact ⟨v, s, s', rfl, hholds, hrun⟩
  · rintro ⟨v', s₁, s', hv, hholds, hrun⟩
    obtain ⟨rfl, rfl⟩ := Prod.mk.inj (Except.ok.inj hv)
    simp [hholds, hrun, Except.isOk, Except.toBool]

/-- Considering a rule that a pass admits is trying it. -/
theorem consider_ok (hadmitted : r.isAdmitted pass) (h : pass.consider env r p = .ok p') :
    ∃ s, Trial.Does ⟨r, pass.now, pass.fires env r p⟩ env p.records p.scope s ∧
      p' = p.note ⟨r, pass.now, pass.fires env r p⟩ s := by
  -- The three cases are the three ways in which a rule can be tried.
  by_cases hconsiders : pass.Considers r p
  · have hready := (considers_iff.mp hconsiders).2
    rw [consider_considered hconsiders] at h
    obtain ⟨⟨v, s⟩, hv, h⟩ := Outcome.bind_eq_ok_iff.mp h
    by_cases hholds : v.isTruthy
    · obtain ⟨s', hrun, h⟩ := Outcome.bind_eq_ok_iff.mp ((if_pos hholds).symm.trans h)
      have hfires : pass.fires env r p := fires_iff.mpr ⟨hconsiders, v, s, s', hv, hholds, hrun⟩
      refine ⟨s', .fires hready hv hholds hrun hfires, ?_⟩
      rw [note_of_fires hfires]
      exact (Except.ok.inj h).symm
    · have hrests : ¬ pass.fires env r p := by
        intro hfires
        obtain ⟨-, v', s', -, hv', hholds', -⟩ := fires_iff.mp hfires
        rw [hv] at hv'
        obtain ⟨rfl, -⟩ := Prod.mk.inj (Except.ok.inj hv')
        exact hholds hholds'
      refine ⟨s, .unmet hready hv hholds hrests, ?_⟩
      rw [note_of_not_fires hrests]
      exact (Except.ok.inj ((if_neg hholds).symm.trans h)).symm
  · have hrests : ¬ pass.fires env r p := fun hfires => hconsiders (fires_iff.mp hfires).1
    have hready : ¬ r.isReady (FireRecords.of p.records r.id) pass.now :=
      fun hready => hconsiders (considers_iff.mpr ⟨hadmitted, hready⟩)
    rw [consider_skipped hconsiders] at h
    refine ⟨p.scope, .unready hready hrests, ?_⟩
    rw [note_of_not_fires hrests]
    exact (Except.ok.inj h).symm

/-- A rule is tried by considering it. -/
theorem consider_of_does (hadmitted : t.rule.isAdmitted pass) (htime : t.time = pass.now)
    (h : t.Does env p.records p.scope s) : pass.consider env t.rule p = .ok (p.note t s) := by
  cases h with
  | unready hready hrests =>
    rw [htime] at hready
    rw [consider_skipped fun h => hready (considers_iff.mp h).2, note_of_not_fires hrests]
  | unmet hready hv hholds hrests =>
    rw [htime] at hready
    rw [consider_considered (considers_iff.mpr ⟨hadmitted, hready⟩), hv, Outcome.ok_bind,
      note_of_not_fires hrests]
    exact if_neg hholds
  | fires hready hv hholds hrun hfires =>
    rw [htime] at hready
    rw [consider_considered (considers_iff.mpr ⟨hadmitted, hready⟩), hv, Outcome.ok_bind,
      note_of_fires hfires, htime]
    refine (if_pos hholds).trans ?_
    rw [hrun, Outcome.ok_bind]

/-- A pass that comes to its end tries rules. -/
theorem run_tries (h : pass.run env rules p = .ok p') :
    pass.Tries env rules p (pass.trials env rules p) p' := by
  unfold run at h
  induction rules generalizing p with
  | nil =>
    obtain rfl := Except.ok.inj h
    exact .nil
  | cons r rules ih =>
    rw [List.foldlM_cons] at h
    obtain ⟨p₁, hp, h⟩ := Outcome.bind_eq_ok_iff.mp h
    rw [trials, hp, Outcome.listed_ok, trial]
    by_cases hadmitted : r.isAdmitted pass
    -- What this rule leaves is where the others begin.
    · obtain ⟨s, hdoes, rfl⟩ := consider_ok hadmitted hp
      rw [if_pos hadmitted]
      exact .tried hadmitted rfl hdoes (ih h)
    · rw [consider_skipped fun h => hadmitted (considers_iff.mp h).1] at hp
      obtain rfl := Except.ok.inj hp
      rw [if_neg hadmitted]
      exact .passed hadmitted (ih h)

namespace Tries

/-- Trying rules is a pass that comes to its end. -/
theorem run (h : pass.Tries env rules p ts p') : pass.run env rules p = .ok p' := by
  unfold Pass.run
  induction h with
  | nil => rfl
  | passed hadmitted _ ih =>
    rw [List.foldlM_cons, consider_skipped fun h => hadmitted (considers_iff.mp h).1,
      Outcome.ok_bind, ih]
  | tried hadmitted htime hdoes _ ih =>
    rw [List.foldlM_cons, consider_of_does hadmitted htime hdoes, Outcome.ok_bind, ih]

/-- A pass over rules of a game leads from its records to those that its trials tell. -/
theorem logs (h : pass.Tries env rules p ts p') (hrules : rules ⊆ g.rules) (hpass : pass.IsAt c) :
    g.Logs p.records c ts p'.records c := by
  induction h with
  | nil => exact .nil
  | passed _ _ ih => exact ih (List.cons_subset.mp hrules).2
  -- The clock shows one time for the whole pass, so each trial is logged at it.
  | tried hadmitted htime hdoes _ ih =>
    rw [List.cons_subset] at hrules
    have htimeOn := htime.trans (now_eq_timeOn hpass hadmitted)
    exact .trial hrules.1 htimeOn hdoes.isJust (ih hrules.2)

/-- A pass lists the rules that have fired in its trials. -/
theorem fired_eq (h : pass.Tries env rules p ts p') : p'.fired = p.fired ++ Trial.fired ts := by
  induction h with
  | nil => exact (List.append_nil _).symm
  | passed _ _ ih => exact ih
  | @tried t _ _ _ ts _ _ _ _ _ ih =>
    rw [ih, Progress.note, List.append_assoc, ← Trial.fired_append, List.singleton_append]

/-- A pass tries rules of its timing at its time. -/
theorem mem (h : pass.Tries env rules p ts p') (ht : t ∈ ts) :
    t.rule ∈ rules ∧ t.rule.isAdmitted pass ∧ t.time = pass.now := by
  induction h with
  | nil => cases ht
  | passed _ _ ih =>
    obtain ⟨hrule, htrial⟩ := ih ht
    exact ⟨List.mem_cons_of_mem _ hrule, htrial⟩
  | tried hadmitted htime _ _ ih =>
    rcases List.mem_cons.mp ht with rfl | ht
    · exact ⟨List.mem_cons_self, hadmitted, htime⟩
    · obtain ⟨hrule, htrial⟩ := ih ht
      exact ⟨List.mem_cons_of_mem _ hrule, htrial⟩

end Tries

end Pass

end IdleGame
