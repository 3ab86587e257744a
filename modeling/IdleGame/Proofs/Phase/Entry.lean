import IdleGame.Proofs.Phase.Update
import Mathlib.Data.List.Nodup

/-!
# Which phase is found, and when it is entered

The current phase is the first one whose trigger holds. Triggers are asked in the order in which the
phases are declared, and one that draws random numbers draws on from where the one before it has
left the random source. A phase is entered when it becomes the current one.

## Main definitions

* `Phase.NoneHolds` - no phase has a trigger that holds
* `Phase.IsFirst` - a phase is the first one whose trigger holds, or there is none
* `Phase.entrants` - the phases that are entered while the current phase changes
* `Phase.enterAll` - runs the entry actions of phases
* `Phase.updateNoting` - an update that notes which phases it runs the entry actions of

## Main results

* `Phase.firstHolding_eq_ok_iff` - the search finds the first phase whose trigger holds
* `Phase.updateNoting_ok` - an update runs the entry actions of a phase when that becomes the
  current one, and runs no others
-/

namespace IdleGame

variable {ρ : Type}

/-- The scope with the random source at another place. -/
def Scope.drawnTo (s : Scope ρ) (random : ρ) : Scope ρ :=
  { s with world := { s.world with random } }

namespace Phase

/-- The phases that are entered while the current phase changes from one to another. -/
def entrants (phases : List Phase) (before after : Option String) : List Phase :=
  phases.filter fun p => after = some p.id ∧ before ≠ some p.id

variable [RandomSource ρ]

/-- No phase has a trigger that holds in a view, when they are asked one after the other. -/
inductive NoneHolds (view : View) : List Phase → ρ → ρ → Prop
  | nil {r} : NoneHolds view [] r r
  | cons {p ps r r' r''} (h : p.trigger.test view r = (.ok false, r'))
      (hlater : NoneHolds view ps r' r'') : NoneHolds view (p :: ps) r r''

/-- A phase is the first one whose trigger holds in a view, or there is none. -/
def IsFirst (view : View) (phases : List Phase) (r : ρ) : Option Phase → ρ → Prop
  | some p, r' => ∃ before after r₁, phases = before ++ p :: after ∧ NoneHolds view before r r₁ ∧
      p.trigger.test view r₁ = (.ok true, r')
  | none, r' => NoneHolds view phases r r'

/-- Runs the entry actions of phases. -/
def enterAll (env : Surroundings) (phases : List Phase) (s : Scope ρ) : Except Fault (Scope ρ) :=
  phases.foldlM (fun s p => Action.runAll env none p.onEnter s) s

/-- An update that notes which phases it runs the entry actions of. -/
def updateNoting (env : Surroundings) (phases : List Phase) (current : Option String)
    (s : Scope ρ) : Except Fault (List Phase × Update ρ) := do
  let (candidate, s) ← firstHolding env phases s
  if candidate.map Phase.id = current then return ([], ⟨current, none, s⟩)
  else
    match candidate with
    | some p =>
      let s ← Action.runAll env none p.onEnter s
      return ([p], ⟨some p.id, some p.id, s⟩)
    | none => return ([], ⟨none, none, s⟩)

variable {env : Surroundings} {p : Phase} {ps phases entries : List Phase}
  {before after : Option String} {s s' : Scope ρ} {u : Update ρ}

/-! ## The search -/

/-- The search stops at a phase whose trigger holds, and goes on behind one whose does not. -/
theorem firstHolding_cons {holds : Bool} {r : ρ}
    (h : p.trigger.test (s.world.view env.params none) s.world.random = (.ok holds, r)) :
    firstHolding env (p :: ps) s =
      if holds then .ok (some p, s.drawnTo r) else firstHolding env ps (s.drawnTo r) := by
  obtain ⟨v, hv, rfl⟩ := Draws.map_ok_iff.mp h
  have heval : s.eval env none p.trigger = .ok (v, s.drawnTo r) := by
    rw [Scope.eval, Scope.draw, World.draw_eq_ok_iff.mpr ⟨r, hv, rfl⟩]
    rfl
  rw [firstHolding, heval]
  rfl

/-- When the search comes to its end, the first trigger has a value. -/
theorem test_of_firstHolding {found : Option Phase}
    (h : firstHolding env (p :: ps) s = .ok (found, s')) :
    ∃ holds r, p.trigger.test (s.world.view env.params none) s.world.random = (.ok holds, r) := by
  rw [firstHolding] at h
  obtain ⟨⟨v, s₁⟩, heval, -⟩ := Outcome.bind_eq_ok_iff.mp h
  obtain ⟨⟨v', w⟩, hdraw, -⟩ := Outcome.bind_eq_ok_iff.mp heval
  obtain ⟨r, hv, -⟩ := World.draw_eq_ok_iff.mp hdraw
  exact ⟨_, r, Draws.map_ok_iff.mpr ⟨v', hv, rfl⟩⟩

/-- The search passes over phases whose triggers do not hold. -/
theorem firstHolding_append {r : ρ}
    (h : NoneHolds (s.world.view env.params none) ps s.world.random r) :
    firstHolding env (ps ++ phases) s = firstHolding env phases (s.drawnTo r) := by
  induction ps generalizing s with
  | nil =>
    cases h
    rfl
  | cons p ps ih =>
    cases h with
    | cons hno hlater =>
      rw [List.cons_append, firstHolding_cons hno, if_neg Bool.false_ne_true]
      exact ih hlater

/-- What is found in the rest of the phases is the first one if the trigger of the one before them
does not hold. -/
theorem IsFirst.cons {view : View} {r r' r'' : ρ} {found : Option Phase}
    (hno : p.trigger.test view r = (.ok false, r')) (h : IsFirst view ps r' found r'') :
    IsFirst view (p :: ps) r found r'' := by
  rcases found with _ | q
  · exact NoneHolds.cons hno h
  · obtain ⟨before, after, r₁, rfl, hbefore, hholds⟩ := h
    exact ⟨p :: before, after, r₁, rfl, .cons hno hbefore, hholds⟩

/-- The search finds the first phase whose trigger holds, if there is one, and only draws random
numbers. -/
theorem firstHolding_eq_ok_iff {found : Option Phase} :
    firstHolding env phases s = .ok (found, s') ↔
      ∃ r, IsFirst (s.world.view env.params none) phases s.world.random found r ∧
        s' = s.drawnTo r := by
  constructor
  · intro h
    induction phases generalizing s with
    | nil =>
      obtain ⟨rfl, rfl⟩ := Prod.mk.inj (Except.ok.inj h)
      exact ⟨_, .nil, rfl⟩
    | cons p ps ih =>
      obtain ⟨holds, r, htest⟩ := test_of_firstHolding h
      rw [firstHolding_cons htest] at h
      cases holds with
      | true =>
        obtain ⟨rfl, rfl⟩ := Prod.mk.inj (Except.ok.inj h)
        exact ⟨r, ⟨[], ps, _, rfl, .nil, htest⟩, rfl⟩
      | false =>
        obtain ⟨r', hfirst, rfl⟩ := ih h
        exact ⟨r', hfirst.cons htest, rfl⟩
  · rintro ⟨r, hfirst, rfl⟩
    rcases found with _ | p
    · have hall : firstHolding env (phases ++ []) s = firstHolding env [] (s.drawnTo r) :=
        firstHolding_append hfirst
      rwa [List.append_nil] at hall
    · obtain ⟨before, after, r₁, rfl, hbefore, hholds⟩ := hfirst
      rw [firstHolding_append hbefore, firstHolding_cons (s := s.drawnTo r₁) hholds, if_pos rfl]
      rfl

/-! ## Entry actions -/

theorem entrants_self {current : Option String} : entrants phases current current = [] := by
  refine List.filter_eq_nil_iff.mpr fun p _ => ?_
  simp

theorem entrants_none : entrants phases before none = [] := by
  refine List.filter_eq_nil_iff.mpr fun p _ => ?_
  simp

/-- Among phases with different ids one phase is entered. -/
theorem entrants_of_mem (hids : (phases.map Phase.id).Nodup) (hp : p ∈ phases)
    (hnew : before ≠ some p.id) : entrants phases before (some p.id) = [p] := by
  -- No phase before or behind it has its id.
  obtain ⟨front, back, rfl⟩ := List.append_of_mem hp
  rw [List.map_append, List.map_cons, List.nodup_middle, List.nodup_cons] at hids
  have hothers (q : Phase) (hq : q ∈ front ++ back) : p.id ≠ q.id := by
    intro heq
    have hmem : q.id ∈ (front ++ back).map Phase.id := List.mem_map_of_mem hq
    rw [List.map_append] at hmem
    exact hids.1 (heq ▸ hmem)
  have hfront : entrants front before (some p.id) = [] :=
    List.filter_eq_nil_iff.mpr fun q hq => by simp [hothers q (List.mem_append_left _ hq)]
  have hback : entrants back before (some p.id) = [] :=
    List.filter_eq_nil_iff.mpr fun q hq => by simp [hothers q (List.mem_append_right _ hq)]
  unfold entrants at hfront hback ⊢
  rw [List.filter_append, hfront, List.filter_cons_of_pos (by simpa using hnew), hback]
  rfl

/-- A phase is entered once when it becomes the current one, and else not at all. -/
theorem countP_entrants (hids : (phases.map Phase.id).Nodup) (hp : p ∈ phases) :
    (entrants phases before after).countP (·.id = p.id) =
      if after = some p.id ∧ before ≠ some p.id then 1 else 0 := by
  by_cases henters : after = some p.id ∧ before ≠ some p.id
  · obtain ⟨rfl, hnew⟩ := henters
    rw [entrants_of_mem hids hp hnew, if_pos ⟨rfl, hnew⟩]
    simp
  · rw [if_neg henters, List.countP_eq_zero]
    intro q hq hid
    have hentered := of_decide_eq_true (List.mem_filter.mp hq).2
    rw [of_decide_eq_true hid] at hentered
    exact henters hentered

/-- Without its notes, an update that notes is an update. -/
theorem update_eq_updateNoting {current : Option String} :
    update env phases current s = (updateNoting env phases current s).map Prod.snd := by
  unfold update updateNoting
  rcases firstHolding env phases s with f | ⟨candidate, s₁⟩
  · rfl
  · simp only [Outcome.ok_bind]
    by_cases hstays : candidate.map Phase.id = current
    · rw [if_pos hstays, if_pos hstays]
      rfl
    · rw [if_neg hstays, if_neg hstays]
      rcases candidate with _ | p
      · rfl
      · dsimp only
        rcases Action.runAll env none p.onEnter s₁ with f | s₂ <;> rfl

/-- An update that comes to its end comes to the same end when it notes. -/
theorem updateNoting_of_update {current : Option String}
    (h : update env phases current s = .ok u) :
    ∃ entries, updateNoting env phases current s = .ok (entries, u) := by
  rw [update_eq_updateNoting] at h
  rcases hnoting : updateNoting env phases current s with f | ⟨entries, u'⟩
  · rw [hnoting] at h
    cases h
  · rw [hnoting] at h
    obtain rfl := Except.ok.inj h
    exact ⟨entries, rfl⟩

/-- An update makes the first phase whose trigger holds the current one, or none if none does. It
runs the entry actions of that phase if it has not been the current one, and runs no others. -/
theorem updateNoting_ok {current : Option String} (hids : (phases.map Phase.id).Nodup)
    (h : updateNoting env phases current s = .ok (entries, u)) :
    ∃ found r, IsFirst (s.world.view env.params none) phases s.world.random found r ∧
      u.current = found.map Phase.id ∧ entries = entrants phases current u.current ∧
      enterAll env entries (s.drawnTo r) = .ok u.scope ∧
      u.entered = entries.head?.map Phase.id := by
  obtain ⟨⟨candidate, s₁⟩, hfirst, h⟩ := Outcome.bind_eq_ok_iff.mp h
  have hmem := (firstHolding_ok hfirst).1
  obtain ⟨r, hfound, rfl⟩ := firstHolding_eq_ok_iff.mp hfirst
  refine ⟨candidate, r, hfound, ?_⟩
  dsimp only at h
  by_cases hstays : candidate.map Phase.id = current
  · rw [if_pos hstays] at h
    obtain ⟨rfl, rfl⟩ := Prod.mk.inj (Except.ok.inj h)
    exact ⟨hstays.symm, entrants_self.symm, rfl, rfl⟩
  · rw [if_neg hstays] at h
    rcases candidate with _ | p
    · obtain ⟨rfl, rfl⟩ := Prod.mk.inj (Except.ok.inj h)
      exact ⟨rfl, entrants_none.symm, rfl, rfl⟩
    · obtain ⟨s₂, hrun, h⟩ := Outcome.bind_eq_ok_iff.mp h
      obtain ⟨rfl, rfl⟩ := Prod.mk.inj (Except.ok.inj h)
      refine ⟨rfl, (entrants_of_mem hids (hmem p rfl) (Ne.symm hstays)).symm, ?_, rfl⟩
      rw [enterAll, List.foldlM_cons, hrun]
      rfl

end Phase

end IdleGame
