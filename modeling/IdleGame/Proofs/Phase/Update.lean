import IdleGame.Phase.Current
import IdleGame.Proofs.Game.Authored

/-!
# What looking for the current phase evaluates and changes

## Main definitions

* `Phase.Asks` - the search for the first phase whose trigger holds comes to an evaluation
* `Phase.Evaluates` - an update of the phase comes to an evaluation

## Main results

* `Phase.update_error_iff` - an update faults exactly when it comes to an evaluation that does
* `Phase.update_changes` - an update changes the world as the game may
-/

namespace IdleGame.Phase

variable {ρ : Type} [RandomSource ρ]

/-- The search for the first phase whose trigger holds comes to an evaluation. -/
inductive Asks (env : Surroundings) : List Phase → Scope ρ → Evaluation ρ → Prop
  | trigger {p ps s} : Asks env (p :: ps) s (s.evaluation env none p.trigger)
  | later {p ps s v s' ev} (h : s.eval env none p.trigger = .ok (v, s')) (hno : ¬ v.isTruthy)
      (hlater : Asks env ps s' ev) : Asks env (p :: ps) s ev

/-- An update of the phase comes to an evaluation, of a trigger or in the entry actions of the
phase that is entered. -/
inductive Evaluates (env : Surroundings) (phases : List Phase) (current : Option String)
    (s : Scope ρ) : Evaluation ρ → Prop
  | trigger {ev} (h : Asks env phases s ev) : Evaluates env phases current s ev
  | entry {p s' ev} (h : firstHolding env phases s = .ok (some p, s'))
      (hnew : some p.id ≠ current) (hev : Action.Evaluates env none p.onEnter s' ev) :
      Evaluates env phases current s ev

variable {env : Surroundings} {phases : List Phase} {current : Option String} {s s' : Scope ρ}
  {ev : Evaluation ρ} {f : Fault} {g : Game}

theorem firstHolding_error_iff :
    firstHolding env phases s = .error f ↔ ∃ ev, Asks env phases s ev ∧ ev.Faults f := by
  constructor
  · intro h
    induction phases generalizing s with
    | nil => cases h
    | cons p ps ih =>
      rw [firstHolding] at h
      rcases Outcome.bind_eq_error_iff.mp h with h | ⟨⟨v, s'⟩, hv, h⟩
      · exact ⟨_, .trigger, Scope.eval_eq_error_iff.mp h⟩
      · dsimp only at h
        split at h
        · cases h
        · obtain ⟨ev, hlater, hf⟩ := ih h
          exact ⟨ev, .later hv ‹_› hlater, hf⟩
  · rintro ⟨ev, h, hf⟩
    induction h with
    | trigger =>
      rw [firstHolding, Scope.eval_eq_error_iff.mpr hf]
      rfl
    | later h hno _ ih =>
      rw [firstHolding, h]
      exact (if_neg hno).trans (ih hf)

theorem firstHolding_ok {p : Option Phase} (h : firstHolding env phases s = .ok (p, s')) :
    (∀ q, p = some q → q ∈ phases) ∧ ∀ W, s.world.Changes W s'.world := by
  induction phases generalizing s with
  | nil =>
    obtain ⟨rfl, rfl⟩ := Prod.mk.inj (Except.ok.inj h)
    exact ⟨nofun, fun _ => .refl _⟩
  | cons q qs ih =>
    rw [firstHolding] at h
    obtain ⟨⟨v, s₁⟩, hv, h⟩ := Outcome.bind_eq_ok_iff.mp h
    dsimp only at h
    split at h
    · obtain ⟨rfl, rfl⟩ := Prod.mk.inj (Except.ok.inj h)
      refine ⟨?_, fun _ => Scope.eval_changes hv⟩
      rintro q' ⟨⟩
      exact List.mem_cons_self
    · obtain ⟨hmem, hchanges⟩ := ih h
      exact ⟨fun q' hq => List.mem_cons_of_mem _ (hmem q' hq),
        fun W => (Scope.eval_changes hv).trans (hchanges W)⟩

/-- The phase that an update enters, if there is one. -/
def entered? (candidate : Option Phase) (current : Option String) : Option Phase :=
  if candidate.map Phase.id = current then none else candidate

theorem update_eq :
    update env phases current s =
      firstHolding env phases s >>= fun (candidate, s') =>
        match entered? candidate current with
        | some p => Action.runAll env none p.onEnter s' >>= fun s'' =>
            .ok ⟨some p.id, some p.id, s''⟩
        | none => .ok ⟨candidate.map Phase.id, none, s'⟩ := by
  unfold update
  rcases firstHolding env phases s with _ | ⟨candidate, s'⟩
  · rfl
  · simp only [Outcome.ok_bind, entered?]
    rcases candidate with _ | p
    · split <;> simp_all
    · split <;> simp_all [Except.bind, bind]

theorem entered?_eq_some_iff {candidate : Option Phase} {p : Phase} :
    entered? candidate current = some p ↔ candidate = some p ∧ some p.id ≠ current := by
  unfold entered?
  split <;> grind

/-- An update of the phase faults exactly when it comes to an evaluation that does. -/
theorem update_error_iff :
    update env phases current s = .error f ↔
      ∃ ev, Evaluates env phases current s ev ∧ ev.Faults f := by
  rw [update_eq, Outcome.bind_eq_error_iff, firstHolding_error_iff]
  constructor
  · rintro (⟨ev, hev, hf⟩ | ⟨⟨candidate, s'⟩, hfirst, h⟩)
    · exact ⟨ev, .trigger hev, hf⟩
    -- Entry actions are run only when the phase is a new one.
    · dsimp only at h
      split at h
      · rename_i p hentered
        obtain ⟨rfl, hnew⟩ := entered?_eq_some_iff.mp hentered
        rcases Outcome.bind_eq_error_iff.mp h with h | ⟨_, _, h⟩
        · obtain ⟨ev, hev, hf⟩ := Action.runAll_error_iff.mp h
          exact ⟨ev, .entry hfirst hnew hev, hf⟩
        · cases h
      · cases h
  · rintro ⟨ev, hev | ⟨hfirst, hnew, hev⟩, hf⟩
    · exact .inl ⟨ev, hev, hf⟩
    · refine .inr ⟨_, hfirst, ?_⟩
      simp only [entered?_eq_some_iff.mpr ⟨rfl, hnew⟩]
      rw [Action.runAll_error_iff.mpr ⟨ev, hev, hf⟩]
      rfl

/-- An update changes the world as the entry actions of its phases do. -/
theorem update_changes_of_actions {W : String → Value → Prop}
    (hactions : ∀ p ∈ phases, ∀ s s' : Scope ρ,
      Action.runAll env none p.onEnter s = .ok s' → s.world.Changes W s'.world)
    {u : Update ρ} (h : update env phases current s = .ok u) :
    s.world.Changes W u.scope.world := by
  rw [update_eq] at h
  obtain ⟨⟨candidate, s'⟩, hfirst, h⟩ := Outcome.bind_eq_ok_iff.mp h
  obtain ⟨hmem, hchanges⟩ := firstHolding_ok hfirst
  dsimp only at h
  split at h
  · rename_i p hentered
    obtain ⟨rfl, -⟩ := entered?_eq_some_iff.mp hentered
    obtain ⟨s'', hs, h⟩ := Outcome.bind_eq_ok_iff.mp h
    obtain rfl := Except.ok.inj h
    exact (hchanges W).trans (hactions p (hmem p rfl) s' s'' hs)
  · obtain rfl := Except.ok.inj h
    exact hchanges W

/-- An update among phases of a game changes the world as the game may. -/
theorem update_changes (hphases : phases ⊆ g.phases) (hkinds : env.kinds = g.kinds)
    {u : Update ρ} (h : update env phases current s = .ok u) :
    s.world.Changes g.Writes u.scope.world :=
  update_changes_of_actions
    (fun _ hp _ _ hs => (Game.Lists.entry (hphases hp)).changes hkinds hs) h

theorem Asks.reads (h : Asks env phases s ev) (hphases : phases ⊆ g.phases) :
    g.Reads s.world ev := by
  induction h with
  | trigger => exact (Game.Authors.phase (List.cons_subset.mp hphases).1).reads
  | later h _ _ ih => exact (ih (List.cons_subset.mp hphases).2).after (Scope.eval_changes h)

/-- What an update among phases of a game evaluates is authored in the game. -/
theorem Evaluates.reads (h : Evaluates env phases current s ev) (hphases : phases ⊆ g.phases)
    (hkinds : env.kinds = g.kinds) : g.Reads s.world ev := by
  rcases h with hev | ⟨hfirst, -, hev⟩
  · exact hev.reads hphases
  · obtain ⟨hmem, hchanges⟩ := firstHolding_ok hfirst
    exact ((Game.Lists.entry (hphases (hmem _ rfl))).reads hkinds hev).after (hchanges _)

end IdleGame.Phase
