import IdleGame.Proofs.Action.Balance
import IdleGame.Proofs.Entity.Restoration

/-!
# Loops over entities

A loop over a kind takes the ids that are listed under the kind when it starts, and gives each of
them its turn in the scope that the turns before have left. The body may remove entities that are
still to come, and create others of the kind; the first are passed over, the second are not in the
list. So whoever is visited was live when the loop started. That it was of the kind takes an index
that lists live entities under their own kind only.

## Main definitions

* `Turn` - a turn of a loop: whose it is, what it finds, and whether the body is run
* `Action.Takes` - what becomes of an entity whose turn has come
* `Action.Loops` - a loop goes through turns and comes to an outcome
* `Action.Traverses` - which entities the turns of a loop are for

## Main results

* `Action.exists_loops`, `Action.Loops.outcome_eq` - a loop goes through turns to its outcome
* `Action.Loops.traverses` - whom it visits and whom it passes over
* `Action.visits_own_kind_iff` - all of this, and when only entities of the kind are visited
-/

namespace IdleGame

variable {ρ : Type}

/-- A turn of a loop. -/
structure Turn (ρ : Type) where
  id : EntityId
  /-- What the turns before have left. -/
  found : Scope ρ
  /-- Whether the body is run, with the entity as its target. -/
  visited : Bool

namespace Action

variable [RandomSource ρ]

/-- A filter is false for an entity. -/
inductive Refuses (env : Surroundings) (id : EntityId) : Option Expr → Scope ρ → Scope ρ → Prop
  | intro {g v s s'} (h : s.eval env (some id) g = .ok (v, s')) (hv : ¬ v.isTruthy) :
      Refuses env id (some g) s s'

/-- What becomes of an entity whose turn has come. -/
inductive Takes (env : Surroundings) (filter : Option Expr) (body : List Action) (s : Scope ρ)
    (id : EntityId) : Bool → Except Fault (Scope ρ) → Prop
  | gone (hgone : ¬ s.world.population.contains id) : Takes env filter body s id false (.ok s)
  | refused {s'} (hlive : s.world.population.contains id) (h : Refuses env id filter s s') :
      Takes env filter body s id false (.ok s')
  | visited {s'} (hlive : s.world.population.contains id) (h : Admits env id filter s s') :
      Takes env filter body s id true (runAll env (some id) body s')

/-- A loop goes through turns and comes to an outcome. A fault ends it, in a turn if it comes from
the body, and before it is known whether there is one if it comes from the filter. -/
inductive Loops (env : Surroundings) (filter : Option Expr) (body : List Action) :
    List EntityId → Scope ρ → List (Turn ρ) → Except Fault (Scope ρ) → Prop
  | ended {s} : Loops env filter body [] s [] (.ok s)
  | next {id ids s visited s' turns r} (h : Takes env filter body s id visited (.ok s'))
      (rest : Loops env filter body ids s' turns r) :
      Loops env filter body (id :: ids) s (⟨id, s, visited⟩ :: turns) r
  | broken {id ids s visited f} (h : Takes env filter body s id visited (.error f)) :
      Loops env filter body (id :: ids) s [⟨id, s, visited⟩] (.error f)
  | undecided {id ids s g f} (hlive : s.world.population.contains id) (hfilter : filter = some g)
      (h : (s.evaluation env (some id) g).Faults f) :
      Loops env filter body (id :: ids) s [] (.error f)

/-- The turns of a loop over a kind are for the entities that are listed under it at the start, and
the body is run for those that are still there and pass the filter. -/
structure Traverses (env : Surroundings) (kind : String) (filter : Option Expr) (s : Scope ρ)
    (turns : List (Turn ρ)) (r : Except Fault (Scope ρ)) : Prop where
  /-- Nobody has two turns, and the turns come by increasing id. -/
  increasing : (turns.map Turn.id).Pairwise (·.number < ·.number)
  listed : turns.map Turn.id <+: s.world.population.idsOfKind kind
  /-- Every listed id has its turn unless a fault ends the loop. -/
  all : ∀ s', r = .ok s' → turns.map Turn.id = s.world.population.idsOfKind kind
  /-- So has every live entity of the kind. -/
  complete : ∀ s', r = .ok s' → ∀ e ∈ s.world.population.members, e.kind = kind →
    ∃ t ∈ turns, t.id = e.id
  /-- Who is visited was live at the start. -/
  live : ∀ t ∈ turns, t.visited → s.world.population.contains t.id
  passed : ∀ t ∈ turns, t.visited = false ↔
    ¬ t.found.world.population.contains t.id ∨ ∃ s', Refuses env t.id filter t.found s'
  /-- Nobody that has been created since the start has a turn. -/
  newcomers : ∀ s', (r = .ok s' ∨ ∃ t ∈ turns, s' = t.found) →
    ∃ spawned despawned, s.Balances spawned despawned s' ∧ ∀ t ∈ turns, t.id ∉ spawned

variable {env : Surroundings} {target : Option EntityId} {kind : String} {filter : Option Expr}
  {body : List Action} {s s' : Scope ρ} {id : EntityId} {ids : List EntityId} {visited : Bool}
  {turns : List (Turn ρ)} {r : Except Fault (Scope ρ)} {f : Fault}

/-! ## One turn -/

theorem Takes.visit_eq (h : Takes env filter body s id visited r) :
    visit env filter body s id = r := by
  cases h with
  | gone hgone => exact visit_gone hgone
  | refused hlive h =>
    obtain ⟨heval, hv⟩ := h
    rw [visit_filtered hlive, heval]
    exact if_neg hv
  | visited hlive h =>
    cases h with
    | unfiltered => exact visit_unfiltered hlive
    | filtered heval hv =>
      rw [visit_filtered hlive, heval]
      exact if_pos hv

/-- An entity whose turn has come is passed over or visited, unless its filter faults. -/
theorem exists_takes (env : Surroundings) (filter : Option Expr) (body : List Action) (s : Scope ρ)
    (id : EntityId) :
    (∃ visited, Takes env filter body s id visited (visit env filter body s id)) ∨
      s.world.population.contains id ∧
        ∃ g f, filter = some g ∧ (s.evaluation env (some id) g).Faults f := by
  by_cases hlive : s.world.population.contains id
  · rcases filter with _ | g
    · rw [visit_unfiltered hlive]
      exact .inl ⟨true, .visited hlive .unfiltered⟩
    · rcases heval : s.eval env (some id) g with f | ⟨v, s'⟩
      · exact .inr ⟨hlive, g, f, rfl, Scope.eval_eq_error_iff.mp heval⟩
      · rw [visit_filtered hlive, heval, Outcome.ok_bind]
        dsimp only
        split
        · exact .inl ⟨true, .visited hlive (.filtered heval ‹_›)⟩
        · exact .inl ⟨false, .refused hlive ⟨heval, ‹_›⟩⟩
  · rw [visit_gone hlive]
    exact .inl ⟨false, .gone hlive⟩

theorem Takes.passed_iff (h : Takes env filter body s id visited r) :
    visited = false ↔ ¬ s.world.population.contains id ∨ ∃ s', Refuses env id filter s s' := by
  cases h with
  | gone hgone => exact iff_of_true rfl (.inl hgone)
  | refused _ h => exact iff_of_true rfl (.inr ⟨_, h⟩)
  | visited hlive h =>
    refine iff_of_false Bool.noConfusion ?_
    rintro (hgone | ⟨s', ⟨heval, hv⟩⟩)
    · exact hgone hlive
    · cases h with
      | filtered heval' hv' =>
        obtain ⟨rfl, -⟩ := Prod.mk.inj (Except.ok.inj (heval'.symm.trans heval))
        exact hv hv'

theorem Takes.contains (h : Takes env filter body s id true r) :
    s.world.population.contains id := by
  cases h with
  | visited hlive => exact hlive

/-- What is reported in a turn accounts for the population. -/
theorem Takes.accounts (hs : s.world.population.IdsBelowNext)
    (h : Takes env filter body s id visited (.ok s')) : s.Accounts s' := by
  -- What is found out about the entity is the same for a loop over any kind.
  refine visit_preserves (motive := s.Accounts)
    (fun s₁ s₂ h₁ (hprepares : s₁.Prepares (.forEach "" filter body) s₂) => ?_)
    (fun s₁ s₂ h₁ hrun => ?_) (.refl s) h.visit_eq
  · exact h₁.trans hprepares.accounts hs
  · exact h₁.trans (runAll_accounts (h₁.idsBelowNext hs) hrun) hs

/-! ## All turns -/

/-- A loop goes through turns to its outcome. -/
theorem exists_loops (env : Surroundings) (filter : Option Expr) (body : List Action)
    (ids : List EntityId) (s : Scope ρ) :
    ∃ turns, Loops env filter body ids s turns (ids.foldlM (visit env filter body) s) := by
  -- The rest of the ids goes on from whatever the first turn leaves.
  induction ids generalizing s with
  | nil => exact ⟨[], .ended⟩
  | cons id ids ih =>
    rw [List.foldlM_cons]
    rcases exists_takes env filter body s id with ⟨visited, h⟩ | ⟨hlive, g, f, hfilter, hf⟩
    · rcases hvisit : visit env filter body s id with f | s'
      · rw [hvisit] at h
        exact ⟨_, .broken h⟩
      · rw [hvisit] at h
        obtain ⟨turns, rest⟩ := ih s'
        exact ⟨_, .next h rest⟩
    · have hvisit : visit env filter body s id = .error f :=
        visit_eq_error_iff.mpr ⟨hlive, .inl ⟨g, hfilter, hf⟩⟩
      rw [hvisit]
      exact ⟨[], .undecided hlive hfilter hf⟩

/-- The outcome that a loop comes to through turns is the one that it has. -/
theorem Loops.outcome_eq (h : Loops env filter body ids s turns r) :
    ids.foldlM (visit env filter body) s = r := by
  induction h with
  | ended => rfl
  | next h _ ih => rw [List.foldlM_cons, h.visit_eq, Outcome.ok_bind, ih]
  | broken h =>
    rw [List.foldlM_cons, h.visit_eq]
    rfl
  | undecided hlive hfilter h =>
    rw [List.foldlM_cons, visit_eq_error_iff.mpr ⟨hlive, .inl ⟨_, hfilter, h⟩⟩]
    rfl

theorem Loops.takes (h : Loops env filter body ids s turns r) :
    ∀ t ∈ turns, ∃ r, Takes env filter body t.found t.id t.visited r := by
  induction h with
  | ended | undecided => exact nofun
  | next h _ ih => exact List.forall_mem_cons.mpr ⟨⟨_, h⟩, ih⟩
  | broken h => exact List.forall_mem_singleton.mpr ⟨_, h⟩

/-- Ids have their turns in order, and all have one if no fault ends the loop. -/
theorem Loops.ids_eq (h : Loops env filter body ids s turns r) :
    turns.map Turn.id <+: ids ∧ ∀ s', r = .ok s' → turns.map Turn.id = ids := by
  induction h with
  | ended => exact ⟨List.prefix_rfl, fun _ _ => rfl⟩
  | next _ _ ih =>
    refine ⟨(List.prefix_cons_inj _).mpr ih.1, fun s' hr => ?_⟩
    exact congrArg (_ :: ·) (ih.2 s' hr)
  | broken => exact ⟨⟨_, rfl⟩, nofun⟩
  | undecided => exact ⟨List.nil_prefix, nofun⟩

/-- The account goes on from turn to turn. -/
theorem Loops.accounts_found (hs : s.world.population.IdsBelowNext)
    (h : Loops env filter body ids s turns r) : ∀ t ∈ turns, s.Accounts t.found := by
  induction h with
  | ended | undecided => exact nofun
  | @next _ _ s _ _ _ _ h _ ih =>
    have hfirst := h.accounts hs
    refine List.forall_mem_cons.mpr ⟨.refl s, fun t ht => ?_⟩
    exact hfirst.trans (ih (hfirst.idsBelowNext hs) t ht) hs
  | @broken _ _ s => exact List.forall_mem_singleton.mpr (.refl s)

/-- The account goes on to the end of a loop. -/
theorem Loops.accounts_end (hs : s.world.population.IdsBelowNext)
    (h : Loops env filter body ids s turns (.ok s')) : s.Accounts s' := by
  generalize hr : (.ok s' : Except Fault (Scope ρ)) = r at h
  induction h with
  | ended =>
    obtain rfl := Except.ok.inj hr
    exact .refl _
  | next h _ ih =>
    have hfirst := h.accounts hs
    exact hfirst.trans (ih (hfirst.idsBelowNext hs) hr) hs
  | broken | undecided => cases hr

/-- A loop over a kind visits, of the entities listed under the kind, those that are still there
and pass the filter. -/
theorem Loops.traverses (hs : s.world.population.Arises)
    (h : Loops env filter body (s.world.population.idsOfKind kind) s turns r) :
    Traverses env kind filter s turns r := by
  have hbelow := hs.idsBelowNext
  obtain ⟨hturns, hall⟩ := h.ids_eq
  -- A listed id has been handed out by the start, so it is none of those that are new later.
  have hold : ∀ t ∈ turns, t.id.number < s.world.population.next := fun t ht =>
    hs.listed.below kind t.id (hturns.subset (List.mem_map_of_mem ht))
  refine ⟨?increasing, hturns, hall, ?complete, ?live, ?passed, ?newcomers⟩
  case increasing => exact (hs.listed.increasing kind).sublist hturns.sublist
  case complete =>
    intro s' hr e he hkind
    have hlisted := hkind ▸ hs.listed.complete e he
    rw [← hall s' hr] at hlisted
    obtain ⟨t, ht, hid⟩ := List.mem_map.mp hlisted
    exact ⟨t, ht, hid⟩
  case live =>
    intro t ht hvisited
    obtain ⟨_, htakes⟩ := h.takes t ht
    rw [hvisited] at htakes
    -- Who is live by then was live at the start or is new, and the new ones are not listed.
    obtain ⟨spawned, despawned, hbalances⟩ := h.accounts_found hbelow t ht
    have hlive := ((hbalances.population.live t.id).mp htakes.contains).1
    exact hlive.resolve_right (hbalances.population.not_mem_spawned (hold t ht))
  case passed =>
    intro t ht
    obtain ⟨_, htakes⟩ := h.takes t ht
    exact htakes.passed_iff
  case newcomers =>
    intro s' hs'
    have haccounts : s.Accounts s' := by
      rcases hs' with rfl | ⟨t, ht, rfl⟩
      · exact h.accounts_end hbelow
      · exact h.accounts_found hbelow t ht
    obtain ⟨spawned, despawned, hbalances⟩ := haccounts
    exact ⟨spawned, despawned, hbalances, fun t ht =>
      hbalances.population.not_mem_spawned (hold t ht)⟩

/-- Without a filter and a body everybody is visited who is listed and live. -/
theorem loops_idle (env : Surroundings) (ids : List EntityId) (s : Scope ρ) :
    Loops env none [] ids s (ids.map fun id => ⟨id, s, s.world.population.contains id⟩)
      (.ok s) := by
  induction ids with
  | nil => exact .ended
  | cons id ids ih =>
    refine .next ?_ ih
    by_cases hlive : s.world.population.contains id
    · rw [hlive]
      exact .visited hlive .unfiltered
    · rw [Bool.eq_false_iff.mpr hlive]
      exact .gone hlive

/-- A loop over a kind goes through turns to its outcome, and what it goes through is right for
every population that can arise, whatever filter and body there are: the turns come by increasing
id; whoever is visited was live at the start, a listed entity is passed over exactly when it is gone
or its filter is false by then, and nobody is visited who has been created since. Only entities of
the kind are visited, in all loops over the kind, exactly when no other live entity is listed under
it at the start. -/
theorem visits_own_kind_iff (s : Scope ρ) (hs : s.world.population.Arises) (kind : String) :
    (∀ env target filter body,
      (∃ turns, Loops env filter body (s.world.population.idsOfKind kind) s turns
        (run env target (.forEach kind filter body) s)) ∧
      ∀ turns r, Loops env filter body (s.world.population.idsOfKind kind) s turns r →
        run env target (.forEach kind filter body) s = r ∧ Traverses env kind filter s turns r) ∧
    ((∀ env filter body turns r,
        Loops env filter body (s.world.population.idsOfKind kind) s turns r →
        ∀ t ∈ turns, t.visited → ∃ e, s.world.population.get? t.id = some e ∧ e.kind = kind) ↔
      s.world.population.ListsOnly kind) := by
  refine ⟨fun env target filter body => ⟨?_, fun turns r h => ?_⟩, fun hkind => ?_,
    fun hlists => ?_⟩
  · rw [run_forEach]
    exact exists_loops env filter body _ s
  · rw [run_forEach]
    exact ⟨h.outcome_eq, h.traverses hs⟩
  · -- The loop that does nothing visits everybody who is listed and live.
    intro id hid e hget
    have hidle := loops_idle .empty (s.world.population.idsOfKind kind) s
    obtain ⟨e', hget', hkind'⟩ := hkind _ _ _ _ _ hidle _ (List.mem_map_of_mem hid)
      (Population.contains_iff.mpr ⟨e, hget⟩)
    obtain rfl := Option.some.inj (hget.symm.trans hget')
    exact hkind'
  · intro env filter body turns r h t ht hvisited
    have htraverses := h.traverses hs
    obtain ⟨e, hget⟩ := Population.contains_iff.mp (htraverses.live t ht hvisited)
    exact ⟨e, hget, hlists t.id (htraverses.listed.subset (List.mem_map_of_mem ht)) e hget⟩

/-- The cards of the fairground make room for others, and these have no turn. -/
theorem fairground_visits_cards :
    fairground.population.Arises ∧ fairground.population.ListsOnly "card" ∧
    ∃ turns s', run .empty none
        (.forEach "card" none [.spawn "card" [], .despawn]) ⟨fairground, Effects.none⟩ = .ok s' ∧
      turns.map Turn.id = [⟨3⟩, ⟨5⟩] ∧
      s'.world.population.idsOfKind "card" = [⟨6⟩, ⟨7⟩] ∧
      Traverses .empty "card" none ⟨fairground, Effects.none⟩ turns (.ok s') ∧
      ∀ t ∈ turns, t.visited → ∃ e, fairground.population.get? t.id = some e ∧ e.kind = "card" := by
  have harises : fairground.population.Arises := .restored Population.stalls 1
  have hlists : fairground.population.ListsOnly "card" :=
    Population.listsOnly_restore_iff.mpr (by decide) "card"
  obtain ⟨hloops, hkind⟩ := visits_own_kind_iff ⟨fairground, Effects.none⟩ harises "card"
  obtain ⟨⟨turns, h⟩, htraverses⟩ := hloops .empty none none
    [.spawn "card" [], .despawn]
  obtain ⟨s', hrun, hcards⟩ : ∃ s', run .empty none
      (.forEach "card" none [.spawn "card" [], .despawn]) ⟨fairground, Effects.none⟩ = .ok s' ∧
      s'.world.population.idsOfKind "card" = [⟨6⟩, ⟨7⟩] := ⟨_, rfl, rfl⟩
  rw [hrun] at h
  have hturns := (htraverses turns _ h).2
  exact ⟨harises, hlists, turns, s', hrun, hturns.all s' rfl, hcards, hturns,
    hkind.mpr hlists _ _ _ turns _ h⟩

/-- A world restored from a save that lists its stall as a card before. -/
def relabelledFair : World Script :=
  ⟨Table.empty, Population.restore Population.relabelled 1, MessageLog.ofCapacity 0, Clock.start,
    ⟨[], 0⟩⟩

/-- A loop over the cards visits the stall, which is all that is there. -/
theorem relabelledFair_visits_stall :
    relabelledFair.population.members = [⟨⟨0⟩, "stall", Table.empty⟩] ∧
    ∃ (turns : List (Turn Script)) (r : Except Fault (Scope Script)),
      Loops .empty none []
        (relabelledFair.population.idsOfKind "card") ⟨relabelledFair, Effects.none⟩ turns r ∧
      ∃ t ∈ turns, t.visited ∧
        relabelledFair.population.get? t.id = some ⟨⟨0⟩, "stall", Table.empty⟩ :=
  ⟨rfl, _, _, loops_idle _ _ _, _, List.mem_singleton_self _, rfl, rfl⟩

end Action

end IdleGame
