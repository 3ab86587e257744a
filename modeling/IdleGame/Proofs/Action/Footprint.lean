import IdleGame.Proofs.Action.Loop

/-!
# What actions leave alone

What a list of actions can touch is read off its actions at all depths: the variables that they
write, the kinds that they loop over, and whether they draw. Entities come to be targets in loops
only, so an entity that is listed under no kind looped over stays as it is. An entity of another
kind is such an entity where the index lists live entities under their own kind only.

## Main definitions

* `Action.loopedKinds` - the kinds that a list of actions loops over
* `Population.Apart` - an entity is live, and listed under none of some kinds
* `Action.Footprint` - what a list of actions leaves alone

## Main results

* `Action.runAll_apart` - an entity apart from the kinds looped over is left alone
* `Action.runAll_footprint` - a run of actions keeps to its footprint
* `Action.leaves_other_kinds_iff` - all of this, and when all entities of other kinds are left alone
-/

namespace IdleGame

variable {ρ : Type}

namespace Population

/-- An entity is live, with an id that has been handed out, and is listed under none of some
kinds. -/
structure Apart (p : Population) (kinds : List String) (e : Entity) : Prop where
  live : p.get? e.id = some e
  below : e.id.number < p.next
  unlisted : ∀ kind ∈ kinds, e.id ∉ p.idsOfKind kind

namespace Apart

variable {p : Population} {kinds : List String} {e : Entity} {id : EntityId}
  {f : Entity → Entity}

theorem spawn (h : p.Apart kinds e) (kind : String) (properties : Values) :
    (p.spawn kind properties).2.Apart kinds e where
  live := by
    have hid : (⟨p.next⟩ : EntityId) ≠ e.id := fun heq =>
      Nat.ne_of_gt h.below (congrArg EntityId.number heq)
    rw [get?_spawn, if_neg hid, h.live]
  below := Nat.lt_succ_of_lt h.below
  unlisted kind' hkind' hlisted := by
    rw [idsOfKind_spawn] at hlisted
    split at hlisted
    -- The only id that comes to be listed is the next one.
    · rcases mem_insertId.mp hlisted with hid | hlisted
      · exact Nat.ne_of_lt h.below (congrArg EntityId.number hid)
      · exact h.unlisted kind' hkind' hlisted
    · exact h.unlisted kind' hkind' hlisted

theorem remove (h : p.Apart kinds e) (hid : id ≠ e.id) : (p.remove id).2.Apart kinds e where
  live := by rw [get?_remove, if_neg hid, h.live]
  below := by
    rw [next_remove]
    exact h.below
  unlisted kind hkind hlisted :=
    h.unlisted kind hkind (idsOfKind_remove_sublist.subset hlisted)

theorem modify (h : p.Apart kinds e) (hid : id ≠ e.id) (hf : ∀ e, (f e).id = e.id) :
    (p.modify id f).Apart kinds e where
  live := by rw [get?_modify hf, if_neg hid, h.live]
  below := h.below
  unlisted := h.unlisted

end Apart

end Population

namespace Action

/-- The kinds that a list of actions loops over, at any depth. -/
def loopedKinds (as : List Action) : List String := (nodesOfAll as).filterMap looped?

variable [RandomSource ρ] {env : Surroundings} {as : List Action} {s s' : Scope ρ} {e : Entity}

/-- An entity apart from the kinds that are looped over is left alone. -/
theorem runAll_apart (he : s.world.population.Apart (loopedKinds as) e)
    (h : runAll env none as s = .ok s') : s'.world.population.Apart (loopedKinds as) e := by
  -- The invariant is that the entity stays unlisted, so that it is never the target.
  refine runAll_preserves (T := (· ≠ some e.id))
    (motive := fun s => s.world.population.Apart (loopedKinds as) e) ?_ ?_ ?_ ?_ he h
  · rintro _ - s₁ s₂ he ⟨⟩
    exact he
  · rintro target htarget s₁ s₂ he hacts
    cases hacts with
    | idle | written | logged | reported => exact he
    | spawned kind properties => exact he.spawn kind properties
    | modified hid hf => exact he.modify (fun heq => htarget (heq ▸ hid)) hf
    | removed hid _ => exact he.remove fun heq => htarget (heq ▸ hid)
  · -- A target is listed under a kind that is looped over, so it is another entity.
    rintro b hb kind hlooped s₁ he id hid htarget
    obtain rfl := Option.some.inj htarget
    exact he.unlisted kind (List.mem_filterMap.mpr ⟨b, hb, hlooped⟩) hid
  · exact nofun

/-- A list of silent actions draws nothing. -/
theorem runAll_random_eq {target : Option EntityId} (hsilent : ∀ b ∈ nodesOfAll as, b.IsSilent)
    (h : runAll env target as s = .ok s') : s'.world.random = s.world.random := by
  refine runAll_preserves (T := fun _ => True)
    (motive := fun s' => s'.world.random = s.world.random) ?_ ?_
    (fun _ _ _ _ _ _ _ _ => trivial) trivial rfl h
  · rintro b hb s₁ s₂ hs ⟨r, hr⟩
    exact (hr (hsilent b hb)).trans hs
  · rintro _ - s₁ s₂ hs hacts
    cases hacts <;> exact hs

/-- Variables stay and keep their places; others come after them. -/
theorem runAll_prefix_keys {target : Option EntityId} (h : runAll env target as s = .ok s') :
    s.world.state.keys <+: s'.world.state.keys := by
  refine (runAll_changes h).preserve (motive := fun w => s.world.state.keys <+: w.state.keys)
    ?_ List.prefix_rfl
  intro w w' hchange hw
  cases hchange with
  | written => exact hw.trans Table.prefix_keys_insert
  | _ => exact hw

/-- What a list of actions leaves alone between two worlds. -/
structure Footprint (as : List Action) (w w' : World ρ) : Prop where
  /-- A variable that no action writes has the value that it had. -/
  value : ∀ x, Avoids x as → w'.state.get? x = w.state.get? x
  keys : w.state.keys <+: w'.state.keys
  /-- An entity that is listed under no kind looped over is there as it was. -/
  entity : ∀ e, w.population.get? e.id = some e →
    (∀ kind ∈ loopedKinds as, e.id ∉ w.population.idsOfKind kind) →
    w'.population.get? e.id = some e
  clock : w'.clock = w.clock
  random : (∀ b ∈ nodesOfAll as, b.IsSilent) → w'.random = w.random

/-- A run of actions keeps to its footprint. -/
theorem runAll_footprint (hs : s.world.population.IdsBelowNext)
    (h : runAll env none as s = .ok s') : Footprint as s.world s'.world where
  value _ havoids := (havoids.changes h).get?_eq
  keys := runAll_prefix_keys h
  entity e hget hunlisted :=
    (runAll_apart ⟨hget, hs.lt_next (Population.contains_iff.mpr ⟨e, hget⟩), hunlisted⟩ h).live
  clock := (runAll_changes h).clock_eq
  random hsilent := runAll_random_eq hsilent h

/-- A loop over a kind that only removes its targets removes everybody who is listed. -/
theorem run_forEach_despawn (env : Surroundings) (ids : List EntityId) (s : Scope ρ) :
    ∃ s', ids.foldlM (visit env none [.despawn]) s = .ok s' ∧
      s'.world.population = s.world.population.removeAll ids := by
  induction ids generalizing s with
  | nil => exact ⟨s, rfl, rfl⟩
  | cons id ids ih =>
    have hvisit : ∃ s', visit env none [.despawn] s id = .ok s' ∧
        s'.world.population = (s.world.population.remove id).2 := by
      by_cases hlive : s.world.population.contains id
      · obtain ⟨e, hget⟩ := Population.contains_iff.mp hlive
        rw [visit_unfiltered hlive]
        simp only [runAll, run, Population.remove, hget]
        exact ⟨_, rfl, rfl⟩
      · refine ⟨s, visit_gone hlive, ?_⟩
        rw [Population.remove_absent hlive]
    obtain ⟨s₁, hvisit, hremoved⟩ := hvisit
    obtain ⟨s', hlater, hpopulation⟩ := ih s₁
    refine ⟨s', ?_, ?_⟩
    · rw [List.foldlM_cons, hvisit]
      exact hlater
    · rw [hpopulation, hremoved]
      rfl

/-- In a world with any population that can arise, a run of actions without a target leaves the
variables that no action in it writes, the clock and the places of the variables as they were; the
random source too, if no action in it is random or has a random number in its expressions; and
every entity that is listed under no kind looped over. All entities of kinds that are not looped
over are left alone, whatever is run, exactly when live entities are listed under their own kind
only. -/
theorem leaves_other_kinds_iff (s : Scope ρ) (hs : s.world.population.Arises) :
    (∀ env as s', runAll env none as s = .ok s' → Footprint as s.world s'.world) ∧
    ((∀ env as s', runAll env none as s = .ok s' →
        ∀ e, s.world.population.get? e.id = some e → e.kind ∉ loopedKinds as →
          s'.world.population.get? e.id = some e) ↔
      ∀ kind, s.world.population.ListsOnly kind) := by
  refine ⟨fun _ _ _ => runAll_footprint hs.idsBelowNext, fun hleaves kind id hid e hget => ?_,
    fun hlists env as s' h e hget hkind => ?_⟩
  · -- Everybody who is listed under the kind is removed by a loop.
    obtain ⟨s', hrun, hpopulation⟩ :=
      run_forEach_despawn .empty (s.world.population.idsOfKind kind) s
    have h : runAll .empty none [.forEach kind none [.despawn]] s = .ok s' := by
      rw [runAll, run_forEach, hrun]
      rfl
    obtain ⟨-, rfl⟩ := Population.get?_eq_some hget
    refine Classical.byContradiction fun hkind => ?_
    have hleft := hleaves _ _ s' h e hget fun hlooped => hkind (List.mem_singleton.mp hlooped)
    rw [hpopulation, Population.get?_removeAll, if_pos hid] at hleft
    cases hleft
  · refine (runAll_footprint hs.idsBelowNext h).entity e hget fun kind hlooped hlisted => ?_
    exact hkind (hlists kind e.id hlisted e hget ▸ hlooped)

/-- The fair opens, and the cards are marked and sold. -/
def opening : List Action :=
  [.set "open" (.lit (.bool true)),
    .forEach "card" none [.setProp "sold" (.lit (.bool true)), .despawn]]

/-- The fairground with its gate closed. -/
def closedFair : World Script :=
  { fairground with state := Table.ofList [("gold", .bool false), ("open", .bool false)] }

theorem closedFair_leaves_stall :
    closedFair.population.Arises ∧ (∀ kind, closedFair.population.ListsOnly kind) ∧
    Avoids "gold" opening ∧ loopedKinds opening = ["card"] ∧
    ∃ s', runAll .empty none opening ⟨closedFair, Effects.none⟩ = .ok s' ∧
      s'.world.population.members.map Entity.id = [⟨2⟩] ∧
      Footprint opening closedFair s'.world ∧
      s'.world.state.get? "gold" = some (.bool false) ∧
      s'.world.population.get? ⟨2⟩ = some ⟨⟨2⟩, "stall", Table.empty⟩ := by
  have harises : closedFair.population.Arises := .restored Population.stalls 1
  have hlists : ∀ kind, closedFair.population.ListsOnly kind :=
    Population.listsOnly_restore_iff.mpr (by decide)
  have hgold : Avoids "gold" opening := by decide
  obtain ⟨s', hrun, hlive⟩ : ∃ s', runAll .empty none opening ⟨closedFair, Effects.none⟩ = .ok s' ∧
      s'.world.population.members.map Entity.id = [⟨2⟩] := ⟨_, rfl, rfl⟩
  obtain ⟨hfootprint, hkinds⟩ := leaves_other_kinds_iff ⟨closedFair, Effects.none⟩ harises
  have hs' := hfootprint .empty opening s' hrun
  exact ⟨harises, hlists, hgold, rfl, s', hrun, hlive, hs', hs'.value "gold" hgold,
    hkinds.mpr hlists .empty opening s' hrun ⟨⟨2⟩, "stall", Table.empty⟩ (by decide) (by decide)⟩

/-- A loop that sells the cards sells the stall that was saved as a card before, though it is of
another kind. -/
theorem relabelledFair_sells_stall :
    "stall" ∉ loopedKinds [.forEach "card" none [.despawn]] ∧
    relabelledFair.population.get? ⟨0⟩ = some ⟨⟨0⟩, "stall", Table.empty⟩ ∧
    ∃ s', runAll .empty none [.forEach "card" none [.despawn]]
        ⟨relabelledFair, Effects.none⟩ = .ok s' ∧
      s'.world.population.get? ⟨0⟩ = none :=
  ⟨by decide, rfl, _, rfl, rfl⟩

end Action

end IdleGame
