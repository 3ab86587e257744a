import IdleGame.Proofs.Session.Alike
import IdleGame.Proofs.Session.Slot

/-!
# Going on from a saved game

A snapshot holds everything that the future of a session depends on. A new session that loads it
goes on as the saved one does, for ever: only what was logged or emitted before the save, and the
times of automatic saves, can tell them apart.

## Main definitions

* `Session.resumed` - a new session that has loaded a slot

## Main results

* `Session.resumed_alike` - it is like the session that was saved
* `Session.resumed_goes_on` - so both answer every call in the same way, with equal snapshots
-/

namespace IdleGame.Session

open Outcome

variable {σ τ : Type} [SaveStore σ] [SaveStore τ]

/-- A new session of a game, with any seed, that has loaded a slot and runs or not. -/
def resumed (g : Game) (seed : UInt64) (store : τ) (slot : String) (running : Bool) :
    Session Xorshift τ :=
  { ((ofGame g (Xorshift.ofWord seed) store).load slot).2 with running }

variable {g : Game} {history : List Operation} {s : Session Xorshift σ} {store : τ} {slot : String}

/-- A new session that has loaded the snapshot of a played one is like it. -/
theorem resumed_alike (seed : UInt64) (h : s.Played g Xorshift.seeded history)
    (hslot : Slot.load store g.identity.id slot = .ok (some s.snapshot)) :
    ((ofGame g (Xorshift.ofWord seed) store).load slot).1 ∧
      s.Alike s.world.log.messages s.events (resumed g seed store slot s.running) := by
  have hsettled := h.reachable.settled
  have hcompatible : s.snapshot.isCompatible g := h.game ▸ isCompatible_snapshot s
  have hload := load_of_slot (s := ofGame g (Xorshift.ofWord seed) store) hslot hcompatible
  obtain ⟨_, ⟨word, rfl⟩, hfollows⟩ := h.reachable.follows
  -- The word of a generator is never zero, so it is set back to it exactly.
  have hword := Xorshift.word_ne_zero_of_follows hfollows (Xorshift.ofWord_word_ne_zero word)
  have hworld : s.world.Alike s.world.log.messages
      ((ofGame g (Xorshift.ofWord seed) store).restore s.snapshot).world := by
    refine ⟨?_, ?_, ⟨.nil _, hsettled.capacity⟩, rfl, (Xorshift.resume_position hword).symm⟩
    · exact (state_restore (s := ofGame g (Xorshift.ofWord seed) store) hsettled).symm
    -- A new session has handed out no ids.
    · have halike := Population.alike_restore hsettled.population h.indexed
      rw [← Nat.max_zero s.world.population.next] at halike
      exact halike
  unfold resumed
  rw [hload]
  exact ⟨rfl, h.game, hworld, rfl, rfl, rfl, rfl, .nil _⟩

/-- A new session that loads the snapshot of a played one, and runs if that one does, goes on as
that one: every call that plays or asks has the same answer, and is followed by the same snapshot.
Of the messages and the events at the end, the saved session may still have some from before the
save; the others are the same. -/
theorem resumed_goes_on (seed : UInt64) (h : s.Played g Xorshift.seeded history)
    (hslot : Slot.load store g.identity.id slot = .ok (some s.snapshot)) :
    ((ofGame g (Xorshift.ofWord seed) store).load slot).1 ∧
      (resumed g seed store slot s.running).snapshot = s.snapshot ∧
      ∀ ops : List Operation, (∀ op ∈ ops, op.isInGame) →
        Agree
          (fun a b => a.1 = b.1 ∧
            LaterThan s.world.log.messages b.2.world.log.messages a.2.world.log.messages ∧
            LaterThan s.events b.2.events a.2.events)
          (applyAll ops s) (applyAll ops (resumed g seed store slot s.running)) := by
  obtain ⟨hloaded, halike⟩ := resumed_alike seed h hslot
  refine ⟨hloaded, halike.snapshot_eq.symm, fun ops hops => ?_⟩
  refine (applyAll_agree hops halike).imp ?_
  rintro ⟨noted, s'⟩ ⟨noted', t'⟩ ⟨hnoted, hs⟩
  exact ⟨hnoted, hs.world.log.messages, hs.events⟩

theorem fair_goes_on :
    ((ofGame fairGame (Xorshift.ofWord 5) (fair.save "noon").2.store).load "noon").1 ∧
      (resumed fairGame 5 (fair.save "noon").2.store "noon" fair.running).snapshot =
        fair.snapshot ∧
      ∀ ops : List Operation, (∀ op ∈ ops, op.isInGame) →
        Agree
          (fun a b => a.1 = b.1 ∧
            LaterThan fair.world.log.messages b.2.world.log.messages a.2.world.log.messages ∧
            LaterThan fair.events b.2.events a.2.events)
          (applyAll ops fair)
          (applyAll ops (resumed fairGame 5 (fair.save "noon").2.store "noon" fair.running)) :=
  resumed_goes_on 5 fair_played (Slot.load_save rfl fair_decodes)

end IdleGame.Session
