import IdleGame.Proofs.Session.Slot
import IdleGame.Proofs.Snapshot.Stamp

/-!
# Nothing is left of a game that begins again

A session begins its game again when it is reset, and when it is told to load a slot from which it
cannot go on. From then on it is a new session, which only has the same store, runs or not, draws
from the random source where that stands, and hands out ids from where it was.

## Main definitions

* `Slot.Unfit` - why no game can be gone on from a slot
* `Session.anew` - a new session that is handed a store, a random source and the first id

## Main results

* `Session.Reachable.reset_eq_anew` - a session that is reset is a new one
* `Session.load_refused_iff_unfit` - the slots that a session does not go on from
* `Session.Reachable.leaves_no_residue` - every later call is served as by a new session
-/

namespace IdleGame

/-- Why no game can be gone on from a slot: the store fails, nothing is there, what is there is no
text in UTF-8 or not the text of a snapshot, or the snapshot reads as one of another game, another
version of it or another form. -/
inductive Slot.Unfit {σ : Type} [SaveStore σ] (store : σ) (g : Game) (slot : String) : Prop
  | failed {e} (h : SaveStore.read store (key g.identity.id slot) = .error e) : Unfit store g slot
  | absent (h : SaveStore.read store (key g.identity.id slot) = .ok none) : Unfit store g slot
  | notText {bytes} (h : SaveStore.read store (key g.identity.id slot) = .ok (some bytes))
      (htext : String.fromUTF8? bytes = none) : Unfit store g slot
  | unreadable {bytes text} (h : SaveStore.read store (key g.identity.id slot) = .ok (some bytes))
      (htext : String.fromUTF8? bytes = some text)
      (hread : (Ron.document? {} text).bind Snapshot.ofDatum? = none) : Unfit store g slot
  | foreign {bytes shot} (h : SaveStore.read store (key g.identity.id slot) = .ok (some bytes))
      (hshot : Snapshot.decode? bytes = some shot) (hforeign : ¬ shot.ReadsAs g) :
      Unfit store g slot

namespace Session

variable {ρ σ : Type}

/-- A new session of a game that is handed a store, a random source where it stands, and the number
of the first entity. -/
def anew (g : Game) (random : ρ) (store : σ) (running : Bool) (next : Nat) : Session ρ σ :=
  { ofGame g random store with
    world := { World.ofGame g random with population := { Population.empty with next } }
    running }

variable [RandomSource ρ] [SaveStore σ] {g : Game} {sources : Set ρ} {s : Session ρ σ}
  {slot : String}

/-- A session that is reset is a new one with the same store, which runs if it did, draws on from
where the random source stands, and does not hand out ids again. -/
theorem Reachable.reset_eq_anew (h : s.Reachable g sources) :
    s.reset = anew g s.world.random s.store s.running s.world.population.next := by
  have hcapacity := h.settled.capacity
  have hlog : s.world.log.clear = MessageLog.ofCapacity g.config.maxMessages := by
    rw [MessageLog.clear, hcapacity]
    rfl
  have hworld : s.world.reset s.game =
      { World.ofGame g s.world.random with
        population := { Population.empty with next := s.world.population.next } } := by
    rw [World.reset, h.game, hlog]
    rfl
  rw [reset, hworld, h.game]
  rfl

/-- A session goes on from no slot that is unfit, and from all others. -/
theorem load_refused_iff_unfit (s : Session ρ σ) (slot : String) :
    ¬ (s.load slot).1 ↔ Slot.Unfit s.store s.game slot := by
  rw [load_fst_iff, Slot.load]
  rcases hread : SaveStore.read s.store (Slot.key s.game.identity.id slot) with e | _ | bytes
  · exact iff_of_true (by simp) (.failed hread)
  · exact iff_of_true (by simp) (.absent hread)
  -- What is there is looked at as bytes, as a text, as a snapshot and as one of the game.
  · dsimp only
    rcases hdecode : Snapshot.decode? bytes with _ | shot
    · refine iff_of_true (by simp) ?_
      rcases htext : String.fromUTF8? bytes with _ | text
      · exact .notText hread htext
      · refine .unreadable hread htext ?_
        rw [Snapshot.decode?, htext] at hdecode
        exact hdecode
    · simp only [Except.ok.injEq, Option.some.injEq, exists_eq_left',
        Snapshot.isCompatible_iff_readsAs]
      constructor
      · exact .foreign hread hdecode
      · rintro (h | h | ⟨h, htext⟩ | ⟨h, htext, hnot⟩ | ⟨h, hshot, hforeign⟩) <;>
          obtain h := hread.symm.trans h
        · cases h
        · cases h
        · obtain rfl := Option.some.inj (Except.ok.inj h)
          simp [Snapshot.decode?, htext] at hdecode
        · obtain rfl := Option.some.inj (Except.ok.inj h)
          rw [Snapshot.decode?, htext] at hdecode
          cases hnot.symm.trans hdecode
        · obtain rfl := Option.some.inj (Except.ok.inj h)
          obtain rfl := Option.some.inj (hdecode.symm.trans hshot)
          exact hforeign

/-- A session that is reset, or that has been told to load a slot from which it cannot go on, serves
every later call as a new session does that has the same store, runs if it does, has its random
source at the same place and hands out the same ids, and with the same snapshots on the way. A
session cannot go on from a slot exactly when that is unfit. -/
theorem Reachable.leaves_no_residue (h : s.Reachable g sources) :
    (∀ ops : List Operation, applyAll ops s.reset =
      applyAll ops (anew g s.world.random s.store s.running s.world.population.next)) ∧
    ∀ slot, (¬ (s.load slot).1 ↔ Slot.Unfit s.store g slot) ∧
      (¬ (s.load slot).1 → ∀ ops : List Operation, applyAll ops (s.load slot).2 =
        applyAll ops (anew g s.world.random s.store s.running s.world.population.next)) := by
  have hreset := h.reset_eq_anew
  refine ⟨fun ops => by rw [hreset], fun slot => ⟨?_, ?_⟩⟩
  · rw [load_refused_iff_unfit, h.game]
  · intro hrefused ops
    rw [load_refused hrefused, hreset]

/-- The fair after its opening, with a store in which one byte that is no text stands in the main
slot. -/
def spoiltFair : Session Xorshift MemoryStore :=
  { fair with store := ⟨Table.empty.insert "fair/main" ⟨#[0xff]⟩⟩ }

theorem spoiltFair_unfit : Slot.Unfit spoiltFair.store fairGame Slot.main := by
  have hread : SaveStore.read spoiltFair.store (Slot.key fairGame.identity.id Slot.main) =
      .ok (some ⟨#[0xff]⟩) :=
    Outcome.toOption_eq_some_iff.mp (by decide +kernel)
  exact .notText hread (by decide +kernel)

/-- The fair that has been told to load that slot is a new fair: no stall is left of the old one,
but their ids are not handed out again. -/
theorem spoiltFair_leaves_no_residue :
    ¬ (spoiltFair.load Slot.main).1 ∧
    ∀ ops : List Operation, applyAll ops (spoiltFair.load Slot.main).2 =
      applyAll ops (anew fairGame spoiltFair.world.random spoiltFair.store spoiltFair.running
        spoiltFair.world.population.next) := by
  have hreachable : spoiltFair.Reachable fairGame Xorshift.seeded := fair_played.reachable.share
  obtain ⟨hunfit, hnew⟩ := hreachable.leaves_no_residue.2 Slot.main
  have hrefused := hunfit.mpr spoiltFair_unfit
  exact ⟨hrefused, hnew hrefused⟩

end Session

end IdleGame
