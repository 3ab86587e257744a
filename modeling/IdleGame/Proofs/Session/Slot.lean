import IdleGame.Proofs.Session.Invariant
import IdleGame.Proofs.Session.Storage
import IdleGame.Proofs.Store

/-!
# Slots between saving and loading

A slot that has been saved is loaded as it was, whatever happens in between, unless the slot itself
is written or emptied. The main slot is also written by ticks that end with an automatic save.

## Main definitions

* `Session.Spares` - a session after calls that do not touch a slot

## Main results

* `Session.Spares.load_eq` - what a slot holds is not changed by calls that do not touch it
* `Session.load_restores_save` - what was saved is loaded after calls that do not touch the slot
-/

namespace IdleGame

variable {ρ σ : Type} [RandomSource ρ]

namespace Session

variable [SaveStore σ]

/-- A session after calls that do not touch a slot. Others who share the store do not touch it
either. -/
inductive Spares (slot : String) (s : Session ρ σ) : Session ρ σ → Prop
  | refl : Spares slot s s
  | call {t op a t'} (h : Spares slot s t) (hop : ¬ t.Touches slot op)
      (hcall : t.apply op = .ok (a, t')) : Spares slot s t'
  | share {t store} (h : Spares slot s t)
      (hslot : Slot.load store t.game.identity.id slot =
        Slot.load t.store t.game.identity.id slot) :
      Spares slot s { t with store }

variable {g : Game} {sources : Set ρ} {s s' t : Session ρ σ} {slot : String}

theorem Spares.game (h : Spares slot s t) : t.game = s.game := by
  induction h with
  | refl => rfl
  | call _ _ hcall ih => exact (apply_game hcall).trans ih
  | share _ _ ih => exact ih

theorem Spares.follows (h : Spares slot s t) : Follows s.world.random t.world.random := by
  induction h with
  | refl => exact .refl
  | call _ _ hcall ih => exact ih.trans (apply_follows hcall)
  | share _ _ ih => exact ih

section

variable [ReliableStore σ]

/-- What a slot holds does not change when other slots of the game do. -/
theorem unmoved_load {touched : String → Prop} (h : ¬ touched slot) :
    Slot.Unmoved g.identity.id touched fun store : σ => Slot.load store g.identity.id slot where
  save htouched := Slot.load_save_of_ne fun hslot => h (hslot ▸ htouched)
  clear htouched := Slot.load_clear_of_ne fun hslot => h (hslot ▸ htouched)

/-- A call that does not touch a slot leaves it as it is. -/
theorem load_apply {op : Operation} {a : Answer} (hcall : s.apply op = .ok (a, s'))
    (h : ¬ s.Touches slot op) :
    Slot.load s'.store s.game.identity.id slot = Slot.load s.store s.game.identity.id slot :=
  look_apply (fun store => Slot.load store s.game.identity.id slot) hcall (unmoved_load h)

/-- What a slot holds is not changed by calls that do not touch it. -/
theorem Spares.load_eq (h : Spares slot s t) :
    Slot.load t.store s.game.identity.id slot = Slot.load s.store s.game.identity.id slot := by
  induction h with
  | refl => rfl
  | call ht hop hcall ih =>
    rw [← ht.game] at ih ⊢
    exact (load_apply hcall hop).trans ih
  | share ht hslot ih =>
    rw [← ht.game] at ih ⊢
    exact hslot.trans ih

omit [SaveStore σ] [ReliableStore σ] in
/-- A snapshot that is restored to a session of the same game is its snapshot again, apart from ids
that were handed out before. -/
theorem snapshot_restore (hgame : t.game = s.game) (hs : s.world.Settled s.game)
    (hplace : RandomSource.position? (RandomSource.resume t.world.random s.snapshot.random) =
      s.snapshot.random) :
    (t.restore s.snapshot).snapshot = { s.snapshot with
      nextEntity := max s.snapshot.nextEntity t.world.population.next } := by
  have hrestored : (t.restore s.snapshot).game = s.game := hgame
  have hstate : (t.restore s.snapshot).world.state = s.world.state :=
    state_restore (hgame.symm ▸ hs)
  have hmembers : (t.restore s.snapshot).world.population.members = s.world.population.members :=
    Population.members_restore hs.population.members
  -- Ids are not handed out again: the next one is above those of both.
  have hnext : (t.restore s.snapshot).world.population.next =
      max s.snapshot.nextEntity t.world.population.next :=
    Population.next_restore fun e he =>
      Nat.lt_of_lt_of_le (hs.population.below e he) (Nat.le_max_left _ _)
  rw [snapshot, hrestored, hstate, hmembers, hnext, random_restore, hplace]
  rfl

/-- A session that saves successfully, and whose snapshot can be decoded, gets the snapshot back
when it loads the slot after any calls that do not touch it. Only ids of entities that were handed
out in between stay taken. No messages and no events wait afterwards. -/
theorem load_restores_save (hsources : ∀ r ∈ sources, KeepsPlace r) (h : s.Reachable g sources)
    (hdecode : Snapshot.decode? s.snapshot.encode = some s.snapshot)
    (hsaved : (s.save slot).1 = .ok ()) (hspares : Spares slot (s.save slot).2 t) :
    (t.load slot).1 ∧
      (t.load slot).2.snapshot = { s.snapshot with
        nextEntity := max s.snapshot.nextEntity t.world.population.next } ∧
      (t.load slot).2.world.log.messages = [] ∧ (t.load slot).2.events = [] := by
  have hgame : t.game = s.game := hspares.game
  have hslot : Slot.load t.store t.game.identity.id slot = .ok (some s.snapshot) := by
    rw [hgame]
    exact hspares.load_eq.trans (Slot.load_save hsaved hdecode)
  obtain ⟨r, hr, hfollows⟩ := h.follows
  have hplace := hsources r hr _ _ hfollows hspares.follows
  rw [load_of_slot hslot (hgame ▸ isCompatible_snapshot s)]
  exact ⟨rfl, snapshot_restore hgame (h.game.symm ▸ h.settled) hplace, rfl, rfl⟩

end

/-- A game in which every tick either earns a coin or opens a stall. -/
def fairGame : Game where
  identity := { id := "fair", name := "Fair" }
  declarations := [{ id := "coins", initial := some (.number 0.0) }]
  rules := [{ id := "trade", actions := [.random [.mk 1.0 [.add "coins" (.lit (.number 1.0))],
    .mk 1.0 [.spawn "stall" []]]] }]

/-- The fair before it opens. -/
def newFair : Session Xorshift MemoryStore := ofGame fairGame (Xorshift.ofWord 11) MemoryStore.empty

/-- The calls of the opening. -/
def opening : List Operation := [.play .start, .play (.catchUp 2)]

/-- The fair after its opening. -/
def fair : Session Xorshift MemoryStore :=
  match applyAll opening newFair with
  | .ok (_, s) => s
  | .error _ => newFair

set_option maxRecDepth 10000 in
theorem fair_calls : ∃ noted, applyAll opening newFair = .ok (noted, fair) := by
  have hok : (applyAll opening newFair).isOk := by decide +kernel
  obtain ⟨⟨noted, s⟩, h⟩ := Outcome.exists_eq_ok_of_isOk hok
  rw [fair, h]
  exact ⟨noted, rfl⟩

theorem fair_played : fair.Played fairGame Xorshift.seeded opening := by
  obtain ⟨noted, hcalls⟩ := fair_calls
  exact (Played.new (Set.mem_range_self 11)).applyAll (by simp) hcalls

set_option maxRecDepth 10000 in
theorem fair_decodes : Snapshot.decode? fair.snapshot.encode = some fair.snapshot := by
  rw [Snapshot.decode?_encode]
  decide +kernel

/-- The fair after it has been saved, reset and given a stall, and a slot without a save has been
tried. -/
def otherFair : Session Xorshift MemoryStore :=
  (((fair.save "noon").2.reset.spawn "stall" Table.empty).2.load "night").2

theorem otherFair_spares : Spares "noon" (fair.save "noon").2 otherFair := by
  have hreset : (fair.save "noon").2.apply (.play .reset) =
      .ok (.done, (fair.save "noon").2.reset) := rfl
  have hspawn : (fair.save "noon").2.reset.apply (.play (.spawn "stall" Table.empty)) =
      .ok (.created _, ((fair.save "noon").2.reset.spawn "stall" Table.empty).2) := rfl
  exact ((Spares.refl.call id hreset).call id hspawn).call id (apply_load _ "night")

theorem otherFair_load_restores_save :
    (otherFair.load "noon").1 ∧
      (otherFair.load "noon").2.snapshot = { fair.snapshot with
        nextEntity := max fair.snapshot.nextEntity otherFair.world.population.next } ∧
      (otherFair.load "noon").2.world.log.messages = [] ∧ (otherFair.load "noon").2.events = [] :=
  load_restores_save (by rintro _ ⟨word, rfl⟩; exact keepsPlace_xorshift word)
    fair_played.reachable fair_decodes rfl otherFair_spares

end Session

end IdleGame
