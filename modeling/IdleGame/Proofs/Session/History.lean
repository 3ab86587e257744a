import IdleGame.Proofs.Session.Change
import Mathlib.Data.Set.Operations

/-!
# Histories of sessions

A session is reached from the beginning of its game by calls. The store may be shared: between two
calls others can change it.

## Main definitions

* `Session.Reachable` - a session after any calls, which may have loaded anything
* `Session.Played` - a session after calls that have loaded only what was saved from sessions of
  the same game, with the history of the calls, those before the loaded saves included

## Main results

* `Session.Played.reachable` - what has been played is reachable
* `Session.apply_cases` - a call goes on from a snapshot or takes turns
* `Session.load_of_played`, `Session.load_refused` - what loading does
-/

namespace IdleGame.Session

variable {ρ σ : Type} [RandomSource ρ] [SaveStore σ]

/-- A session of a game after any calls, whatever the store held when it loaded. -/
inductive Reachable (g : Game) (sources : Set ρ) : Session ρ σ → Prop
  | new {random store} (h : random ∈ sources) : Reachable g sources (ofGame g random store)
  | call {s op a s'} (h : Reachable g sources s) (hcall : s.apply op = .ok (a, s')) :
      Reachable g sources s'
  | share {s store} (h : Reachable g sources s) : Reachable g sources { s with store }

/-- A session of a game after calls that have loaded only what was saved from such sessions, and
the history of calls that led to it. -/
inductive Played (g : Game) (sources : Set ρ) : List Operation → Session ρ σ → Prop
  | new {random store} (h : random ∈ sources) : Played g sources [] (ofGame g random store)
  | call {history s op a s'} (h : Played g sources history s) (hload : ∀ slot, op ≠ .load slot)
      (hcall : s.apply op = .ok (a, s')) : Played g sources (history ++ [op]) s'
  | resumed {history past s t slot} (h : Played g sources history s)
      (hsaved : Played g sources past t)
      (hslot : Slot.load s.store g.identity.id slot = .ok (some t.snapshot)) :
      Played g sources (history ++ past ++ [.load slot]) (s.load slot).2
  | refused {history s slot} (h : Played g sources history s) (hslot : ¬ (s.load slot).1) :
      Played g sources (history ++ [.load slot]) (s.load slot).2
  | share {history s store} (h : Played g sources history s) :
      Played g sources history { s with store }

variable {g : Game} {sources : Set ρ} {s s' : Session ρ σ} {history ops : List Operation}

theorem apply_load (s : Session ρ σ) (slot : String) :
    s.apply (.load slot) = .ok (.holds (s.load slot).1, (s.load slot).2) := rfl

/-- What has been played is reachable. -/
theorem Played.reachable (h : s.Played g sources history) : s.Reachable g sources := by
  induction h with
  | new h => exact .new h
  | call _ _ hcall ih => exact .call ih hcall
  | @resumed _ _ s _ slot _ _ _ ih _ | @refused _ s slot _ _ ih =>
    exact .call ih (apply_load s slot)
  | share _ ih => exact .share ih

/-- Calls that do not load prolong a history. -/
theorem Played.applyAll {noted : List (Answer × Snapshot)} (h : s.Played g sources history)
    (hops : ∀ op ∈ ops, ∀ slot, op ≠ .load slot) (hcalls : applyAll ops s = .ok (noted, s')) :
    s'.Played g sources (history ++ ops) := by
  induction ops generalizing s history noted with
  | nil =>
    obtain ⟨-, rfl⟩ := Prod.mk.inj (Except.ok.inj hcalls)
    rwa [List.append_nil]
  | cons op ops ih =>
    rw [List.forall_mem_cons] at hops
    obtain ⟨⟨a, t⟩, hcall, hcalls⟩ := Outcome.bind_eq_ok_iff.mp hcalls
    obtain ⟨⟨noted', t'⟩, hlater, hcalls⟩ := Outcome.bind_eq_ok_iff.mp hcalls
    obtain ⟨-, rfl⟩ := Prod.mk.inj (Except.ok.inj hcalls)
    rw [List.append_cons]
    exact ih (h.call hops.1 hcall) hops.2 hlater

/-- Loading goes on from a stored snapshot or, if there is none that fits, resets. -/
theorem load_cases (s : Session ρ σ) (slot : String) :
    (∃ shot, s.stored slot = .ok (some shot) ∧ s.load slot = (true, s.restore shot)) ∨
      s.load slot = (false, s.reset) := by
  unfold load
  rcases s.stored slot with _ | _ | shot
  · exact .inr rfl
  · exact .inr rfl
  · exact .inl ⟨shot, rfl, rfl⟩

/-- A call goes on from a snapshot or takes turns. -/
theorem apply_cases {op : Operation} {a : Answer} (h : s.apply op = .ok (a, s')) :
    (∃ slot shot, op = .load slot ∧ s' = s.restore shot) ∨
      s'.game = s.game ∧ s.world.Turns s.game op s'.world := by
  by_cases hload : ∃ slot, op = .load slot
  · obtain ⟨slot, rfl⟩ := hload
    rw [apply_load] at h
    obtain ⟨-, rfl⟩ := Prod.mk.inj (Except.ok.inj h)
    rcases load_cases s slot with ⟨shot, -, hloaded⟩ | hloaded <;> rw [hloaded]
    · exact .inl ⟨slot, shot, rfl, rfl⟩
    · exact .inr ⟨rfl, (World.Turn.reset).turns⟩
  · exact .inr (apply_turns (fun slot hop => hload ⟨slot, hop⟩) h)

theorem apply_game {op : Operation} {a : Answer} (h : s.apply op = .ok (a, s')) :
    s'.game = s.game := by
  rcases apply_cases h with ⟨_, shot, -, rfl⟩ | ⟨hgame, -⟩
  · rfl
  · exact hgame

theorem Reachable.game (h : s.Reachable g sources) : s.game = g := by
  induction h with
  | new => rfl
  | call _ hcall ih => exact (apply_game hcall).trans ih
  | share _ ih => exact ih

theorem Played.game (h : s.Played g sources history) : s.game = g := h.reachable.game

omit [SaveStore σ] in
/-- A snapshot belongs to the game of its session. -/
theorem isCompatible_snapshot (s : Session ρ σ) : s.snapshot.isCompatible s.game :=
  decide_eq_true rfl

/-- What a slot holds is loaded when it belongs to the game. -/
theorem load_of_slot {slot : String} {shot : Snapshot}
    (h : Slot.load s.store s.game.identity.id slot = .ok (some shot))
    (hcompatible : shot.isCompatible s.game) : s.load slot = (true, s.restore shot) := by
  have hstored : s.stored slot = .ok (some shot) := by
    unfold stored Snapshot.checkCompatible
    rw [h, Outcome.ok_bind]
    dsimp only
    rw [if_pos hcompatible]
    rfl
  rw [load, hstored]

/-- A session goes on from what was saved from a session of its game. -/
theorem load_of_snapshot {t : Session ρ σ} {slot : String} (hgame : t.game = s.game)
    (h : Slot.load s.store s.game.identity.id slot = .ok (some t.snapshot)) :
    s.load slot = (true, s.restore t.snapshot) :=
  load_of_slot h (hgame ▸ isCompatible_snapshot t)

/-- A slot with a snapshot of the same game is loaded. -/
theorem load_of_played {past : List Operation} {t : Session ρ σ} {slot : String}
    (hs : s.Reachable g sources) (ht : t.Played g sources past)
    (hslot : Slot.load s.store g.identity.id slot = .ok (some t.snapshot)) :
    s.load slot = (true, s.restore t.snapshot) := by
  have hgame : t.game = s.game := ht.game.trans hs.game.symm
  exact load_of_snapshot hgame (hs.game.symm ▸ hslot)

/-- What is not loaded is reset. -/
theorem load_refused {slot : String} (h : ¬ (s.load slot).1) : s.load slot = (false, s.reset) := by
  rcases load_cases s slot with ⟨shot, -, hloaded⟩ | hloaded
  · rw [hloaded] at h
    exact (h rfl).elim
  · exact hloaded

end IdleGame.Session
