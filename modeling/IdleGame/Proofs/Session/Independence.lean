import IdleGame.Proofs.Session.Alike
import IdleGame.Proofs.Session.Schedule
import IdleGame.Store.Memory

/-!
# The store is not felt

A session writes to its store and, unless it loads, learns nothing from it. So two sessions with
different stores go on in the same way as long as neither loads: what is saved on demand or
automatically, and whether that succeeds, is seen only in the answers of the calls that ask the
store.

## Main definitions

* `Operation.asksStore` - whether the answer of a call depends on the store
* `Sight`, `Session.watchAll` - what is seen of a session apart from its store, call by call
* `Session.Parallel` - sessions that differ only in their stores

## Main results

* `Session.Parallel.autosaves_eq` - such sessions save automatically at the same time
* `Session.apply_parallel` - a call that does not load leaves them such
* `Session.seen_whatever_store` - a run without loads looks the same with any two stores
-/

namespace IdleGame

open Outcome

/-- Whether the answer of a call depends on the store. -/
def Operation.asksStore : Operation → Bool
  | .save _ | .load _ | .hasSave _ | .clearSave _ => true
  | _ => false

/-- What is seen of a session after a call, apart from its store. -/
structure Sight where
  /-- The answer, unless it depends on the store. -/
  answer : Option Answer
  snapshot : Snapshot
  messages : List Message
  /-- The events that wait to be taken. -/
  events : List GameEvent
  /-- The snapshots that the call has saved automatically, or tried to. -/
  autosaves : List Snapshot
  lastAutosave : Nat

namespace Session

variable {ρ σ τ : Type} [RandomSource ρ] [SaveStore σ] [SaveStore τ]

/-- What is seen after a call that a session has served. -/
def sight (s : Session ρ σ) (op : Operation) (a : Answer) (s' : Session ρ σ) : Sight where
  answer := if op.asksStore then none else some a
  snapshot := s'.snapshot
  messages := s'.world.log.messages
  events := s'.events
  autosaves := s.autosaves op
  lastAutosave := s'.lastAutosave

/-- Serves calls one after the other, and notes what is seen after each. Before a call the store may
be changed by others, or begin or cease to fail; how, depends on the number of the calls that are
still to come. -/
def watchAll (drift : Nat → σ → σ) :
    List Operation → Session ρ σ → Except Fault (List Sight × Session ρ σ)
  | [], s => .ok ([], s)
  | op :: ops, s => do
    let s := { s with store := drift ops.length s.store }
    let (a, s') ← s.apply op
    let (seen, t) ← watchAll drift ops s'
    return (s.sight op a s' :: seen, t)

/-- Sessions that differ only in their stores. -/
structure Parallel (s : Session ρ σ) (t : Session ρ τ) : Prop where
  alike : s.Alike [] [] t
  lastAutosave : s.lastAutosave = t.lastAutosave

variable {s : Session ρ σ} {t : Session ρ τ}

omit [RandomSource ρ] [SaveStore σ] [SaveStore τ] in
theorem Parallel.willAutosave_eq (h : s.Parallel t) : s.willAutosave = t.willAutosave := by
  unfold willAutosave closing? isAutosaveDue Session.advanceClock
  rw [h.alike.game, h.alike.world.clock, h.lastAutosave]

theorem Parallel.tickAutosaves_eq (h : s.Parallel t) : s.tickAutosaves = t.tickAutosaves :=
  (step_agree h.alike).listed_eq fun _ _ hstep => by
    dsimp only
    rw [h.willAutosave_eq, hstep.2.snapshot_eq]

/-- A tick leaves sessions parallel: the time of an automatic save is noted whatever comes of it. -/
theorem step_parallel (h : s.Parallel t) : Agree (SameWith Parallel) s.step t.step := by
  refine (step_agree h.alike).imp_ok ?_
  rintro ⟨summary, s'⟩ ⟨_, t'⟩ hs ht ⟨rfl, halike⟩
  refine ⟨rfl, halike, ?_⟩
  dsimp only
  rw [(step_savesTo hs).lastAutosave, (step_savesTo ht).lastAutosave, h.tickAutosaves_eq,
    h.lastAutosave]

theorem Parallel.listedSteps_eq {n : Nat} (h : s.Parallel t) :
    listedSteps tickAutosaves n s = listedSteps tickAutosaves n t := by
  induction n generalizing s t with
  | zero => rfl
  | succ n ih =>
    rw [listedSteps, listedSteps, h.tickAutosaves_eq]
    exact congrArg _ ((step_parallel h).listed_eq fun _ _ hstep => ih hstep.2)

/-- Sessions that differ only in their stores save the same snapshots automatically. -/
theorem Parallel.autosaves_eq (h : s.Parallel t) (op : Operation) :
    s.autosaves op = t.autosaves op := by
  unfold autosaves
  cases op with
  | play move =>
    cases move with
    | tick => rw [listedTicks, listedTicks, h.alike.running, h.tickAutosaves_eq]
    | catchUp n => rw [listedTicks, listedTicks, h.alike.running, h.listedSteps_eq]
    | _ => rfl
  | _ => rfl

/-- A call that plays or asks agrees on sessions that differ only in their stores. -/
theorem isInGame_parallel {op : Operation} (hop : op.isInGame) (h : s.Parallel t) :
    Agree (SameWith Parallel) (s.apply op) (t.apply op) := by
  refine (apply_agree hop h.alike).imp_ok ?_
  rintro ⟨a, s'⟩ ⟨_, t'⟩ hs ht ⟨rfl, halike⟩
  refine ⟨rfl, halike, ?_⟩
  by_cases hrestarts : op.restarts
  · rcases restarts_cases hrestarts hs with ⟨rfl, rfl⟩ | ⟨slot, rfl, -⟩
    · obtain ⟨-, rfl⟩ := Prod.mk.inj (Except.ok.inj ht)
      rfl
    · cases hop
  · dsimp only
    rw [apply_lastAutosave hrestarts hs, apply_lastAutosave hrestarts ht, h.autosaves_eq,
      h.lastAutosave]

/-- A call that does not load agrees on sessions that differ only in their stores, but for its
answer if that depends on the store. -/
theorem apply_parallel {op : Operation} (hop : ∀ slot, op ≠ .load slot) (h : s.Parallel t) :
    Agree (fun r r' => (¬ op.asksStore → r.1 = r'.1) ∧ r.2.Parallel r'.2) (s.apply op)
      (t.apply op) := by
  have halike := h.alike
  have hmessages := halike.world.log.messages.eq_of_nil
  have hevents := halike.events.eq_of_nil
  cases op with
  | play move => exact (isInGame_parallel rfl h).imp fun _ _ hs => ⟨fun _ => hs.1, hs.2⟩
  | ask query => exact (isInGame_parallel rfl h).imp fun _ _ hs => ⟨fun _ => hs.1, hs.2⟩
  | messages => exact .ok ⟨fun _ => congrArg Answer.messages hmessages, h⟩
  | takeMessages =>
    have hlog : s.world.log.clear.Alike [] t.world.log.clear :=
      ⟨.refl _ _, halike.world.log.capacity⟩
    have hworld := halike.withWorld (halike.world.withLog hlog)
    exact .ok ⟨fun _ => congrArg Answer.messages hmessages, hworld, h.lastAutosave⟩
  | takeEvents =>
    refine .ok ⟨fun _ => congrArg Answer.events hevents, ?_, h.lastAutosave⟩
    exact { halike with events := .refl _ _ }
  | save slot | hasSave slot | clearSave slot =>
    refine .ok ⟨fun hasks => (hasks rfl).elim, ?_, h.lastAutosave⟩
    exact ⟨halike.game, halike.world, halike.records, halike.phase, halike.uses, halike.running,
      halike.events⟩
  | load slot => exact (hop slot rfl).elim

/-- The same is seen of sessions that differ only in their stores. -/
theorem Parallel.sight_eq {op : Operation} {a a' : Answer} {s' : Session ρ σ} {t' : Session ρ τ}
    (h : s.Parallel t) (hanswer : ¬ op.asksStore → a = a') (h' : s'.Parallel t') :
    s.sight op a s' = t.sight op a' t' := by
  have hmessages := h'.alike.world.log.messages.eq_of_nil
  have hshown : (if op.asksStore then none else some a) =
      if op.asksStore then none else some a' := by
    by_cases hasks : op.asksStore
    · rw [if_pos hasks, if_pos hasks]
    · rw [hanswer hasks]
  rw [sight, sight, hshown, h'.alike.snapshot_eq, hmessages, h'.alike.events.eq_of_nil,
    h.autosaves_eq, h'.lastAutosave]

/-- Calls that do not load look the same in sessions that differ only in their stores. -/
theorem watchAll_agree {drift : Nat → σ → σ} {drift' : Nat → τ → τ} {ops : List Operation}
    (hops : ∀ op ∈ ops, ∀ slot, op ≠ .load slot) (h : s.Parallel t) :
    Agree (fun r r' => r.1 = r'.1) (watchAll drift ops s) (watchAll drift' ops t) := by
  induction ops generalizing s t with
  | nil => exact .ok rfl
  | cons op ops ih =>
    rw [List.forall_mem_cons] at hops
    rw [watchAll, watchAll]
    have hshared : Parallel { s with store := drift ops.length s.store }
        { t with store := drift' ops.length t.store } :=
      ⟨⟨h.alike.game, h.alike.world, h.alike.records, h.alike.phase, h.alike.uses,
        h.alike.running, h.alike.events⟩, h.lastAutosave⟩
    refine (apply_parallel hops.1 hshared).bind ?_
    rintro ⟨a, s'⟩ ⟨a', t'⟩ ⟨hanswer, hparallel⟩
    refine (ih hops.2 hparallel).bind ?_
    rintro ⟨seen, s''⟩ ⟨_, t''⟩ rfl
    exact .ok (congrArg (· :: seen) (hshared.sight_eq hanswer hparallel))

/-- A run of a game that does not load looks the same whatever its store is and does: the same calls
are served, with the same answers unless they ask the store, and after each of them there are the
same snapshot, messages and waiting events, the same snapshots have been saved automatically, and
the time of the last of these is the same. -/
theorem seen_whatever_store (g : Game) (random : ρ) (store : σ) (store' : τ) (drift : Nat → σ → σ)
    (drift' : Nat → τ → τ) {ops : List Operation} (hops : ∀ op ∈ ops, ∀ slot, op ≠ .load slot) :
    (watchAll drift ops (ofGame g random store)).map Prod.fst =
      (watchAll drift' ops (ofGame g random store')).map Prod.fst := by
  have hworld : (World.ofGame g random).Alike [] (World.ofGame g random) :=
    ⟨rfl, ⟨rfl, rfl, fun _ => rfl⟩, ⟨.refl _ _, rfl⟩, rfl, rfl⟩
  have hparallel : (ofGame g random store).Parallel (ofGame g random store') :=
    ⟨⟨rfl, hworld, rfl, rfl, rfl, rfl, .refl _ _⟩, rfl⟩
  exact (watchAll_agree hops hparallel).map_eq fun _ _ hseen => hseen

/-- A watch over the patrol, with saves on demand and automatic ones. -/
def patrolWatch : List Operation :=
  [.play .start, .save "dusk", .play (.catchUp 5), .hasSave Slot.main, .clearSave "dusk",
    .play .tick, .takeEvents]

set_option maxRecDepth 10000 in
/-- The watch sees the same whether the store takes nothing, or takes everything and is emptied by
others in between. -/
theorem patrol_seen_whatever_store :
    (∀ op ∈ patrolWatch, ∀ slot, op ≠ .load slot) ∧
    (watchAll (fun _ store => store) patrolWatch
        (ofGame patrolGame (Xorshift.ofWord 5) OfflineStore.unreachable)).isOk ∧
    (watchAll (fun _ store => store) patrolWatch
        (ofGame patrolGame (Xorshift.ofWord 5) OfflineStore.unreachable)).map Prod.fst =
      (watchAll (fun left store => if left = 3 then MemoryStore.empty else store) patrolWatch
        (ofGame patrolGame (Xorshift.ofWord 5) MemoryStore.empty)).map Prod.fst := by
  have hops : ∀ op ∈ patrolWatch, ∀ slot, op ≠ .load slot := by simp [patrolWatch]
  exact ⟨hops, by decide +kernel, seen_whatever_store _ _ _ _ _ _ hops⟩

end Session

end IdleGame
