import IdleGame.Proofs.Entity.Population
import IdleGame.Proofs.Outcome
import IdleGame.World

/-!
# Worlds that go on alike

Two worlds that differ only in old messages, and in the order in which the index of the entities
has come to name the kinds, are the same to everything that happens in them.

## Main definitions

* `LaterThan` - a list is another one with old entries in front
* `MessageLog.Alike`, `Population.Alike`, `World.Alike` - what is told apart by nothing that
  happens in a game

## Main results

* `MessageLog.Alike.push` - logs stay alike when the same message is written to both
* `World.Alike.view_eq` - expressions read the same in worlds that are alike
* `World.Alike.draw` - computations on the random source agree
-/

namespace IdleGame

open Outcome

/-- A list is another one with some of the last entries of an old list in front. -/
def LaterThan {α : Type} (old new all : List α) : Prop := ∃ kept, kept <:+ old ∧ all = kept ++ new

theorem LaterThan.nil {α : Type} (old : List α) : LaterThan old [] old :=
  ⟨old, List.suffix_rfl, (List.append_nil _).symm⟩

theorem LaterThan.refl {α : Type} (old all : List α) : LaterThan old all all :=
  ⟨[], List.nil_suffix, rfl⟩

/-- Without old entries the lists are the same. -/
theorem LaterThan.eq_of_nil {α : Type} {new all : List α} (h : LaterThan [] new all) :
    all = new := by
  obtain ⟨kept, hkept, rfl⟩ := h
  rw [List.suffix_nil.mp hkept, List.nil_append]

theorem LaterThan.append {α : Type} {old new all : List α} (h : LaterThan old new all)
    (more : List α) : LaterThan old (new ++ more) (all ++ more) := by
  obtain ⟨kept, hkept, rfl⟩ := h
  exact ⟨kept, hkept, List.append_assoc _ _ _⟩

/-- Old entries are the first to go when lists are cut to leave room for one more. -/
theorem LaterThan.drop {α : Type} {old new all : List α} (h : LaterThan old new all) (room : Nat) :
    LaterThan old (new.drop (new.length + 1 - room)) (all.drop (all.length + 1 - room)) := by
  obtain ⟨kept, hkept, rfl⟩ := h
  -- The longer list is cut by as many entries more as it has kept.
  have hlength : (kept ++ new).length + 1 - room - kept.length = new.length + 1 - room := by
    rw [List.length_append]
    omega
  refine ⟨kept.drop ((kept ++ new).length + 1 - room), (List.drop_suffix _ _).trans hkept, ?_⟩
  rw [List.drop_append, hlength]

namespace MessageLog

/-- Logs of the same capacity, where one may hold some of the old messages as well. -/
structure Alike (old : List Message) (log log' : MessageLog) : Prop where
  messages : LaterThan old log'.messages log.messages
  capacity : log.capacity = log'.capacity

variable {old : List Message} {log log' : MessageLog}

/-- Writing the same message to both leaves logs alike: old messages are the first to go. -/
theorem Alike.push (h : log.Alike old log') (m : Message) :
    (log.push m).Alike old (log'.push m) := by
  unfold MessageLog.push
  rw [h.capacity]
  split
  · exact h
  · exact ⟨(h.messages.drop log'.capacity).append [m], rfl⟩

end MessageLog

namespace Population

/-- Populations with the same members, the same next id and the same ids of every kind. -/
structure Alike (p q : Population) : Prop where
  members : p.members = q.members
  next : p.next = q.next
  idsOfKind : ∀ kind, p.idsOfKind kind = q.idsOfKind kind

variable {p q : Population} {id : EntityId}

theorem Alike.get? (h : p.Alike q) (id : EntityId) : p.get? id = q.get? id := by
  rw [Population.get?, h.members]
  rfl

theorem Alike.contains (h : p.Alike q) (id : EntityId) : p.contains id = q.contains id := by
  rw [Population.contains, h.get?]
  rfl

theorem Alike.count (h : p.Alike q) (kind : String) : p.count kind = q.count kind :=
  congrArg List.length (h.idsOfKind kind)

theorem Alike.ofKind (h : p.Alike q) (kind : String) : p.ofKind kind = q.ofKind kind := by
  rw [Population.ofKind, h.idsOfKind, funext h.get?]
  rfl

theorem Alike.enter (h : p.Alike q) (e : Entity) : (p.enter e).Alike (q.enter e) where
  members := congrArg (insertEntity e) h.members
  next := h.next
  idsOfKind kind := by rw [idsOfKind_enter, idsOfKind_enter, h.idsOfKind]

theorem Alike.spawn (h : p.Alike q) (kind : String) (properties : Values) :
    (p.spawn kind properties).1 = (q.spawn kind properties).1 ∧
      (p.spawn kind properties).2.Alike (q.spawn kind properties).2 := by
  unfold Population.spawn
  rw [h.next]
  have henter := h.enter ⟨⟨q.next⟩, kind, properties⟩
  exact ⟨rfl, henter.members, rfl, henter.idsOfKind⟩

theorem Alike.remove (h : p.Alike q) (id : EntityId) :
    (p.remove id).1 = (q.remove id).1 ∧ (p.remove id).2.Alike (q.remove id).2 := by
  rcases hget : p.get? id with _ | e
  · have hget' := hget
    rw [h.get?] at hget'
    simp only [Population.remove, hget, hget']
    exact ⟨trivial, h⟩
  · have hget' := hget
    rw [h.get?] at hget'
    refine ⟨by simp only [Population.remove, hget, hget'], ?_, ?_, fun kind => ?_⟩
    · rw [remove_of_get? hget, remove_of_get? hget', h.members]
    · rw [remove_of_get? hget, remove_of_get? hget']
      exact h.next
    · rw [idsOfKind_remove hget, idsOfKind_remove hget', h.idsOfKind]

theorem Alike.modify (h : p.Alike q) (id : EntityId) (f : Entity → Entity) :
    (p.modify id f).Alike (q.modify id f) where
  members := by rw [Population.modify, Population.modify, h.members]
  next := h.next
  idsOfKind := h.idsOfKind

/-- An ordered population whose index is right is like the one restored from its members. -/
theorem alike_restore (h : p.Ordered) (hindexed : p.Indexed) :
    p.Alike (restore p.members p.next) where
  members := (members_restore h.members).symm
  next := (next_restore h.below).symm
  idsOfKind kind := by
    have hrestored := indexed_restore (n := p.next) (nodup_ids_of_pairwise h.members)
    rw [hindexed, hrestored, members_restore h.members]

theorem Alike.clear (h : p.Alike q) : p.clear.Alike q.clear := ⟨rfl, h.next, fun _ => rfl⟩

end Population

namespace World

variable {ρ α : Type}

/-- Worlds that nothing in a game can tell apart: one may hold some old messages as well. -/
structure Alike (old : List Message) (w w' : World ρ) : Prop where
  state : w.state = w'.state
  population : w.population.Alike w'.population
  log : w.log.Alike old w'.log
  clock : w.clock = w'.clock
  random : w.random = w'.random

variable {old : List Message} {w w' : World ρ}

/-- Expressions read the same in worlds that are alike. -/
theorem Alike.view_eq (h : w.Alike old w') (params : Values) (target : Option EntityId) :
    w.view params target = w'.view params target := by
  unfold view
  rw [h.state, funext h.population.get?, funext h.population.count]

theorem Alike.number (h : w.Alike old w') (id : String) : w.number id = w'.number id := by
  unfold World.number
  rw [h.state]

theorem Alike.write (h : w.Alike old w') (id : String) (v : Value) :
    (w.write id v).Alike old (w'.write id v) :=
  ⟨congrArg (·.insert id v) h.state, h.population, h.log, h.clock, h.random⟩

theorem Alike.withPopulation (h : w.Alike old w') {p q : Population} (hpq : p.Alike q) :
    Alike old { w with population := p } { w' with population := q } :=
  ⟨h.state, hpq, h.log, h.clock, h.random⟩

theorem Alike.withLog (h : w.Alike old w') {log log' : MessageLog} (hlog : log.Alike old log') :
    Alike old { w with log } { w' with log := log' } :=
  ⟨h.state, h.population, hlog, h.clock, h.random⟩

theorem Alike.reset (h : w.Alike old w') (g : Game) : (w.reset g).Alike old (w'.reset g) :=
  ⟨rfl, h.population.clear, ⟨.refl _ _, h.log.capacity⟩, rfl, h.random⟩

/-- Computations on the random sources of worlds that are alike agree. -/
theorem Alike.draw (h : w.Alike old w') (x : Draws ρ α) :
    Agree (SameWith (Alike old)) (w.draw x) (w'.draw x) := by
  unfold World.draw
  rw [h.random]
  rcases x w'.random with ⟨e | a, r⟩
  · exact .error
  · exact .ok ⟨rfl, h.state, h.population, h.log, h.clock, rfl⟩

end World

end IdleGame
