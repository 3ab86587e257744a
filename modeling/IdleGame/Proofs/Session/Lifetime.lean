import IdleGame.Proofs.Session.Delivery
import IdleGame.Proofs.Session.Invariant
import IdleGame.Store.Memory

/-!
# Ids are never handed out twice

Whatever is done to a session, also when it is reset or goes on from a snapshot whose next id is
lower or whose entities have higher ids, an entity that is created gets an id above all that have
been handed out before and all that are taken.

## Main definitions

* `Session.Lifetime` - a session after any calls, with the entities that have been created in it

## Main results

* `Session.Reachable.lifetime` - every reachable session has a lifetime
* `Session.Lifetime.grows` - the entities have been born into one population that grows
* `Session.Lifetime.ids_never_reused` - the ids that are handed out increase, above the live ones
-/

namespace IdleGame

namespace Session

variable {ρ σ : Type} [RandomSource ρ] [SaveStore σ]

/-- A session of a game after any calls, whatever the store held when it loaded, with the entities
that have been created in it. -/
inductive Lifetime (g : Game) : List Birth → Session ρ σ → Prop
  | new {random store} : Lifetime g [] (ofGame g random store)
  | call {log s op a s'} (h : Lifetime g log s) (hcall : s.apply op = .ok (a, s')) :
      Lifetime g (log ++ s.births op) s'
  | share {log s store} (h : Lifetime g log s) : Lifetime g log { s with store }

/-- The entities that calls create, one after the other. -/
def birthsAll : List Operation → Session ρ σ → List Birth
  | [], _ => []
  | op :: ops, s => s.births op ++ Outcome.listed (s.apply op) fun (_, s') => birthsAll ops s'

variable {g : Game} {sources : Set ρ} {s s' : Session ρ σ} {log : List Birth}

/-- Every reachable session has a lifetime. -/
theorem Reachable.lifetime (h : s.Reachable g sources) : ∃ log, s.Lifetime g log := by
  induction h with
  | new => exact ⟨_, .new⟩
  | call _ hcall ih =>
    obtain ⟨log, hlifetime⟩ := ih
    exact ⟨_, hlifetime.call hcall⟩
  | share _ ih =>
    obtain ⟨log, hlifetime⟩ := ih
    exact ⟨log, hlifetime.share⟩

namespace Lifetime

/-- Calls prolong a lifetime. -/
theorem applyAll {ops : List Operation} {noted : List (Answer × Snapshot)}
    (h : s.Lifetime g log) (hcalls : applyAll ops s = .ok (noted, s')) :
    s'.Lifetime g (log ++ birthsAll ops s) := by
  induction ops generalizing s log noted with
  | nil =>
    obtain ⟨-, rfl⟩ := Prod.mk.inj (Except.ok.inj hcalls)
    rwa [birthsAll, List.append_nil]
  | cons op ops ih =>
    obtain ⟨⟨a, t⟩, hcall, hcalls⟩ := Outcome.bind_eq_ok_iff.mp hcalls
    obtain ⟨⟨noted', t'⟩, hlater, hcalls⟩ := Outcome.bind_eq_ok_iff.mp hcalls
    obtain ⟨-, rfl⟩ := Prod.mk.inj (Except.ok.inj hcalls)
    rw [birthsAll, hcall, Outcome.listed_ok, ← List.append_assoc]
    exact ih (h.call hcall) hlater

/-- Loading creates no entity, whether the slot is taken or not. -/
theorem load (h : s.Lifetime g log) (slot : String) : (s.load slot).2.Lifetime g log := by
  have hloaded : (s.load slot).2.Lifetime g (log ++ []) := h.call (apply_load s slot)
  rwa [List.append_nil] at hloaded

/-- The entities have been born one after the other into a population that was empty. -/
theorem grows (h : s.Lifetime g log) : Population.empty.Grows log s.world.population := by
  induction h with
  | new => exact .refl
  | call _ hcall ih => exact ih.append (apply_grows hcall)
  | share _ ih => exact ih

/-- An id that is handed out, by an action or from outside, is above all ids that have been handed
out before and above those of the entities that are live at that moment. -/
theorem ids_never_reused (h : s.Lifetime g log) :
    log.Pairwise (·.id.number < ·.id.number) ∧
    (∀ b ∈ log, ∀ e ∈ b.population.members, e.id.number < b.id.number) ∧
    ∀ kind properties id s', s.apply (.play (.spawn kind properties)) = .ok (.created id, s') →
      (∀ b ∈ log, b.id.number < id.number) ∧
      ∀ e ∈ s.world.population.members, e.id.number < id.number := by
  have hgrows := h.grows
  refine ⟨hgrows.increasing, hgrows.above Population.ordered_empty, ?_⟩
  intro kind properties id s' hspawn
  obtain ⟨hid, -⟩ := Prod.mk.inj (Except.ok.inj hspawn)
  obtain rfl := Answer.created.inj hid
  exact ⟨hgrows.lt_next, (hgrows.ordered Population.ordered_empty).below⟩

end Lifetime

end Session

/-- A game in which every tick two eggs are laid. -/
def henGame : Game where
  identity := { id := "hen", name := "Hen" }
  rules := [{ id := "lay", actions := [.spawn "egg" [], .spawn "egg" []] }]

namespace Session

/-- The nest before the hen comes. -/
def newNest : Session Xorshift MemoryStore := ofGame henGame (Xorshift.ofWord 3) MemoryStore.empty

/-- Somebody brings a hen, and then eggs are laid. -/
def nesting : List Operation := [.play .start, .play (.spawn "hen" Table.empty), .play .tick]

/-- The nest after these calls. -/
def nest : Session Xorshift MemoryStore :=
  match applyAll nesting newNest with
  | .ok (_, s) => s
  | .error _ => newNest

/-- The nest with a store that has a save from before the hen came. -/
def storedNest : Session Xorshift MemoryStore :=
  { nest with store := (newNest.save "early").2.store }

set_option maxRecDepth 10000 in
theorem newNest_calls : ∃ noted, applyAll nesting newNest = .ok (noted, nest) := by
  have hok : (applyAll nesting newNest).isOk := by decide +kernel
  obtain ⟨⟨noted, s⟩, h⟩ := Outcome.exists_eq_ok_of_isOk hok
  rw [nest, h]
  exact ⟨noted, rfl⟩

theorem storedNest_lifetime : storedNest.Lifetime henGame (birthsAll nesting newNest) := by
  obtain ⟨noted, hcalls⟩ := newNest_calls
  have hnest : nest.Lifetime henGame ([] ++ birthsAll nesting newNest) :=
    Lifetime.new.applyAll hcalls
  rw [List.nil_append] at hnest
  exact hnest.share

set_option maxRecDepth 10000 in
theorem newNest_births : (birthsAll nesting newNest).map Birth.id = [⟨0⟩, ⟨1⟩, ⟨2⟩] := by
  decide +kernel

/-- When that save is loaded, the ids of the hen and the eggs stay taken, though it knows nothing of
them. -/
theorem storedNest_ids_never_reused :
    (birthsAll nesting newNest).map Birth.id = [⟨0⟩, ⟨1⟩, ⟨2⟩] ∧
    (birthsAll nesting newNest).Pairwise (·.id.number < ·.id.number) ∧
    (∀ b ∈ birthsAll nesting newNest, ∀ e ∈ b.population.members, e.id.number < b.id.number) ∧
    ∀ kind properties id s',
      (storedNest.load "early").2.apply (.play (.spawn kind properties)) = .ok (.created id, s') →
      (∀ b ∈ birthsAll nesting newNest, b.id.number < id.number) ∧
      ∀ e ∈ (storedNest.load "early").2.world.population.members, e.id.number < id.number :=
  ⟨newNest_births, (storedNest_lifetime.load "early").ids_never_reused⟩

end Session

end IdleGame
