import IdleGame.Proofs.Action.Frame
import IdleGame.Proofs.Action.Step
import IdleGame.Proofs.Action.Unseen
import IdleGame.Proofs.Entity.Listing

/-!
# The account of entities

Actions report the ids of the entities that they create and of those that they remove. The reports
account for what becomes of the population: who is live after a run was live before it or has been
created in it, and has not been removed. No id is removed twice, however often loops come to it.

A scope starts with no effects. Whether lists are run in one scope, or each in a scope of its own
with the effects put together, comes to the same.

## Main definitions

* `Population.Balance` - what has been created and removed accounts for a population
* `Scope.Accounts` - what is reported between two scopes accounts for the population
* `Batch` - actions that are run in a scope of their own
* `Batch.runEach` - a run of batches, with their effects put together

## Main results

* `Population.Balance.append` - two accounts make one
* `Action.runAll_accounts` - what a run of actions adds to the reports accounts for the population
* `Action.runAll_behind` - a run does the same behind any effects
* `Batch.runEach_balances` - the account of one list, of batches, and of one list made of many
-/

namespace IdleGame

namespace Population

/-- One population comes from another by the creation of some entities, with the ids that are next,
and the removal of others, each once. -/
structure Balance (p : Population) (spawned despawned : List EntityId) (p' : Population) :
    Prop where
  next_le : p.next ≤ p'.next
  spawned_eq : spawned = (List.range' p.next (p'.next - p.next)).map EntityId.mk
  live : ∀ id, p'.contains id ↔ (p.contains id ∨ id ∈ spawned) ∧ id ∉ despawned
  once : despawned.Nodup
  known : ∀ id ∈ despawned, p.contains id ∨ id ∈ spawned

variable {p p' p'' : Population} {spawned spawned' despawned despawned' : List EntityId}
  {id : EntityId}

namespace Balance

theorem mem_spawned (h : p.Balance spawned despawned p') :
    id ∈ spawned ↔ p.next ≤ id.number ∧ id.number < p'.next := by
  obtain ⟨n⟩ := id
  have hle := h.next_le
  simp only [h.spawned_eq, List.mem_map, List.mem_range'_1, EntityId.mk.injEq, exists_eq_right]
  omega

/-- An id that had been handed out before is not handed out again. -/
theorem not_mem_spawned (h : p.Balance spawned despawned p') (hid : id.number < p.next) :
    id ∉ spawned := fun hspawned => Nat.not_le.mpr hid (h.mem_spawned.mp hspawned).1

/-- Nobody comes and nobody goes. -/
theorem of_same (hnext : p'.next = p.next) (hlive : ∀ id, p'.contains id = p.contains id) :
    p.Balance [] [] p' where
  next_le := Nat.le_of_eq hnext.symm
  spawned_eq := by rw [hnext, Nat.sub_self, List.range'_zero, List.map_nil]
  live id := by simp [hlive]
  once := .nil
  known := nofun

theorem of_spawn (kind : String) (properties : Values) :
    p.Balance [⟨p.next⟩] [] (p.spawn kind properties).2 where
  next_le := Nat.le_succ _
  spawned_eq := by
    change _ = (List.range' p.next (p.next + 1 - p.next)).map _
    rw [Nat.add_sub_cancel_left]
    rfl
  live id := by
    rw [contains_spawn, List.mem_singleton]
    exact (and_iff_left List.not_mem_nil).symm
  once := .nil
  known := nofun

theorem of_remove (h : p.contains id) : p.Balance [] [id] (p.remove id).2 where
  next_le := Nat.le_of_eq next_remove.symm
  spawned_eq := by rw [next_remove, Nat.sub_self, List.range'_zero, List.map_nil]
  live id' := by rw [contains_remove, List.mem_singleton, or_iff_left List.not_mem_nil]
  once := List.pairwise_singleton _ _
  known id' h' := .inl (List.mem_singleton.mp h' ▸ h)

theorem idsBelowNext (h : p.Balance spawned despawned p') (hp : p.IdsBelowNext) :
    p'.IdsBelowNext := by
  intro e he
  rcases ((h.live e.id).mp (contains_iff_mem.mpr ⟨e, he, rfl⟩)).1 with hid | hid
  · exact Nat.lt_of_lt_of_le (hp.lt_next hid) h.next_le
  · exact (h.mem_spawned.mp hid).2

/-- What has been removed had an id below the one that is next now. -/
theorem lt_next (h : p.Balance spawned despawned p') (hp : p.IdsBelowNext)
    (hid : id ∈ despawned) : id.number < p'.next := by
  rcases h.known id hid with hid | hid
  · exact Nat.lt_of_lt_of_le (hp.lt_next hid) h.next_le
  · exact (h.mem_spawned.mp hid).2

/-- Two accounts make one. Who is removed in the second was live before it or is new then; by the
first account neither has been removed before. -/
theorem append (h : p.Balance spawned despawned p') (h' : p'.Balance spawned' despawned' p'')
    (hp : p.IdsBelowNext) : p.Balance (spawned ++ spawned') (despawned ++ despawned') p'' := by
  have hle := h.next_le
  have hle' := h'.next_le
  -- The ids that are new in the second account are above all that the first one knows.
  have hnew : ∀ id ∈ spawned', id ∉ despawned := by
    intro id hspawned hdespawned
    exact Nat.not_lt.mpr (h'.mem_spawned.mp hspawned).1 (h.lt_next hp hdespawned)
  refine ⟨Nat.le_trans hle hle', ?spawned_eq, ?live, ?once, ?known⟩
  case spawned_eq =>
    have hlength : p'.next - p.next + (p''.next - p'.next) = p''.next - p.next := by omega
    have hstart : p.next + (p'.next - p.next) = p'.next := by omega
    rw [h.spawned_eq, h'.spawned_eq, ← List.map_append, ← hlength, ← List.range'_append_1, hstart]
  case live =>
    intro id
    rw [h'.live, h.live, List.mem_append, List.mem_append, not_or]
    constructor
    · rintro ⟨⟨hid, hkept⟩ | hid, hkept'⟩
      · exact ⟨hid.imp_right .inl, hkept, hkept'⟩
      · exact ⟨.inr (.inr hid), hnew id hid, hkept'⟩
    · rintro ⟨hid, hkept, hkept'⟩
      refine ⟨?_, hkept'⟩
      rcases hid with hid | hid | hid
      · exact .inl ⟨.inl hid, hkept⟩
      · exact .inl ⟨.inr hid, hkept⟩
      · exact .inr hid
  case once =>
    refine List.nodup_append.mpr ⟨h.once, h'.once, ?_⟩
    rintro id hid _ hid' rfl
    rcases h'.known id hid' with hlive | hspawned
    · exact ((h.live id).mp hlive).2 hid
    · exact hnew id hspawned hid
  case known =>
    intro id hid
    rw [List.mem_append]
    rcases List.mem_append.mp hid with hid | hid
    · exact (h.known id hid).imp_right .inl
    · rcases h'.known id hid with hlive | hspawned
      -- Who is live in between is accounted for by the first account.
      · exact ((h.live id).mp hlive).1.imp_right .inl
      · exact .inr (.inr hspawned)

end Balance

end Population

variable {ρ α : Type}

namespace Effects

theorem append_assoc (a b c : Effects) : a ++ b ++ c = a ++ (b ++ c) := by
  change append (append a b) c = append a (append b c)
  simp only [append, List.append_assoc]

theorem append_none (a : Effects) : a ++ none = a := by
  change append a none = a
  simp only [append, none, List.append_nil]

end Effects

namespace Scope

/-- One scope comes from another by what is reported in between, which accounts for the
population. -/
structure Balances (s : Scope ρ) (spawned despawned : List EntityId) (s' : Scope ρ) : Prop where
  population : s.world.population.Balance spawned despawned s'.world.population
  spawned : s'.effects.spawned = s.effects.spawned ++ spawned
  despawned : s'.effects.despawned = s.effects.despawned ++ despawned

variable {s s' s'' : Scope ρ} {spawned spawned' despawned despawned' : List EntityId}

/-- Two accounts make one, and so do their reports. -/
theorem Balances.append (h : s.Balances spawned despawned s')
    (h' : s'.Balances spawned' despawned' s'') (hs : s.world.population.IdsBelowNext) :
    s.Balances (spawned ++ spawned') (despawned ++ despawned') s'' where
  population := h.population.append h'.population hs
  spawned := by rw [h'.spawned, h.spawned, List.append_assoc]
  despawned := by rw [h'.despawned, h.despawned, List.append_assoc]

/-- Whatever is reported between two scopes accounts for the population. -/
def Accounts (s s' : Scope ρ) : Prop := ∃ spawned despawned, s.Balances spawned despawned s'

namespace Accounts

/-- The next id and the live ones are what they were, and no id is reported. -/
theorem of_same (hnext : s'.world.population.next = s.world.population.next)
    (hlive : ∀ id, s'.world.population.contains id = s.world.population.contains id)
    (hspawned : s'.effects.spawned = s.effects.spawned)
    (hdespawned : s'.effects.despawned = s.effects.despawned) : s.Accounts s' :=
  ⟨[], [], .of_same hnext hlive, hspawned.trans (List.append_nil _).symm,
    hdespawned.trans (List.append_nil _).symm⟩

theorem refl (s : Scope ρ) : s.Accounts s := .of_same rfl (fun _ => rfl) rfl rfl

theorem trans (h : s.Accounts s') (h' : s'.Accounts s'') (hs : s.world.population.IdsBelowNext) :
    s.Accounts s'' := by
  obtain ⟨spawned, despawned, h⟩ := h
  obtain ⟨spawned', despawned', h'⟩ := h'
  exact ⟨_, _, h.append h' hs⟩

theorem idsBelowNext (h : s.Accounts s') (hs : s.world.population.IdsBelowNext) :
    s'.world.population.IdsBelowNext := by
  obtain ⟨spawned, despawned, h⟩ := h
  exact h.population.idsBelowNext hs

end Accounts

/-- Nothing is created or removed by finding out what is needed. -/
theorem Prepares.accounts {a : Action} (h : s.Prepares a s') : s.Accounts s' := by
  cases h
  exact .of_same rfl (fun _ => rfl) rfl rfl

/-- A plain action reports what it creates or removes. -/
theorem Acts.accounts {target : Option EntityId} (h : s.Acts target s') : s.Accounts s' := by
  cases h with
  | idle => exact .refl s
  | written | logged => exact .of_same rfl (fun _ => rfl) rfl rfl
  | reported => exact .of_same rfl (fun _ => rfl) (List.append_nil _) (List.append_nil _)
  | spawned kind properties => exact ⟨_, [], .of_spawn kind properties, rfl, rfl⟩
  | modified _ hid => exact .of_same rfl (fun _ => Population.contains_modify hid) rfl rfl
  | removed _ hget =>
    exact ⟨[], _, .of_remove (Population.contains_iff.mpr ⟨_, hget⟩), rfl, rfl⟩

/-- A scope with effects from before in front of its own. -/
def behind (effects : Effects) (s : Scope ρ) : Scope ρ := { s with effects := effects ++ s.effects }

/-- Effects from before are not seen by expressions, draws and loops. -/
theorem unseen_behind (effects : Effects) : Unseen (behind effects : Scope ρ → Scope ρ) where
  view _ _ _ := rfl
  population _ := rfl
  draw x s := by
    simp only [draw, behind]
    rcases s.world.draw x with f | ⟨a, w⟩ <;> rfl

end Scope

namespace Action

variable [RandomSource ρ] {env : Surroundings} {target : Option EntityId} {a : Action}
  {as body : List Action} {s s' : Scope ρ} {effects : Effects}

/-- What a run of actions adds to the reports accounts for the population. -/
theorem runAll_accounts (hs : s.world.population.IdsBelowNext)
    (h : runAll env target as s = .ok s') : s.Accounts s' := by
  -- Each step adds its own account to the one so far.
  refine runAll_preserves (T := fun _ => True) (motive := s.Accounts) ?_ ?_
    (fun _ _ _ _ _ _ _ _ => trivial) trivial (.refl s) h
  · intro _ _ s₁ s₂ h₁ hprepares
    exact h₁.trans hprepares.accounts hs
  · intro _ _ s₁ s₂ h₁ hacts
    exact h₁.trans hacts.accounts hs

/-- What a run from no effects reports accounts for the population. -/
theorem runAll_balance {w : World ρ} (hw : w.population.IdsBelowNext)
    (h : runAll env target as ⟨w, Effects.none⟩ = .ok s') :
    w.population.Balance s'.effects.spawned s'.effects.despawned s'.world.population := by
  obtain ⟨spawned, despawned, hs⟩ := runAll_accounts hw h
  obtain rfl : s'.effects.spawned = spawned := hs.spawned
  obtain rfl : s'.effects.despawned = despawned := hs.despawned
  exact hs.population

/-- An action does the same behind any effects, if the lists within do. -/
theorem run_behind_of_bodies
    (hbodies : ∀ body ∈ a.bodies, Follows (Scope.behind (ρ := ρ) effects) env body body) :
    run env target a (s.behind effects) = Scope.behind effects <$> run env target a s := by
  have hunseen : Scope.Unseen (Scope.behind (ρ := ρ) effects) := Scope.unseen_behind effects
  cases a with
  | message => rfl
  | set | add | multiply =>
    rw [run, run]
    exact Outcome.bind_hom (hunseen.eval _) fun _ => rfl
  | emit | trigger | spawn =>
    rw [run, run]
    refine Outcome.bind_hom (hunseen.evalEntries _) fun result => ?_
    exact congrArg (fun effects => Except.ok (Scope.mk _ effects)) (Effects.append_assoc _ _ _)
  | setProp | addProp =>
    rcases target with _ | id
    · rfl
    · rw [run, run]
      exact Outcome.bind_hom (hunseen.eval _) fun _ => rfl
  | despawn =>
    rcases target with _ | id
    · rfl
    · have hremove : (s.behind effects).world.population.remove id = s.world.population.remove id :=
        rfl
      rw [run, run, hremove]
      rcases s.world.population.remove id with ⟨_ | _, population⟩
      · rfl
      · exact congrArg (fun effects => Except.ok (Scope.mk _ effects)) (Effects.append_assoc _ _ _)
  | branch condition yes no =>
    exact run_branch_unseen hunseen (hbodies yes (by simp [bodies])) (hbodies no (by simp [bodies]))
  | random choices =>
    have hsame : choices.map (fun c => Choice.mk c.weight (id c.actions)) = choices := by
      refine (List.map_congr_left fun c _ => ?_).trans (List.map_id choices)
      obtain ⟨w, as⟩ := c
      rfl
    have hrandom : run env target (.random (choices.map fun c => .mk c.weight (id c.actions)))
        (s.behind effects) = Scope.behind effects <$> run env target (.random choices) s :=
      run_random_unseen hunseen fun c hc => hbodies c.actions (List.mem_map_of_mem hc)
    rwa [hsame] at hrandom
  | forEach kind filter body =>
    exact run_forEach_unseen hunseen (hbodies body (List.mem_singleton_self _))

/-- A run does the same behind any effects. -/
theorem runAll_behind (effects : Effects) (s : Scope ρ) :
    runAll env target as (s.behind effects) = Scope.behind effects <$> runAll env target as s := by
  induction as using list_induction generalizing target s with
  | nil => rfl
  | cons a as ihbodies ih =>
    rw [runAll, runAll]
    exact Outcome.bind_hom (run_behind_of_bodies fun body h _ _ => ihbodies body h _) ih

end Action

/-- Actions that are run in a scope of their own. -/
structure Batch where
  env : Surroundings
  target : Option EntityId
  actions : List Action

namespace Batch

variable [RandomSource ρ]

/-- Runs batches one after the other and puts their effects together. -/
def runEach : List Batch → World ρ → Except Fault (Scope ρ)
  | [], w => return ⟨w, Effects.none⟩
  | b :: bs, w => do
    let s ← Action.runAll b.env b.target b.actions ⟨w, Effects.none⟩
    let s' ← runEach bs s.world
    return s'.behind s.effects

theorem runEach_balance {bs : List Batch} {w : World ρ} {s' : Scope ρ}
    (hw : w.population.IdsBelowNext) (h : runEach bs w = .ok s') :
    w.population.Balance s'.effects.spawned s'.effects.despawned s'.world.population := by
  induction bs generalizing w s' with
  | nil =>
    obtain rfl := Except.ok.inj h
    exact .of_same rfl fun _ => rfl
  | cons b bs ih =>
    rw [runEach] at h
    obtain ⟨s₁, h₁, h⟩ := Outcome.bind_eq_ok_iff.mp h
    obtain ⟨s₂, h₂, h⟩ := Outcome.bind_eq_ok_iff.mp h
    obtain rfl := Except.ok.inj h
    have hfirst := Action.runAll_balance hw h₁
    exact hfirst.append (ih (hfirst.idsBelowNext hw) h₂) hw

/-- Batches with the same surroundings and target are run like one list made of all of them. -/
theorem runEach_eq_runAll_flatten {env : Surroundings} {target : Option EntityId}
    {lists : List (List Action)} {w : World ρ} :
    runEach (lists.map (⟨env, target, ·⟩)) w =
      Action.runAll env target lists.flatten ⟨w, Effects.none⟩ := by
  induction lists generalizing w with
  | nil => rfl
  | cons as lists ih =>
    rw [List.map_cons, runEach, List.flatten_cons, Action.runAll_append]
    refine congrArg (_ >>= ·) (funext fun s => ?_)
    -- In one scope the later lists go on behind the effects of the first one.
    have hbehind : s = Scope.behind s.effects ⟨s.world, Effects.none⟩ :=
      congrArg (Scope.mk s.world) (Effects.append_none s.effects).symm
    have hlater := congrArg (Action.runAll env target lists.flatten) hbehind
    rw [Action.runAll_behind] at hlater
    rw [ih, bind_pure_comp]
    exact hlater.symm

/-- In a world whose live ids are below the next one, the effects of a run account for its
population: it holds those who were live before or have been created, without those that have been
removed; the created ones have the ids from the next one before the run up to the next one after
it, in this order; no id is removed twice, and each was live before or has been created. The same
account is given by the effects of batches put together, whatever they are run with. And if that is
the same for all of them, they come to what one list made of all of them comes to, be it a result
or a fault. -/
theorem runEach_balances (w : World ρ) (hw : w.population.IdsBelowNext) :
    (∀ env target as s', Action.runAll env target as ⟨w, Effects.none⟩ = .ok s' →
      w.population.Balance s'.effects.spawned s'.effects.despawned s'.world.population) ∧
    (∀ bs s', runEach bs w = .ok s' →
      w.population.Balance s'.effects.spawned s'.effects.despawned s'.world.population) ∧
    ∀ env target (lists : List (List Action)), runEach (lists.map (⟨env, target, ·⟩)) w =
      Action.runAll env target lists.flatten ⟨w, Effects.none⟩ :=
  ⟨fun _ _ _ _ => Action.runAll_balance hw, fun _ _ => runEach_balance hw,
    fun _ _ _ => runEach_eq_runAll_flatten⟩

end Batch

/-- No declared variables and no parameters. -/
def Surroundings.empty : Surroundings := ⟨Table.empty, Table.empty⟩

/-- A world with two cards and a stall. -/
def fairground : World Script :=
  ⟨Table.empty, Population.restore Population.stalls 1, MessageLog.ofCapacity 0, Clock.start,
    ⟨[], 0⟩⟩

/-- Every card makes room for a new one, and says so twice; then all cards go. -/
def clearance : List (List Action) :=
  [[.forEach "card" none [.spawn "card" [], .despawn, .despawn]],
    [.forEach "card" none [.despawn]]]

theorem clearance_balances :
    fairground.population.IdsBelowNext ∧
    (∃ s', Batch.runEach (clearance.map (⟨.empty, none, ·⟩)) fairground = .ok s' ∧
      s'.world.population.members.map Entity.id = [⟨2⟩] ∧
      fairground.population.Balance [⟨6⟩, ⟨7⟩] [⟨3⟩, ⟨5⟩, ⟨6⟩, ⟨7⟩] s'.world.population) ∧
    Batch.runEach (clearance.map (⟨.empty, none, ·⟩)) fairground =
      Action.runAll .empty none clearance.flatten ⟨fairground, Effects.none⟩ := by
  have hbelow : fairground.population.IdsBelowNext := by decide
  obtain ⟨-, hbatches, hflatten⟩ := Batch.runEach_balances fairground hbelow
  obtain ⟨s', hrun, hlive, hspawned, hdespawned⟩ :
      ∃ s', Batch.runEach (clearance.map (⟨.empty, none, ·⟩)) fairground = .ok s' ∧
        s'.world.population.members.map Entity.id = [⟨2⟩] ∧
        s'.effects.spawned = [⟨6⟩, ⟨7⟩] ∧ s'.effects.despawned = [⟨3⟩, ⟨5⟩, ⟨6⟩, ⟨7⟩] :=
    ⟨_, rfl, rfl, rfl, rfl⟩
  have hbalance := hbatches _ s' hrun
  rw [hspawned, hdespawned] at hbalance
  exact ⟨hbelow, ⟨s', hrun, hlive, hbalance⟩, hflatten _ _ _⟩

end IdleGame
