import IdleGame.Proofs.Action.Frame
import IdleGame.Proofs.Action.Unseen

/-!
# Actions without their messages

Messages are removed from a list of actions at all depths, and from a world its message log. The
list that is left does to the world without messages what the whole list does to the world: a
message reads the variables and the clock, but it draws nothing, and the log is never read.

## Main definitions

* `Action.muteAll` - a list of actions without the messages in it
* `World.mute` - a world without messages, and with room for some number of them

## Main results

* `Action.not_isMessage_of_mem_muteAll` - no message is left, at any depth
* `Action.muteAll_eq_self` - nothing but messages is removed
* `Action.runAll_muteAll` - a run of the list that is left ends where a run of the whole list does
-/

namespace IdleGame

variable {ρ α : Type} {capacity : Nat}

namespace World

variable {w : World ρ}

/-- The world with an empty message log of some capacity. -/
def mute (capacity : Nat) (w : World ρ) : World ρ :=
  { w with log := MessageLog.ofCapacity capacity }

/-- What is drawn in a world does not depend on its messages. -/
theorem draw_mute (x : Draws ρ α) :
    (w.mute capacity).draw x = Prod.map id (mute capacity) <$> w.draw x := by
  obtain ⟨state, population, log, clock, random⟩ := w
  simp only [draw, mute]
  rcases x random with ⟨f | a, random'⟩ <;> rfl

end World

namespace Scope

variable {s : Scope ρ}

/-- The scope with an empty message log of some capacity. -/
def mute (capacity : Nat) (s : Scope ρ) : Scope ρ := s.onWorld (World.mute capacity)

/-- Messages are not seen by expressions, draws and loops. -/
theorem unseen_mute : Unseen (mute capacity : Scope ρ → Scope ρ) where
  view _ _ _ := rfl
  population _ := rfl
  draw x _ := Outcome.bind_hom (World.draw_mute x) fun _ => rfl

variable [RandomSource ρ] {env : Surroundings} {target : Option EntityId}

/-- Expressions do not read messages. -/
theorem eval_mute (e : Expr) :
    (s.mute capacity).eval env target e = Prod.map id (mute capacity) <$> s.eval env target e :=
  unseen_mute.eval e

end Scope

namespace Action

mutual

/-- An action without the messages in it, which is nothing if it is a message. -/
def mute : Action → List Action
  | .message .. => []
  | .branch condition yes no => [.branch condition (muteAll yes) (muteAll no)]
  | .random choices => [.random (muteChoices choices)]
  | .forEach kind filter body => [.forEach kind filter (muteAll body)]
  | a@(.set ..) | a@(.add ..) | a@(.multiply ..) | a@(.emit ..) | a@(.trigger ..) | a@(.spawn ..)
  | a@(.setProp ..) | a@(.addProp ..) | a@.despawn => [a]

/-- The actions of a list without the messages in them. -/
def muteAll : List Action → List Action
  | [] => []
  | a :: as => mute a ++ muteAll as

/-- Choices without the messages in them. A choice stays with its weight, even if it does nothing
any more. -/
def muteChoices : List Choice → List Choice
  | [] => []
  | .mk w as :: cs => .mk w (muteAll as) :: muteChoices cs

end

/-- Whether an action is a message. -/
def isMessage : Action → Bool
  | .message .. => true
  | _ => false

theorem muteChoices_eq_map (choices : List Choice) :
    muteChoices choices = choices.map fun c => .mk c.weight (muteAll c.actions) := by
  induction choices with
  | nil => rfl
  | cons c cs ih =>
    obtain ⟨w, as⟩ := c
    rw [muteChoices, ih]
    rfl

theorem muteChoices_bodies (choices : List Choice) :
    (muteChoices choices).map Choice.actions = (choices.map Choice.actions).map muteAll := by
  simp [muteChoices_eq_map, Choice.actions]

/-- The lists within what is left of an action are what is left of the lists within it. -/
theorem bodies_of_mem_mute {a b : Action} (h : b ∈ a.mute) : b.bodies = a.bodies.map muteAll := by
  cases a with
  | random choices =>
    obtain rfl := List.mem_singleton.mp h
    exact muteChoices_bodies choices
  | message => cases h
  | _ =>
    obtain rfl := List.mem_singleton.mp h
    rfl

theorem not_isMessage_of_mem_mute {a b : Action} (h : b ∈ a.mute) : ¬ b.isMessage := by
  cases a <;> simp_all [mute, isMessage]

/-- No message is left in a list, at any depth. -/
theorem not_isMessage_of_mem_muteAll {as : List Action} {b : Action}
    (h : b ∈ nodesOfAll (muteAll as)) : ¬ b.isMessage := by
  induction as using list_induction generalizing b with
  | nil => cases h
  | cons a as ihbodies ih =>
    rw [muteAll, mem_nodesOfAll] at h
    obtain ⟨a', ha, hb⟩ := h
    rcases List.mem_append.mp ha with ha | ha
    · rcases mem_nodes.mp hb with rfl | ⟨body, hbody, hb⟩
      · exact not_isMessage_of_mem_mute ha
      · rw [bodies_of_mem_mute ha] at hbody
        obtain ⟨body', hmem, rfl⟩ := List.mem_map.mp hbody
        exact ihbodies body' hmem hb
    · exact ih (mem_nodesOfAll.mpr ⟨a', ha, hb⟩)

theorem mute_eq_self {a : Action} (hbodies : ∀ body ∈ a.bodies, muteAll body = body)
    (h : ¬ a.isMessage) : a.mute = [a] := by
  cases a with
  | message => simp [isMessage] at h
  | branch condition yes no => simp_all [mute, bodies]
  | forEach kind filter body => simp_all [mute, bodies]
  | random choices =>
    have hchoices : muteChoices choices = choices := by
      rw [muteChoices_eq_map]
      refine (List.map_congr_left fun c hc => ?_).trans (List.map_id choices)
      have hbody := hbodies c.actions (List.mem_map_of_mem hc)
      obtain ⟨w, as⟩ := c
      exact congrArg (Choice.mk w) hbody
    rw [mute, hchoices]
  | _ => rfl

/-- A list in which no message stands is left as it is. -/
theorem muteAll_eq_self {as : List Action} (h : ∀ b ∈ nodesOfAll as, ¬ b.isMessage) :
    muteAll as = as := by
  induction as using list_induction with
  | nil => rfl
  | cons a as ihbodies ih =>
    have hbodies : ∀ body ∈ a.bodies, muteAll body = body := by
      intro body hbody
      exact ihbodies body hbody fun b hb => h b (nodesOfAll_subset_of_mem_bodies hbody hb)
    rw [muteAll, mute_eq_self hbodies (h a mem_nodesOfAll_head),
      ih fun b hb => h b (nodesOfAll_subset_cons hb)]
    rfl

variable [RandomSource ρ] {env : Surroundings} {target : Option EntityId} {s : Scope ρ}

theorem runAll_singleton {a : Action} : runAll env target [a] s = run env target a s := by
  rw [runAll]
  simp only [runAll]
  exact bind_pure _

/-- What is left of an action does what the action does, if this holds of the lists within. -/
theorem runAll_mute {a : Action}
    (hbodies : ∀ body ∈ a.bodies, Follows (Scope.mute (ρ := ρ) capacity) env body (muteAll body)) :
    runAll env target a.mute (s.mute capacity) = Scope.mute capacity <$> run env target a s := by
  cases a with
  | message template kind => rfl
  | set | add | multiply =>
    rw [mute, runAll_singleton, run, run]
    exact Outcome.bind_hom (Scope.eval_mute _) fun _ => rfl
  | emit | trigger | spawn =>
    rw [mute, runAll_singleton, run, run]
    exact Outcome.bind_hom (Scope.unseen_mute.evalEntries _) fun _ => rfl
  | setProp | addProp =>
    rw [mute, runAll_singleton]
    rcases target with _ | id
    · rfl
    · rw [run, run]
      exact Outcome.bind_hom (Scope.eval_mute _) fun _ => rfl
  | despawn =>
    rw [mute, runAll_singleton]
    rcases target with _ | id
    · rfl
    · have hremove : (s.mute capacity).world.population.remove id = s.world.population.remove id :=
        rfl
      rw [run, run, hremove]
      rcases s.world.population.remove id with ⟨_ | _, population⟩ <;> rfl
  | branch condition yes no =>
    rw [mute, runAll_singleton]
    exact run_branch_unseen Scope.unseen_mute (hbodies yes (by simp [bodies]))
      (hbodies no (by simp [bodies]))
  | random choices =>
    rw [mute, runAll_singleton, muteChoices_eq_map]
    exact run_random_unseen Scope.unseen_mute fun c hc =>
      hbodies c.actions (List.mem_map_of_mem hc)
  | forEach kind filter body =>
    rw [mute, runAll_singleton]
    exact run_forEach_unseen Scope.unseen_mute (hbodies body (List.mem_singleton_self _))

/-- A run of what is left of a list, in a world without messages, ends where a run of the list
does, but for the messages. -/
theorem runAll_muteAll (as : List Action) :
    runAll env target (muteAll as) (s.mute capacity) =
      Scope.mute capacity <$> runAll env target as s := by
  -- A loop runs its body with each entity as the target, so the target is not fixed.
  induction as using list_induction generalizing target s with
  | nil => rfl
  | cons a as ihbodies ih =>
    rw [muteAll, runAll_append, runAll]
    exact Outcome.bind_hom (runAll_mute fun body h _ _ => ihbodies body h) fun _ => ih

end Action

end IdleGame
