import IdleGame.Action

/-!
# The actions within an action

Actions are nested through lists: the branches of a branch, the choices of a random action, the
body of a loop. What holds of the lists within an action and of the rest of a list holds of the
list, and that is the induction that follows the nesting.

## Main definitions

* `Action.bodies` - the lists right within an action
* `Action.exprs` - the expressions of an action that are not part of the actions within
* `Action.StandsIn` - an action stands in a list, at any depth

## Main results

* `Action.list_induction` - induction on lists of actions along the nesting
* `Action.mem_nodesOfAll_cons` - the nodes of a list
* `Action.mem_nodesOfAll_iff_standsIn` - the nodes are the actions that stand in a list
-/

namespace IdleGame.Action

/-- The lists of actions right within an action. -/
def bodies : Action → List (List Action)
  | branch _ yes no => [yes, no]
  | random choices => choices.map Choice.actions
  | forEach _ _ body => [body]
  | set .. | add .. | multiply .. | message .. | emit .. | trigger .. | spawn .. | setProp ..
  | addProp .. | despawn => []

/-- The expressions of an action that are not part of the actions within. -/
def exprs : Action → List Expr
  | set _ e | add _ e | multiply _ e | setProp _ e | addProp _ e => [e]
  | branch condition _ _ => [condition]
  | emit _ data => data.map Prod.snd
  | trigger _ params => params.map Prod.snd
  | spawn _ properties => properties.map Prod.snd
  | forEach _ filter _ => filter.toList
  | random _ | message .. | despawn => []

/-- An action stands in a list of actions, as one of them or in a list within one of them. -/
inductive StandsIn (b : Action) : List Action → Prop
  | here {as} (h : b ∈ as) : StandsIn b as
  | within {a as body} (ha : a ∈ as) (hbody : body ∈ a.bodies) (h : StandsIn b body) :
      StandsIn b as

theorem sizeOf_lt_of_mem_bodies {a : Action} {body : List Action} (h : body ∈ a.bodies) :
    sizeOf body < sizeOf a := by
  cases a with
  | branch c yes no =>
    simp only [bodies, List.mem_cons, List.not_mem_nil, or_false] at h
    rcases h with rfl | rfl <;> simp only [branch.sizeOf_spec] <;> omega
  | random choices =>
    obtain ⟨⟨w, as⟩, hc, rfl⟩ := List.mem_map.mp h
    have := List.sizeOf_lt_of_mem hc
    simp only [Choice.mk.sizeOf_spec] at this
    simp only [Choice.actions, random.sizeOf_spec]
    omega
  | forEach kind filter body =>
    obtain rfl := List.mem_singleton.mp h
    simp only [forEach.sizeOf_spec]
    omega
  | _ => simp [bodies] at h

/-- What holds of a list when it holds of the lists within its first action and of its rest holds
of every list. -/
theorem list_induction {motive : List Action → Prop} (nil : motive [])
    (cons : ∀ a as, (∀ body ∈ a.bodies, motive body) → motive as → motive (a :: as))
    (as : List Action) : motive as := by
  induction hsize : sizeOf as using Nat.strongRecOn generalizing as with
  | _ n ih =>
    rcases as with _ | ⟨a, as⟩
    · exact nil
    · simp only [List.cons.sizeOf_spec] at hsize
      refine cons a as (fun body h => ?_) (ih _ (by omega) as rfl)
      have := sizeOf_lt_of_mem_bodies h
      exact ih _ (by omega) body rfl

theorem mem_nodesOfChoices {a : Action} {choices : List Choice} :
    a ∈ nodesOfChoices choices ↔ ∃ c ∈ choices, a ∈ nodesOfAll c.actions := by
  induction choices with
  | nil => simp [nodesOfChoices]
  | cons c cs ih =>
    obtain ⟨w, as⟩ := c
    simp [nodesOfChoices, ih, Choice.actions]

/-- The nodes of an action are itself and those of the lists within. -/
theorem mem_nodes {a b : Action} :
    b ∈ a.nodes ↔ b = a ∨ ∃ body ∈ a.bodies, b ∈ nodesOfAll body := by
  cases a with
  | random choices =>
    simp only [nodes, bodies, List.mem_cons, mem_nodesOfChoices, List.mem_map]
    grind
  | _ => simp [nodes, bodies]

/-- The nodes of a list are its first action, the nodes of the lists within it, and the nodes of
the rest. -/
theorem mem_nodesOfAll_cons {a b : Action} {as : List Action} :
    b ∈ nodesOfAll (a :: as) ↔
      (b = a ∨ ∃ body ∈ a.bodies, b ∈ nodesOfAll body) ∨ b ∈ nodesOfAll as := by
  rw [nodesOfAll, List.mem_append, mem_nodes]

theorem nodesOfAll_subset_of_mem_bodies {a : Action} {body as : List Action}
    (h : body ∈ a.bodies) : nodesOfAll body ⊆ nodesOfAll (a :: as) :=
  fun _ hb => mem_nodesOfAll_cons.mpr (.inl (.inr ⟨body, h, hb⟩))

theorem nodesOfAll_subset_cons {a : Action} {as : List Action} :
    nodesOfAll as ⊆ nodesOfAll (a :: as) :=
  fun _ hb => mem_nodesOfAll_cons.mpr (.inr hb)

theorem mem_nodesOfAll_head {a : Action} {as : List Action} : a ∈ nodesOfAll (a :: as) :=
  mem_nodesOfAll_cons.mpr (.inl (.inl rfl))

theorem mem_nodesOfAll {b : Action} {as : List Action} :
    b ∈ nodesOfAll as ↔ ∃ a ∈ as, b ∈ a.nodes := by
  induction as with
  | nil => simp [nodesOfAll]
  | cons a as ih => simp [nodesOfAll, ih]

/-- The nodes of a list are exactly the actions that stand in it. -/
theorem mem_nodesOfAll_iff_standsIn {b : Action} {as : List Action} :
    b ∈ nodesOfAll as ↔ b.StandsIn as := by
  constructor
  · intro h
    induction as using list_induction with
    | nil => cases h
    | cons a as ihbodies ih =>
      rcases mem_nodesOfAll_cons.mp h with (rfl | ⟨body, hbody, hb⟩) | hb
      · exact .here List.mem_cons_self
      · exact .within List.mem_cons_self hbody (ihbodies body hbody hb)
      · cases ih hb with
        | here hb => exact .here (List.mem_cons_of_mem _ hb)
        | within ha hbody hb => exact .within (List.mem_cons_of_mem _ ha) hbody hb
  · intro h
    induction h with
    | here hb => exact mem_nodesOfAll.mpr ⟨b, hb, mem_nodes.mpr (.inl rfl)⟩
    | within ha hbody _ ih =>
      exact mem_nodesOfAll.mpr ⟨_, ha, mem_nodes.mpr (.inr ⟨_, hbody, ih⟩)⟩

end IdleGame.Action
