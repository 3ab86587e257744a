import IdleGame.Proofs.Game.WellFormed
import IdleGame.Proofs.Random.Weighted

/-!
# Choices left to chance

A random action without a mistake has choices, and no weight that is zero or less. As long as the
last weight is a number, it draws once and runs one of its choices, whose weight is positive. The
search for mistakes lets weights pass that are not numbers; behind all others, such a weight is
chosen when the walk along the weights comes to its end.

## Main definitions

* `Scope.afterDraw` - the scope with one number drawn

## Main results

* `Action.run_random_of_pos`, `Action.run_random_of_not_pos` - what a random action does, with a
  positive weight and without one
* `Game.random_chooses_positive` - a random action of a game without issues runs a choice whose
  weight is positive
-/

namespace IdleGame

variable {ρ : Type} [RandomSource ρ]

/-- The scope with one number drawn. -/
def Scope.afterDraw (s : Scope ρ) : Scope ρ :=
  s.onWorld fun w => { w with random := (RandomSource.next w.random).2 }

namespace Action

variable {choices : List Choice} (env : Surroundings) (target : Option EntityId) (s : Scope ρ)

/-- With a positive weight a random action draws once and runs one choice. Its weight is positive,
unless it is the last that is not zero or less, and not a number. -/
theorem run_random_of_pos (h : ∃ c ∈ choices, 0.0 < c.weight) :
    ∃ (i : Nat) (c : Choice), choices[i]? = some c ∧
      (0.0 < c.weight ∨ c.weight.isNaN ∧ ∀ c' ∈ choices.drop (i + 1), c'.weight ≤ 0.0) ∧
      run env target (.random choices) s = runAll env target c.actions s.afterDraw := by
  have hweights : ∃ w ∈ choices.map Choice.weight, 0.0 < w := by
    obtain ⟨c, hc, hpositive⟩ := h
    exact ⟨c.weight, List.mem_map_of_mem hc, hpositive⟩
  have hdraw := Weighted.draw_eq (r := s.world.random) hweights
  have hsome : (Weighted.choose? 0.0 (choices.map Choice.weight)
    (RandomSource.next s.world.random).1).isSome := Weighted.isSome_choose? hweights
  obtain ⟨i, hchosen⟩ := Option.isSome_iff_exists.mp hsome
  obtain ⟨w, hw, hpositive⟩ := Weighted.choose?_eq_some hchosen
  rw [List.getElem?_map, Option.map_eq_some_iff] at hw
  obtain ⟨c, hc, rfl⟩ := hw
  refine ⟨i, c, hc, ?_, ?_⟩
  · simpa [← List.map_drop] using hpositive
  · have hscope : s.draw (Weighted.draw (choices.map Choice.weight)) =
        .ok (some i, s.afterDraw) := by
      rw [hchosen] at hdraw
      simp only [Scope.draw, World.draw, hdraw]
      rfl
    rw [run, hscope, Outcome.ok_bind]
    simp only [runChosen_eq, hc]

/-- Without a positive weight a random action does nothing. -/
theorem run_random_of_not_pos (h : ∀ c ∈ choices, ¬ 0.0 < c.weight) :
    run env target (.random choices) s = .ok s := by
  have hweights : ∀ w ∈ choices.map Choice.weight, ¬ 0.0 < w := by simpa using h
  have hdraw := Weighted.draw_eq_none (r := s.world.random) hweights
  rw [run]
  simp only [Scope.draw, World.draw, hdraw]
  rfl

end Action

namespace Game

variable {g : Game} {as : List Action} {choices : List Choice}

/-- What the search for mistakes asks of a random action, wherever it stands. -/
theorem fits_of_issues_eq_nil {a : Action} (hissues : g.issues = []) (has : g.Lists as)
    (ha : a.StandsIn as) : a.Fits g := by
  have hnodup := (issues_eq_nil_iff.mp hissues).1
  exact ((actionsIssues_eq_nil_iff_proper hnodup).mp (actionsIssues_of_lists hissues has) a ha).1

/-- In a game without issues, wherever a random action stands, it draws once and runs exactly one of
its choices, and the weight of that choice is positive, if its last weight is a number. -/
theorem random_chooses_positive (hissues : g.issues = []) (has : g.Lists as)
    (hrandom : (Action.random choices).StandsIn as)
    (hlast : ∀ c, choices.getLast? = some c → ¬ c.weight.isNaN) (env : Surroundings)
    (target : Option EntityId) (s : Scope ρ) :
    ∃ (i : Nat) (c : Choice), choices[i]? = some c ∧ 0.0 < c.weight ∧
      Action.run env target (.random choices) s =
        Action.runAll env target c.actions s.afterDraw := by
  obtain ⟨hne, hkept⟩ := fits_of_issues_eq_nil hissues has hrandom
  have hpositive : 0.0 < (choices.getLast hne).weight :=
    Weighted.pos_iff.mpr
      ⟨hkept _ (List.getLast_mem hne), hlast _ (List.getLast?_eq_some_getLast hne)⟩
  obtain ⟨i, c, hc, hweight, hrun⟩ :=
    Action.run_random_of_pos env target s ⟨_, List.getLast_mem hne, hpositive⟩
  refine ⟨i, c, hc, hweight.resolve_right ?_, hrun⟩
  rintro ⟨hnan, hrest⟩
  -- No weight is passed over, so that one would be the last of all.
  have hend : choices.drop (i + 1) = [] := by
    rw [List.eq_nil_iff_forall_not_mem]
    intro c' hc'
    exact hkept c' (List.mem_of_mem_drop hc') (hrest c' hc')
  have hi : i < choices.length := (List.getElem?_eq_some_iff.mp hc).1
  have hlength : i = choices.length - 1 := by
    rw [List.drop_eq_nil_iff] at hend
    omega
  refine hlast c ?_ hnan
  rw [List.getLast?_eq_getElem?, ← hlength, hc]

end Game

/-- Prizes, of which the first has a weight that is not a number. -/
def tombola : List Choice :=
  [.mk (0.0 / 0.0) [.set "prize" (.lit (.number 1.0))],
    .mk 2.0 [.set "prize" (.lit (.number 2.0))]]

/-- A rule that sometimes draws a prize. -/
def tombolaRule : Rule where
  id := "turn"
  actions := [.branch (.comparison .lt .random (.lit (.number 0.5))) [.random tombola] []]

/-- The game with this rule. -/
def tombolaGame : Game where
  identity := { id := "tombola", name := "Tombola" }
  declarations := [{ id := "prize" }]
  rules := [tombolaRule]

/-- The drawing of a prize chooses the second one, because the first has no positive weight. -/
theorem tombola_chooses_positive :
    ∃ (i : Nat) (c : Choice), tombola[i]? = some c ∧ 0.0 < c.weight ∧
      Action.run ⟨tombolaGame.kinds, Table.empty⟩ none (.random tombola)
          ⟨World.ofGame tombolaGame (Xorshift.ofWord 5), Effects.none⟩ =
        Action.runAll ⟨tombolaGame.kinds, Table.empty⟩ none c.actions
          (Scope.afterDraw ⟨World.ofGame tombolaGame (Xorshift.ofWord 5), Effects.none⟩) := by
  have hissues : tombolaGame.issues = [] := by decide +kernel
  have hturn : tombolaGame.Lists tombolaRule.actions := .rule List.mem_cons_self
  have hrandom : (Action.random tombola).StandsIn tombolaRule.actions :=
    .within List.mem_cons_self List.mem_cons_self (.here List.mem_cons_self)
  have hlast : ∀ c, tombola.getLast? = some c → ¬ c.weight.isNaN := by
    rintro _ ⟨⟩
    decide
  exact Game.random_chooses_positive hissues hturn hrandom hlast _ _ _

/-- Prizes, of which the first is certain, and the last has a weight that is not a number. -/
def crookedTombola : List Choice :=
  [.mk (1.0 / 0.0) [.set "prize" (.lit (.number 1.0))],
    .mk (0.0 / 0.0) [.set "prize" (.lit (.number 2.0))]]

/-- A rule that draws one of these at every turn. -/
def crookedRule : Rule := { id := "turn", actions := [.random crookedTombola] }

/-- The game with such turns. -/
def crookedGame : Game := { tombolaGame with rules := [crookedRule] }

/-- There is no issue about these prizes. But an infinite threshold that is not below the first
weight is not below anything, so the walk ends at the second, whose weight is not positive. -/
theorem crookedTombola_chooses_nan :
    crookedGame.issues = [] ∧ crookedGame.Lists crookedRule.actions ∧
      (Action.random crookedTombola).StandsIn crookedRule.actions ∧
      ¬ ∃ c ∈ crookedTombola, 0.0 < c.weight ∧
        Action.run ⟨crookedGame.kinds, Table.empty⟩ none (.random crookedTombola)
            ⟨World.ofGame crookedGame (Generator.constant 0.5), Effects.none⟩ =
          Action.runAll ⟨crookedGame.kinds, Table.empty⟩ none c.actions
            (Scope.afterDraw
              ⟨World.ofGame crookedGame (Generator.constant 0.5), Effects.none⟩) := by
  refine ⟨by decide +kernel, .rule List.mem_cons_self, .here List.mem_cons_self, ?_⟩
  rintro ⟨c, hc, hpositive, hrun⟩
  have hprize := congrArg
    (fun x => (x.map fun s : Scope Generator => s.world.number "prize").toOption) hrun
  rcases List.mem_cons.mp hc with rfl | hc
  · exact absurd hprize (by decide +kernel)
  · obtain rfl := List.mem_singleton.mp hc
    exact absurd hpositive (by decide)

end IdleGame
