import IdleGame.Proofs.Entity.Restoration
import IdleGame.Proofs.Expr.Composition
import IdleGame.World

/-!
# What an evaluation reads

Of all that a world holds an evaluation reads what the expression names, at whatever depth: the
values of variables, parameters and properties, and how many entities of a kind there are. Contexts
that agree on these cannot be told apart, whatever else differs. Entities are counted by the index,
so that they are counted alike wherever it lists the members of each kind, and nothing else.

## Main definitions

* `Draws.InStep` - two computations that go on alike from related positions
* `Context`, `World.context` - what there is to read when an expression is evaluated
* `Context.AgreesOn` - two contexts agree on what stands in an expression
* `Context.CountsLike`, `Context.EvaluatesLike` - two contexts give the same

## Main results

* `Context.evaluatesLike_of_readsLike` - an expression evaluates the same where all that stands in
  it reads the same
* `Context.exists_outcome` - without random numbers the random source plays no part
* `Context.reads_only_nodes_iff` - both of them for contexts that agree on an expression
-/

namespace IdleGame

open Outcome

variable {ρ ρ' : Type}

namespace Draws

variable {α : Type} {S : ρ → ρ' → Prop}

/-- From positions that are related, two computations have the same outcome and leave related
positions behind. -/
def InStep (S : ρ → ρ' → Prop) (x : Draws ρ α) (y : Draws ρ' α) : Prop :=
  ∀ r r', S r r' → SameWith S (x r) (y r')

/-- Computations in step stay in step one after the other. -/
theorem relates_inStep : Relates (InStep S) where
  pure _ _ _ h := ⟨rfl, h⟩
  fault _ _ _ h := ⟨rfl, h⟩
  bind := by
    intro α β x y f g hxy hfg r r' h
    have hfirst := hxy r r' h
    rw [bind_apply, bind_apply]
    rcases hx : x r with ⟨outcome, s⟩
    rcases hy : y r' with ⟨outcome', s'⟩
    rw [hx, hy] at hfirst
    obtain ⟨houtcome, hs⟩ := hfirst
    obtain rfl : outcome = outcome' := houtcome
    -- Both first parts stop at the same fault, or both go on with the same value.
    cases outcome with
    | error e => exact ⟨rfl, hs⟩
    | ok a => exact hfg a s s' hs

end Draws

/-- What there is to read when an expression is evaluated. -/
structure Context where
  state : Values
  population : Population
  params : Option Values
  target : Option Entity

/-- What an expression reads in a context. -/
def Context.view (c : Context) : View where
  readVariable := c.state.get?
  readParameter name := c.params.bind (·.get? name)
  readProperty name := c.target.bind (·.get? name)
  population := c.population.count

/-- The context of an expression in a world, given the parameters and the target at hand. -/
def World.context (w : World ρ) (params : Values) (target : Option EntityId) : Context :=
  ⟨w.state, w.population, some params, target.bind w.population.get?⟩

/-- What expressions read in a world is what they read in its context. -/
@[simp] theorem World.view_context (w : World ρ) (params : Values) (target : Option EntityId) :
    (w.context params target).view = w.view params target := rfl

namespace Context

/-- Two contexts agree on what stands in an expression: on the values of its variables, parameters
and properties, and on how many live entities there are of the kinds that it counts. The value of a
missing name is what it reads as. -/
structure AgreesOn (c c' : Context) (e : Expr) : Prop where
  state : ∀ id, .ref id ∈ e.nodes ∨ .flag id ∈ e.nodes →
    (c.state.get? id).getD .missing = (c'.state.get? id).getD .missing
  params : ∀ name, .param name ∈ e.nodes →
    (c.params.bind (·.get? name)).getD .missing = (c'.params.bind (·.get? name)).getD .missing
  target : ∀ name, .prop name ∈ e.nodes →
    (c.target.bind (·.get? name)).getD .missing = (c'.target.bind (·.get? name)).getD .missing
  population : ∀ kind, .count kind ∈ e.nodes →
    (c.population.query (·.kind = kind)).length = (c'.population.query (·.kind = kind)).length

/-- The entities of a kind are counted alike in two contexts. -/
def CountsLike (c c' : Context) (kind : String) : Prop :=
  Float.ofNat (c.population.count kind) = Float.ofNat (c'.population.count kind)

/-- An expression gives the same in two contexts, a value or a fault, and leaves the random source
at the same position, from every position of every source. -/
def EvaluatesLike (c c' : Context) (e : Expr) : Prop :=
  ∀ ⦃ρ : Type⦄ [RandomSource ρ] (r : ρ), e.eval c.view r = e.eval c'.view r

variable {c c' : Context} {e n : Expr} {kind : String}

/-- An expression evaluates the same where all that stands in it reads the same. -/
theorem evaluatesLike_of_readsLike (h : ∀ n ∈ e.nodes, c.view.ReadsLike c'.view n) :
    c.EvaluatesLike c' e := by
  intro ρ _ r
  have hnext : Draws.InStep Eq (Draws.next : Draws ρ Float) Draws.next := by
    rintro r _ rfl
    exact ⟨rfl, rfl⟩
  obtain ⟨houtcome, hsource⟩ := Expr.eval_related Draws.relates_inStep h (fun _ => hnext) r r rfl
  exact Prod.ext houtcome hsource

/-- Without random numbers an expression has one outcome, whatever the random source and its
position, and leaves the source where it is. -/
theorem exists_outcome (h : .random ∉ e.nodes) :
    ∃ outcome, ∀ ⦃ρ : Type⦄ [RandomSource ρ] (r : ρ), e.eval c.view r = (outcome, r) := by
  -- The outcome from one position of one source is the outcome from all others.
  refine ⟨(e.eval c.view (Xorshift.ofWord 1)).1, fun ρ _ r => ?_⟩
  have hstep : Draws.InStep (fun (_ : Xorshift) s => s = r) (e.eval c.view) (e.eval c.view) :=
    Expr.eval_related Draws.relates_inStep (fun n _ => c.view.readsLike_self n)
      fun hrandom => (h hrandom).elim
  obtain ⟨houtcome, hsource⟩ := hstep (Xorshift.ofWord 1) r rfl
  exact Prod.ext houtcome.symm hsource

/-- A count evaluates the same exactly when the kind is counted alike. -/
theorem evaluatesLike_count_iff : c.EvaluatesLike c' (.count kind) ↔ c.CountsLike c' kind := by
  constructor
  · intro h
    have hvalue := h (Xorshift.ofWord 1)
    simpa [Expr.eval, view, CountsLike] using hvalue
  · intro h ρ _ r
    rw [Expr.eval, Expr.eval]
    exact congrArg (fun x : Float => (Except.ok (Value.number x), r)) h

/-- Contexts that agree on an expression agree on all that stands in it. -/
theorem AgreesOn.of_mem (h : c.AgreesOn c' e) (hn : n ∈ e.nodes) : c.AgreesOn c' n where
  state id hid := h.state id (hid.imp (Expr.nodes_subset hn ·) (Expr.nodes_subset hn ·))
  params name hname := h.params name (Expr.nodes_subset hn hname)
  target name hname := h.target name (Expr.nodes_subset hn hname)
  population kind hkind := h.population kind (Expr.nodes_subset hn hkind)

/-- Contexts agree on a count exactly when as many entities of the kind are live in both. -/
theorem agreesOn_count_iff :
    c.AgreesOn c' (.count kind) ↔
      (c.population.query (·.kind = kind)).length =
        (c'.population.query (·.kind = kind)).length := by
  constructor
  · intro h
    exact h.population kind (by simp [Expr.nodes])
  · intro hlive
    -- A count names neither a variable nor a parameter nor a property.
    constructor
    case state => simp [Expr.nodes]
    case params => simp [Expr.nodes]
    case target => simp [Expr.nodes]
    case population =>
      intro kind' hkind
      obtain rfl : kind' = kind := by simpa [Expr.nodes] using hkind
      exact hlive

theorem AgreesOn.readsLike (h : c.AgreesOn c' e)
    (hcounts : ∀ kind, .count kind ∈ e.nodes → c.CountsLike c' kind) :
    ∀ n ∈ e.nodes, c.view.ReadsLike c'.view n := by
  intro n hn
  cases n with
  | ref id => exact h.state id (.inl hn)
  | flag id => exact h.state id (.inr hn)
  | param name => exact h.params name hn
  | prop name => exact h.target name hn
  | count kind => exact hcounts kind hn
  | _ => trivial

/-- Where indexes list the members of each kind, kinds with as many live entities are counted
alike. -/
theorem AgreesOn.countsLike (h : c.AgreesOn c' e) (hindexed : c.population.Indexed)
    (hindexed' : c'.population.Indexed) (hkind : .count kind ∈ e.nodes) :
    c.CountsLike c' kind := by
  unfold CountsLike
  rw [Population.count_eq_query hindexed, Population.count_eq_query hindexed',
    h.population kind hkind]

/-- In contexts that agree on an expression all that stands in it evaluates alike exactly when every
kind that it counts is counted alike, and it evaluates alike where both indexes list the members of
each kind. Without random numbers the random source plays no part. -/
theorem reads_only_nodes_iff (h : c.AgreesOn c' e) :
    ((∀ n ∈ e.nodes, c.EvaluatesLike c' n) ↔
        ∀ kind, .count kind ∈ e.nodes → c.CountsLike c' kind) ∧
      (c.population.Indexed → c'.population.Indexed → c.EvaluatesLike c' e) ∧
      (.random ∉ e.nodes → ∃ outcome, ∀ ⦃ρ : Type⦄ [RandomSource ρ] (r : ρ),
        e.eval c.view r = (outcome, r)) := by
  refine ⟨⟨?_, ?_⟩, ?_, exists_outcome⟩
  · intro hnodes kind hkind
    exact evaluatesLike_count_iff.mp (hnodes _ hkind)
  · intro hcounts n hn
    -- What is counted within the node is counted within the expression.
    have hcounts' : ∀ kind, .count kind ∈ n.nodes → c.CountsLike c' kind :=
      fun kind hkind => hcounts kind (Expr.nodes_subset hn hkind)
    exact evaluatesLike_of_readsLike ((h.of_mem hn).readsLike hcounts')
  · intro hindexed hindexed'
    have hcounts : ∀ kind, .count kind ∈ e.nodes → c.CountsLike c' kind :=
      fun kind hkind => h.countsLike hindexed hindexed' hkind
    exact evaluatesLike_of_readsLike (h.readsLike hcounts)

/-- What the cards are worth. -/
def worth : Expr := .arithmetic .mul [.ref "gold", .count "card"]

/-- What a visitor wins when the fair is open, and what a visitor pays otherwise. -/
def prize : Expr :=
  .choice (.flag "open") (.arithmetic .add [worth, .random, .param "bonus"]) (.prop "price")

/-- A fair with two cards. -/
def nearFair : Context where
  state := Table.ofList [("gold", .number 3.0), ("open", .bool true)]
  population := Population.restore Population.stalls 1
  params := some (Table.ofList [("bonus", .number 1.0)])
  target := some ⟨⟨2⟩, "stall", Table.ofList [("price", .number 4.0)]⟩

/-- Another fair with two cards, which has nothing in common with it but what the prize names. -/
def farFair : Context where
  state := Table.ofList [("open", .bool true), ("weather", .string "fine"), ("gold", .number 3.0)]
  population := Population.market
  params := some (Table.ofList [("greeting", .string "hello"), ("bonus", .number 1.0)])
  target := some ⟨⟨7⟩, "cart", Table.ofList [("price", .number 4.0), ("wheels", .number 2.0)]⟩

theorem prize_evaluates_alike :
    nearFair.AgreesOn farFair prize ∧ nearFair.population.Indexed ∧ farFair.population.Indexed ∧
      (∀ n ∈ prize.nodes, nearFair.EvaluatesLike farFair n) ∧ nearFair.EvaluatesLike farFair prize ∧
      prize.eval farFair.view (⟨[0.5], 0⟩ : Script) = (.ok (.number 7.5), ⟨[0.5], 1⟩) ∧
      nearFair.AgreesOn farFair worth ∧ .random ∉ worth.nodes ∧
      ∃ outcome, ∀ ⦃ρ : Type⦄ [RandomSource ρ] (r : ρ),
        worth.eval nearFair.view r = (outcome, r) := by
  have hprize : nearFair.AgreesOn farFair prize := by
    constructor <;> simp [prize, worth, Expr.nodes, Expr.nodesOfAll] <;> decide
  have hworth : nearFair.AgreesOn farFair worth :=
    hprize.of_mem (by simp [prize, worth, Expr.nodes, Expr.nodesOfAll])
  have hindexed : nearFair.population.Indexed := Population.indexed_restore_iff.mpr (by decide)
  have hindexed' : farFair.population.Indexed := Population.market_built.indexed
  have hrandom : .random ∉ worth.nodes := by simp [worth, Expr.nodes, Expr.nodesOfAll]
  obtain ⟨hnodes, hwhole, -⟩ := reads_only_nodes_iff hprize
  obtain ⟨-, -, houtcome⟩ := reads_only_nodes_iff hworth
  refine ⟨hprize, hindexed, hindexed', hnodes.mpr ?_, hwhole hindexed hindexed', rfl, hworth,
    hrandom, houtcome hrandom⟩
  exact fun kind hkind => hprize.countsLike hindexed hindexed' hkind

end Context

namespace World

/-- A fair where nothing has been put up yet. -/
def emptyFair : World Xorshift :=
  ⟨Table.empty, Population.empty, MessageLog.ofCapacity 0, Clock.start, .ofWord 12345⟩

/-- This fair with a stall that the save from which it was restored lists as a card before. -/
def resavedFair : World Xorshift :=
  { emptyFair with population := Population.restore Population.relabelled 1 }

/-- No card is live in either fair, yet one is counted where the stall has been one. -/
theorem resavedFair_counts_card :
    (emptyFair.context Table.empty none).AgreesOn (resavedFair.context Table.empty none)
        (.count "card") ∧
      (resavedFair.population.query (·.kind = "card")).length = 0 ∧
      resavedFair.random = emptyFair.random ∧
      (Expr.count "card").eval (emptyFair.view Table.empty none) emptyFair.random =
        (.ok (.number 0.0), emptyFair.random) ∧
      (Expr.count "card").eval (resavedFair.view Table.empty none) resavedFair.random =
        (.ok (.number 1.0), resavedFair.random) := by
  have hagrees : (emptyFair.context Table.empty none).AgreesOn
      (resavedFair.context Table.empty none) (.count "card") :=
    Context.agreesOn_count_iff.mpr rfl
  exact ⟨hagrees, rfl, rfl, rfl, rfl⟩

end World

end IdleGame
