import IdleGame.Proofs.Project.Query
import IdleGame.Session.Play
import IdleGame.Store.Memory
import Mathlib.Data.List.Nodup

/-!
# Questions about projects and purchases

A list of the available projects asks for one project after the other along one sequence of random
numbers, and so does a purchase for the trigger and the costs. A question about a single project
starts at the position of the random source. The answers are the same unless draws come in between:
those of projects that are declared earlier in the list, and those of the trigger in a purchase.

## Main results

* `Session.mem_available_iff` - a project is listed as it is answered for
* `Session.purchase_iff` - a project is sold as both questions about it are answered
* `Session.queries_agree` - both together
-/

namespace IdleGame

variable {ρ σ : Type}

/-- With distinct ids, each project is found by its own. -/
theorem Game.project?_eq {g : Game} {before after : List Project} {p : Project}
    (hnodup : (g.projects.map Project.id).Nodup) (hprojects : g.projects = before ++ p :: after) :
    g.project? p.id = some p := by
  rw [hprojects, List.map_append, List.map_cons] at hnodup
  have hbefore : ∀ q ∈ before, q.id ≠ p.id := by
    intro q hq heq
    refine (List.nodup_append.mp hnodup).2.2 q.id (List.mem_map_of_mem hq) p.id
      List.mem_cons_self heq
  rw [Game.project?, hprojects, List.find?_append, List.find?_eq_none.mpr (by simpa using hbefore)]
  simp

namespace Session

section

variable {test : Project → Draws ρ Bool} {ps qs passed : List Project} {r r' : ρ}

/-- A list is asked for its first part and then, from there, for the rest. -/
theorem filterProjects_append (h : filterProjects test (ps ++ qs) r = (.ok passed, r')) :
    ∃ first r₁ rest, filterProjects test ps r = (.ok first, r₁) ∧
      filterProjects test qs r₁ = (.ok rest, r') ∧ passed = first ++ rest := by
  induction ps generalizing r passed with
  | nil => exact ⟨[], r, passed, rfl, h, rfl⟩
  | cons p ps ih =>
    rw [List.cons_append, filterProjects, Draws.bind_ok_iff] at h
    obtain ⟨passes, r₁, hpasses, h⟩ := h
    obtain ⟨later, hlater, rfl⟩ := Draws.map_ok_iff.mp h
    obtain ⟨first, r₂, rest, hfirst, hrest, rfl⟩ := ih hlater
    refine ⟨if passes then p :: first else first, r₂, rest, ?_, hrest, ?_⟩
    · rw [filterProjects, Draws.bind_ok_iff]
      exact ⟨passes, r₁, hpasses, Draws.map_ok_iff.mpr ⟨first, hfirst, rfl⟩⟩
    · cases passes <;> rfl

/-- Whoever passes has been asked. -/
theorem subset_of_filterProjects (h : filterProjects test ps r = (.ok passed, r')) :
    passed ⊆ ps := by
  induction ps generalizing r passed with
  | nil =>
    obtain ⟨hpassed, -⟩ := Prod.mk.inj h
    obtain rfl := Except.ok.inj hpassed
    exact List.Subset.refl _
  | cons p ps ih =>
    rw [filterProjects, Draws.bind_ok_iff] at h
    obtain ⟨passes, r₁, -, h⟩ := h
    obtain ⟨later, hlater, rfl⟩ := Draws.map_ok_iff.mp h
    have hsubset : later ⊆ ps := ih hlater
    cases passes with
    | false => exact List.subset_cons_of_subset p hsubset
    | true => exact List.cons_subset_cons p hsubset

theorem silent_filterProjects (h : ∀ p ∈ ps, (test p).Silent) :
    (filterProjects test ps).Silent := by
  induction ps with
  | nil => exact Draws.composes_silent.pure _
  | cons p ps ih =>
    rw [List.forall_mem_cons] at h
    rw [filterProjects]
    exact Draws.composes_silent.bind h.1 fun _ => Draws.composes_silent.map (ih h.2)

end

variable [RandomSource ρ] {s s' : Session ρ σ} {before after ps : List Project} {p : Project}
  {bought : Bool}

omit [RandomSource ρ] in
theorem ask_eq {id : String} {question : Project → Draws ρ Bool}
    (hproject : s.game.project? id = some p) : s.ask id question = s.world.peek (question p) := by
  rw [ask, hproject]

/-- A purchase goes through when there is a price. -/
theorem price_of_purchase {id : String} (hproject : s.game.project? id = some p)
    (h : s.purchase id = .ok (bought, s')) :
    (s.world.peek (p.price? Table.empty s.uses s.world)).map Option.isSome = .ok bought := by
  rw [purchase, hproject] at h
  obtain ⟨sold, hsold, h⟩ := Outcome.bind_eq_ok_iff.mp h
  have hprice : (s.world.peek (p.price? Table.empty s.uses s.world)).map Option.isSome =
      .ok sold.isSome := Project.isSome_of_purchase hsold
  rw [hprice]
  cases sold with
  | none =>
    obtain ⟨rfl, -⟩ := Prod.mk.inj (Except.ok.inj h)
    rfl
  | some sold =>
    obtain ⟨settled, -, h⟩ := Outcome.bind_eq_ok_iff.mp h
    obtain ⟨rfl, -⟩ := Prod.mk.inj (Except.ok.inj h)
    rfl

section

variable (hnodup : (s.game.projects.map Project.id).Nodup)
  (hprojects : s.game.projects = before ++ p :: after)

include hnodup hprojects

/-- A project is listed as the question about it is answered, unless both its trigger and one that
is evaluated before it draw. -/
theorem mem_available_iff
    (h : p.HasSilentTrigger s.world ∨
      ∀ q ∈ before, ¬ q.isExhausted (s.uses.of q.id) → q.HasSilentTrigger s.world)
    (hps : s.available = .ok ps) : p ∈ ps ↔ s.isAvailable p.id = .ok true := by
  obtain ⟨r, hfilter⟩ : ∃ r, filterProjects
      (fun q => q.isAvailable s.uses (s.world.view Table.empty none)) s.game.projects
      s.world.random = (.ok ps, r) := ⟨_, Prod.ext hps rfl⟩
  rw [hprojects] at hfilter
  obtain ⟨first, r₁, rest, hfirst, hrest, rfl⟩ := filterProjects_append hfilter
  rw [filterProjects, Draws.bind_ok_iff] at hrest
  obtain ⟨passes, r₂, hpasses, hrest⟩ := hrest
  obtain ⟨later, hlater, rfl⟩ := Draws.map_ok_iff.mp hrest
  -- In the list the question is asked at `r₁`, and alone at the position of the source.
  have hsame : (p.isAvailable s.uses (s.world.view Table.empty none) r₁).1 =
      (p.isAvailable s.uses (s.world.view Table.empty none) s.world.random).1 := by
    rcases h with htrigger | hbefore
    · exact (Project.silent_isAvailable fun _ => htrigger).outcome_eq
    · have hsilent := silent_filterProjects fun q hq =>
        Project.silent_isAvailable (hbefore q hq)
      have hsource := hsilent.source_eq (r := s.world.random)
      rw [hfirst] at hsource
      obtain rfl : r₁ = s.world.random := hsource
      rfl
  have hasked : s.isAvailable p.id = .ok passes :=
    calc s.isAvailable p.id
      _ = (p.isAvailable s.uses (s.world.view Table.empty none) s.world.random).1 :=
        ask_eq (Game.project?_eq hnodup hprojects)
      _ = (p.isAvailable s.uses (s.world.view Table.empty none) r₁).1 := hsame.symm
      _ = .ok passes := by rw [hpasses]
  -- The projects are distinct, so the other parts of the list have nothing to do with this one.
  have hdistinct : (before ++ p :: after).Nodup := hprojects ▸ hnodup.of_map _
  obtain ⟨-, hafter, hapart⟩ := List.nodup_append.mp hdistinct
  have hout : p ∉ first := fun hp =>
    hapart p (subset_of_filterProjects hfirst hp) p List.mem_cons_self rfl
  have hout' : p ∉ later := fun hp =>
    (List.nodup_cons.mp hafter).1 (subset_of_filterProjects hlater hp)
  rw [hasked]
  cases passes <;> simp [hout, hout']

/-- A project is sold as both questions about it are answered, unless both its trigger and its costs
draw. -/
theorem purchase_iff (h : p.HasSilentTrigger s.world ∨ p.HasSilentCosts s.world)
    (hpurchase : s.purchase p.id = .ok (bought, s')) :
    bought = true ↔ s.isAvailable p.id = .ok true ∧ s.canAfford p.id = .ok true := by
  have hproject := Game.project?_eq hnodup hprojects
  have hasked : s.isAvailable p.id =
      s.world.peek (p.isAvailable s.uses (s.world.view Table.empty none)) := ask_eq hproject
  have hafford : s.canAfford p.id = s.world.peek (p.canAfford s.world) := ask_eq hproject
  have hprice := Project.peek_price? s.uses h
  rw [price_of_purchase hproject hpurchase, ← hasked, ← hafford] at hprice
  rcases havailable : s.isAvailable p.id with e | available
  all_goals rw [havailable] at hprice
  · cases hprice
  · cases available with
    | false =>
      obtain rfl := Except.ok.inj hprice
      simp
    | true =>
      have hbought : s.canAfford p.id = .ok bought := hprice.symm
      simp [hbought]

/-- The list of the available projects agrees with the question about one of them, unless both its
trigger and one that is evaluated before it draw; and a purchase agrees with the two questions
before it, unless both the trigger and the costs draw. -/
theorem queries_agree :
    ((p.HasSilentTrigger s.world ∨
        ∀ q ∈ before, ¬ q.isExhausted (s.uses.of q.id) → q.HasSilentTrigger s.world) →
      ∀ ps, s.available = .ok ps → (p ∈ ps ↔ s.isAvailable p.id = .ok true)) ∧
    ((p.HasSilentTrigger s.world ∨ p.HasSilentCosts s.world) →
      ∀ bought s', s.purchase p.id = .ok (bought, s') →
        (bought = true ↔ s.isAvailable p.id = .ok true ∧ s.canAfford p.id = .ok true)) := by
  constructor
  · intro h ps hps
    exact mem_available_iff hnodup hprojects h hps
  · intro h bought s' hpurchase
    exact purchase_iff hnodup hprojects h hpurchase

end

end Session

/-- A lot that is open by chance. -/
def earlyLot : Project where
  id := "early"
  trigger := .comparison .gt .random (.lit (.number 0.5))

/-- A lot that is open as long as there is gold, at a price by chance. -/
def openLot : Project where
  id := "open"
  trigger := .comparison .gt (.ref "gold") (.lit (.number 0.0))
  costs := [⟨"gold", .random⟩]

/-- A lot that is open by chance, at a price by chance. -/
def lateLot : Project where
  id := "late"
  trigger := .comparison .gt .random (.lit (.number 0.5))
  costs := [⟨"gold", .random⟩]

/-- An auction of these lots. -/
def auctionGame : Game where
  identity := { id := "auction", name := "Auction" }
  declarations := [{ id := "gold", initial := some (.number 0.5) }]
  projects := [earlyLot, openLot, lateLot]

namespace Session

/-- The auction, with a high number to be drawn first and then a low one. -/
def auction : Session Script MemoryStore := ofGame auctionGame ⟨[0.9, 0.1], 0⟩ MemoryStore.empty

/-- The answers about the lot that is open as long as there is gold agree, though its price is drawn
and a draw comes before it in the list. -/
theorem auction_queries_agree :
    (∃ ps, auction.available = .ok ps ∧
      (openLot ∈ ps ↔ auction.isAvailable openLot.id = .ok true)) ∧
    ∃ bought s', auction.purchase openLot.id = .ok (bought, s') ∧
      (bought = true ↔ auction.isAvailable openLot.id = .ok true ∧
        auction.canAfford openLot.id = .ok true) := by
  have hsilent : openLot.HasSilentTrigger auction.world :=
    Expr.silent_eval _ (by simp [openLot, Expr.nodes])
  have hagree := queries_agree (s := auction) (p := openLot) (by decide)
    (show _ = [earlyLot] ++ openLot :: [lateLot] from rfl)
  obtain ⟨ps, hps⟩ := Outcome.exists_eq_ok_of_isOk (x := auction.available) rfl
  obtain ⟨⟨bought, s'⟩, hpurchase⟩ :=
    Outcome.exists_eq_ok_of_isOk (x := auction.purchase openLot.id) rfl
  exact ⟨⟨ps, hps, hagree.1 (.inl hsilent) ps hps⟩, bought, s', hpurchase,
    hagree.2 (.inl hsilent) bought s' hpurchase⟩

/-- The last lot is not in the list, where the low number is drawn for it, but available when asked
for; and it cannot be afforded at the high number that is drawn for its price, but is sold at the
low one. -/
theorem auction_queries_differ :
    (auctionGame.projects.map Project.id).Nodup ∧
      auction.available = .ok [earlyLot, openLot] ∧
      auction.isAvailable lateLot.id = .ok true ∧
      auction.canAfford lateLot.id = .ok false ∧
      ∃ s', auction.purchase lateLot.id = .ok (true, s') :=
  ⟨by decide, rfl, rfl, rfl, _, rfl⟩

end Session

end IdleGame
