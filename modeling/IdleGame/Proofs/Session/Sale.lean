import IdleGame.Proofs.Session.Payment
import IdleGame.Proofs.Session.Stretch
import IdleGame.Proofs.Session.Time
import IdleGame.Store.Memory
import Mathlib.Data.List.Forall2
import Mathlib.Data.List.Nodup

/-!
# Sales

The effects of a project are run when it is sold, once in what is left when its price has been paid,
and at no other time. So they are run as often as a purchase is answered with yes. Where a limit
bounds the uses of a project, their count grows by as much, and by no more than the limit leaves,
whatever comes of the effects and whatever else happens in between.

## Main definitions

* `EffectRun` - a run of the effects of a project
* `Session.Sells` - a project is sold, and the session that this leaves
* `Session.Trades`, `Served.Trades` - the runs of effects in a call
* `Served.sold` - how often calls have sold a project

## Main results

* `Session.purchase_cases` - a purchase sells a project, or it changes nothing
* `Session.apply_trades` - a call sells one project and runs its effects, or none
* `Session.Trades.timesOf_eq`, `Session.Trades.uses_of_eq` - effects run and uses counted in a call
* `Session.Stretch.sales_counted` - between one reset or load and the next, sales are counted and
  bounded
-/

namespace IdleGame

variable {ρ σ : Type}

/-- A run of the effects of a project: its surroundings, and the scope in which the price has been
paid. -/
structure EffectRun (ρ : Type) where
  project : Project
  env : Surroundings
  paid : Scope ρ

/-- What comes of the run. -/
def EffectRun.outcome [RandomSource ρ] (run : EffectRun ρ) : Except Fault (Scope ρ) :=
  Action.runAll run.env none run.project.effects run.paid

open Classical in
/-- How often the effects of a project have been run. -/
noncomputable def EffectRun.timesOf (p : Project) (runs : List (EffectRun ρ)) : Nat :=
  runs.countP fun run => run.project = p

theorem EffectRun.timesOf_append {p : Project} {runs runs' : List (EffectRun ρ)} :
    timesOf p (runs ++ runs') = timesOf p runs + timesOf p runs' :=
  List.countP_append

/-- Whether a project has been sold in a call. -/
def Served.isSale (id : String) (call : Served ρ σ) : Bool :=
  match call.op, call.answer with
  | .play (.purchase other), .holds bought => bought && other = id
  | _, _ => false

/-- How often calls have sold a project. -/
def Served.sold (id : String) (log : List (Served ρ σ)) : Nat := log.countP (isSale id)

theorem Served.isSale_iff {id : String} {call : Served ρ σ} :
    isSale id call ↔ call.op = .play (.purchase id) ∧ call.answer = .holds true := by
  unfold isSale
  split
  · rename_i other bought hop hanswer
    rw [hop, hanswer]
    simp [and_comm]
  · rename_i hnot
    simp only [Bool.false_eq_true, false_iff]
    rintro ⟨hop, hanswer⟩
    exact hnot _ _ hop hanswer

theorem Served.sold_append (id : String) (log : List (Served ρ σ)) (call : Served ρ σ) :
    sold id (log ++ [call]) = sold id log + if isSale id call then 1 else 0 := by
  rw [sold, List.countP_append, List.countP_singleton, sold]

variable [RandomSource ρ]

namespace Session

/-- A project is sold: its price is paid, its effects are run in what is left, the use is counted,
and then what the effects have triggered is handled. -/
structure Sells (s : Session ρ σ) (run : EffectRun ρ) (s' : Session ρ σ) : Prop where
  project : s.game.project? run.project.id = some run.project
  env : run.env = s.surroundings Table.empty
  paid : ∃ totals w,
    s.world.draw (run.project.price? run.env.params s.uses s.world) = .ok (some totals, w) ∧
      run.paid = { s.scope with world := Project.pay w totals }
  left : ∃ scope handled, run.outcome = .ok scope ∧
    ({ s with uses := s.uses.count run.project.id } : Session ρ σ).settle scope =
      .ok (handled, s')

/-- The runs of effects in a call, and the session that it leaves: a project is sold, or nothing is
sold, and then no count of uses changes unless the call begins anew. -/
inductive Trades (s : Session ρ σ) (op : Operation) (a : Answer) :
    List (EffectRun ρ) → Session ρ σ → Prop
  | sale {run s'} (hop : op = .play (.purchase run.project.id)) (ha : a = .holds true)
      (hsells : s.Sells run s') : Trades s op a [run] s'
  | idle {s'} (hsale : ∀ id, ¬ Served.isSale id ⟨s, op, a⟩)
      (huses : ¬ op.restarts → s'.uses = s.uses) : Trades s op a [] s'

end Session

/-- The runs of effects in a call that has been served. -/
def Served.Trades [SaveStore σ] (call : Served ρ σ) (runs : List (EffectRun ρ)) : Prop :=
  ∃ s', call.session.apply call.op = .ok (call.answer, s') ∧
    call.session.Trades call.op call.answer runs s'

namespace Session

variable {s s' : Session ρ σ} {p : Project} {run : EffectRun ρ} {runs : List (EffectRun ρ)}
  {op : Operation} {a : Answer} {limit : Nat}

omit [RandomSource ρ] in
theorem project?_id {id : String} (h : s.game.project? id = some p) : p.id = id := by
  have hfind : s.game.projects.find? (·.id = id) = some p := h
  simpa using List.find?_some hfind

/-- A purchase sells a project, or it changes nothing. -/
theorem purchase_cases {id : String} {bought : Bool} (h : s.purchase id = .ok (bought, s')) :
    (bought = false ∧ s' = s) ∨ ∃ run, bought = true ∧ run.project.id = id ∧ s.Sells run s' := by
  cases bought with
  | false => exact .inl ⟨rfl, (purchase_false_iff.mp h).1⟩
  | true =>
    obtain ⟨p, uses, scope, handled, hproject, hsold, hsettle⟩ := purchase_true_iff.mp h
    rcases Project.purchase_cases hsold with ⟨-, -, hnone⟩ | ⟨totals, w, _, hprice, hrun, hsome⟩
    · cases hnone
    · obtain ⟨rfl, rfl⟩ := Prod.mk.inj (Option.some.inj hsome)
      have hid : p.id = id := project?_id hproject
      refine .inr ⟨⟨p, s.surroundings Table.empty, { s.scope with world := Project.pay w totals }⟩,
        rfl, hid, ?_⟩
      exact ⟨hid ▸ hproject, rfl, ⟨totals, w, hprice, rfl⟩, ⟨scope, handled, hrun, hsettle⟩⟩

theorem Sells.uses (h : s.Sells run s') : s'.uses = s.uses.count run.project.id := by
  obtain ⟨scope, handled, -, hsettle⟩ := h.left
  exact settle_uses hsettle

/-- What is sold has not been used up. -/
theorem Sells.lt_limit (h : s.Sells run s') (hlimit : run.project.limit? = some limit) :
    s.uses.of run.project.id < limit := by
  obtain ⟨totals, w, hprice, -⟩ := h.paid
  obtain ⟨r, hdraw, -⟩ := World.draw_eq_ok_iff.mp hprice
  have hopen := Project.not_isExhausted_of_price hdraw
  exact Project.not_isExhausted_iff.mp hopen limit hlimit

section

variable [SaveStore σ]

/-- Calls other than purchases change no count, unless they begin anew. -/
theorem apply_uses (hop : ¬ op.restarts) (hpurchase : ∀ id, op ≠ .play (.purchase id))
    (h : s.apply op = .ok (a, s')) : s'.uses = s.uses := by
  by_cases hpasses : op.passesTime
  · exact kept_of_step (fun _ _ _ hstep => step_uses hstep) hpasses h
  · exact (apply_rests hop hpasses h).uses hpurchase

/-- A call sells one project and runs its effects, or none. -/
theorem apply_trades (h : s.apply op = .ok (a, s')) : ∃ runs, s.Trades op a runs s' := by
  by_cases hpurchase : ∃ id, op = .play (.purchase id)
  · obtain ⟨id, rfl⟩ := hpurchase
    obtain ⟨bought, hbought, rfl⟩ := Outcome.map_fst_eq_ok_iff.mp h
    rcases purchase_cases hbought with ⟨rfl, rfl⟩ | ⟨run, rfl, rfl, hsells⟩
    · exact ⟨[], .idle (by simp [Served.isSale_iff]) fun _ => rfl⟩
    · exact ⟨[run], .sale rfl rfl hsells⟩
  · have hnot (id : String) : op ≠ .play (.purchase id) := fun hop => hpurchase ⟨id, hop⟩
    exact ⟨[], .idle (by simp [Served.isSale_iff, hnot]) fun hop => apply_uses hop hnot h⟩

end

section

variable (hids : (s.game.projects.map Project.id).Nodup) (hp : p ∈ s.game.projects)

include hids hp

/-- What is sold under the id of a project is that project. -/
theorem Sells.project_eq (h : s.Sells run s') (hid : run.project.id = p.id) : run.project = p :=
  List.inj_on_of_nodup_map hids (project?_mem h.project) hp hid

/-- The effects of a project are run once in a call that sells it, and in no other. -/
theorem Trades.timesOf_eq (h : s.Trades op a runs s') :
    EffectRun.timesOf p runs = if Served.isSale p.id ⟨s, op, a⟩ then 1 else 0 := by
  cases h with
  | @sale run _ hop ha hsells =>
    by_cases hid : run.project.id = p.id
    · have hrun : run.project = p := hsells.project_eq hids hp hid
      rw [if_pos (Served.isSale_iff.mpr ⟨by rw [hop, hid], ha⟩)]
      simp [EffectRun.timesOf, hrun]
    · have hrun : run.project ≠ p := fun hrun => hid (congrArg Project.id hrun)
      rw [if_neg (by simp [Served.isSale_iff, hop, hid])]
      simp [EffectRun.timesOf, hrun]
  | idle hsale huses =>
    rw [if_neg (hsale p.id)]
    rfl

/-- The count of a project with a limit grows by one in a call that sells it, and in no other that
does not begin anew. What is sold has been below its limit. -/
theorem Trades.uses_of_eq (h : s.Trades op a runs s') (hop : ¬ op.restarts)
    (hlimit : p.limit? = some limit) (hmax : limit ≤ Uses.maxCount) :
    s'.uses.of p.id = s.uses.of p.id + (if Served.isSale p.id ⟨s, op, a⟩ then 1 else 0) ∧
      (Served.isSale p.id ⟨s, op, a⟩ → s.uses.of p.id < limit) := by
  cases h with
  | @sale run _ hpurchase ha hsells =>
    rw [hsells.uses]
    by_cases hid : run.project.id = p.id
    · obtain rfl : run.project = p := hsells.project_eq hids hp hid
      have hlt : s.uses.of run.project.id < limit := hsells.lt_limit hlimit
      rw [if_pos (Served.isSale_iff.mpr ⟨hpurchase, ha⟩)]
      exact ⟨Uses.of_count_of_lt (Nat.lt_of_lt_of_le hlt hmax), fun _ => hlt⟩
    · have hnot : ¬ Served.isSale p.id ⟨s, op, a⟩ := by simp [Served.isSale_iff, hpurchase, hid]
      rw [if_neg hnot]
      exact ⟨Uses.of_count_of_ne (Ne.symm hid), fun hsale => absurd hsale hnot⟩
  | idle hsale huses =>
    rw [if_neg (hsale p.id), huses hop]
    exact ⟨rfl, fun hsold => absurd hsold (hsale p.id)⟩

end

end Session

namespace Session.Stretch

variable [SaveStore σ] {start s : Session ρ σ} {log : List (Served ρ σ)} {p : Project}
  {limit : Nat} (hids : (start.game.projects.map Project.id).Nodup)

include hids

/-- The effects of a project are run as often as it is sold. -/
theorem exists_runs (h : start.Stretch log s) :
    ∃ runs, List.Forall₂ Served.Trades log runs ∧
      ∀ p ∈ start.game.projects, EffectRun.timesOf p runs.flatten = Served.sold p.id log := by
  induction h with
  | refl => exact ⟨[], .nil, fun p hp => rfl⟩
  | call hs hop hcall ih =>
    obtain ⟨runs, htrades, htimes⟩ := ih
    obtain ⟨last, hlast⟩ := apply_trades hcall
    refine ⟨runs ++ [last], List.rel_append htrades (.cons ⟨_, hcall, hlast⟩ .nil), fun p hp => ?_⟩
    have honce := hlast.timesOf_eq (hs.game ▸ hids) (hs.game ▸ hp)
    rw [List.flatten_append, List.flatten_singleton, EffectRun.timesOf_append, htimes p hp, honce,
      Served.sold_append]
  | share _ ih => exact ih

/-- The count of a project with a limit grows by its sales, and they are no more than the limit
leaves. -/
theorem uses_of_eq (h : start.Stretch log s) (hp : p ∈ start.game.projects)
    (hlimit : p.limit? = some limit) (hmax : limit ≤ Uses.maxCount) :
    s.uses.of p.id = start.uses.of p.id + Served.sold p.id log ∧
      Served.sold p.id log ≤ limit - start.uses.of p.id := by
  induction h with
  | refl => exact ⟨rfl, Nat.zero_le _⟩
  | @call log s op a s' hs hop hcall ih =>
    obtain ⟨huses, hle⟩ := ih
    obtain ⟨runs, htrades⟩ := apply_trades hcall
    obtain ⟨hgrown, hopen⟩ :=
      htrades.uses_of_eq (hs.game ▸ hids) (hs.game ▸ hp) hop hlimit hmax
    rw [Served.sold_append, hgrown, huses, Nat.add_assoc]
    refine ⟨rfl, ?_⟩
    -- Before a sale the count was below the limit, and it is what the sales have made of it.
    by_cases hsale : Served.isSale p.id ⟨s, op, a⟩
    · have hlt := hopen hsale
      rw [if_pos hsale]
      omega
    · rw [if_neg hsale]
      exact hle
  | share _ ih => exact ih

/-- Between one reset or load and the next, the effects of a project are run as often as a purchase
of it is answered with yes. Each time its price is paid, they are run to their end in what is left,
and the call leaves what comes of this. The count of the uses of a project with a limit grows by as
much, and that is not more than the limit leaves of what it began with. No other call changes any
count. -/
theorem sales_counted (h : start.Stretch log s) :
    (∃ runs, List.Forall₂ Served.Trades log runs ∧
      ∀ p ∈ start.game.projects, EffectRun.timesOf p runs.flatten = Served.sold p.id log) ∧
    (∀ p ∈ start.game.projects, ∀ limit, p.limit? = some limit → limit ≤ Uses.maxCount →
      s.answer (.uses p.id) = .ok (.count (start.uses.of p.id + Served.sold p.id log)) ∧
        Served.sold p.id log ≤ limit - start.uses.of p.id) ∧
    ∀ op a s', s.apply op = .ok (a, s') → ¬ op.restarts →
      (∀ id, op ≠ .play (.purchase id)) → s'.uses = s.uses := by
  refine ⟨h.exists_runs hids, fun p hp limit hlimit hmax => ?_,
    fun op a s' hcall hop hpurchase => apply_uses hop hpurchase hcall⟩
  obtain ⟨huses, hle⟩ := h.uses_of_eq hids hp hlimit hmax
  rw [answer, huses]
  exact ⟨rfl, hle⟩

end Session.Stretch

/-- A shed that can be built twice. What is left over is sold, and brings the price in again. -/
def shed : Project where
  id := "shed"
  costs := [⟨"wood", .lit (.number 1.0)⟩]
  effects := [.trigger "leftovers" []]
  repeatable := true
  maxUses := some 2

/-- A farm with a shed and a well. -/
def farmGame : Game where
  identity := { id := "farm", name := "Farm" }
  declarations := [{ id := "wood", initial := some (.number 1.0) }]
  rules := [{ id := "sale", timing := .event, event := some "leftovers",
              actions := [.add "wood" (.lit (.number 1.0))] }]
  projects := [shed, { id := "well" }]

namespace Session

/-- The session after a purchase. -/
def buy (s : Session ρ σ) (id : String) : Session ρ σ :=
  match s.purchase id with
  | .ok (_, s') => s'
  | .error _ => s

theorem apply_buy [SaveStore σ] {s : Session ρ σ} {id : String} {bought : Bool}
    (h : (s.purchase id).map Prod.fst = .ok bought) :
    s.apply (.play (.purchase id)) = .ok (.holds bought, s.buy id) := by
  refine Outcome.map_fst_eq_ok_iff.mpr ⟨bought, ?_, rfl⟩
  unfold buy
  rcases hpurchase : s.purchase id with f | ⟨b, s'⟩
  · rw [hpurchase] at h
    cases h
  · rw [hpurchase] at h
    obtain rfl := Except.ok.inj h
    rfl

/-- The farm before anything is built. -/
def newFarm : Session Xorshift MemoryStore := ofGame farmGame (Xorshift.ofWord 1) MemoryStore.empty

/-- The calls on the farm: the shed is asked for three times. -/
def farmCalls : List (Served Xorshift MemoryStore) :=
  [⟨newFarm, .play (.purchase "shed"), .holds true⟩,
    ⟨newFarm.buy "shed", .play (.purchase "shed"), .holds true⟩,
    ⟨(newFarm.buy "shed").buy "shed", .play (.purchase "shed"), .holds false⟩]

set_option maxRecDepth 10000 in
theorem farm_stretch :
    newFarm.Stretch farmCalls (((newFarm.buy "shed").buy "shed").buy "shed") := by
  have hfirst : newFarm.apply (.play (.purchase "shed")) = .ok (.holds true, newFarm.buy "shed") :=
    apply_buy (by decide +kernel)
  have hsecond : (newFarm.buy "shed").apply (.play (.purchase "shed")) =
      .ok (.holds true, (newFarm.buy "shed").buy "shed") :=
    apply_buy (by decide +kernel)
  have hthird : ((newFarm.buy "shed").buy "shed").apply (.play (.purchase "shed")) =
      .ok (.holds false, ((newFarm.buy "shed").buy "shed").buy "shed") :=
    apply_buy (by decide +kernel)
  exact ((Stretch.refl.call (by decide) hfirst).call (by decide) hsecond).call (by decide) hthird

/-- The shed is built twice, though there is wood for a third one. -/
theorem farm_sales_counted :
    (farmGame.projects.map Project.id).Nodup ∧ 2 ≤ Uses.maxCount ∧
    (∃ runs, List.Forall₂ Served.Trades farmCalls runs ∧
      EffectRun.timesOf shed runs.flatten = 2) ∧
    (((newFarm.buy "shed").buy "shed").buy "shed").answer (.uses "shed") = .ok (.count 2) ∧
    Served.sold "shed" farmCalls ≤ 2 - 0 := by
  have hids : (farmGame.projects.map Project.id).Nodup := by decide
  have hmax : 2 ≤ Uses.maxCount := by decide
  have hsold : Served.sold "shed" farmCalls = 2 := by decide
  obtain ⟨⟨runs, htrades, htimes⟩, hcounts, -⟩ := farm_stretch.sales_counted hids
  obtain ⟨hanswer, hlimit⟩ := hcounts shed List.mem_cons_self 2 rfl hmax
  have hanswer' : (((newFarm.buy "shed").buy "shed").buy "shed").answer (.uses "shed") =
      .ok (.count (0 + Served.sold "shed" farmCalls)) := hanswer
  rw [hsold] at hanswer'
  refine ⟨hids, hmax, ⟨runs, htrades, ?_⟩, hanswer', hlimit⟩
  rw [htimes shed List.mem_cons_self]
  exact hsold

end Session

end IdleGame
