import IdleGame.Proofs.Entity.Population
import IdleGame.Proofs.Outcome
import IdleGame.Proofs.Session.Operation
import IdleGame.Store.Memory

/-!
# Looking at a session

Questions about a game, and requests that are refused, leave a session as it is, down to the
position of its random source, even if they evaluate expressions that draw. So it makes no
difference to a game how often it is looked at.

## Main definitions

* `Session.Observes` - a call that asks for something, or for something that is refused
* `Call` - a call of a run, and whether it has been put in between the others
* `Session.Watched` - a run in which the calls put in between are such calls, and do not fault

## Main results

* `Session.Observes.leaves` - such a call leaves the session as it is
* `Session.observers_leave_no_trace` - the other calls of a run are served as if there were none
-/

namespace IdleGame

/-- A call of a run, and whether it has been put in between the others. -/
structure Call where
  op : Operation
  added : Bool

namespace Call

/-- The calls of a run without those that have been put in. -/
def own (calls : List Call) : List Operation := (calls.filter (¬ ·.added)).map Call.op

/-- What has been noted after the calls that have not been put in. -/
def ownNotes {α : Type} (calls : List Call) (noted : List α) : List α :=
  ((calls.zip noted).filter (¬ ·.1.added)).map Prod.snd

variable {op : Operation} {calls : List Call}

theorem own_cons_own : own (⟨op, false⟩ :: calls) = op :: own calls := rfl

theorem own_cons_added : own (⟨op, true⟩ :: calls) = own calls := rfl

end Call

namespace Session

variable {ρ σ : Type} [RandomSource ρ] [SaveStore σ]

/-- A call that only asks for something, or for something that is not done: a project that is not
sold, a function that the game does not have, an entity that is not there. -/
inductive Observes (s : Session ρ σ) : Operation → Prop
  | ask {query} : Observes s (.ask query)
  | messages : Observes s .messages
  | hasSave {slot} : Observes s (.hasSave slot)
  | refused {id s'} (h : s.purchase id = .ok (false, s')) : Observes s (.play (.purchase id))
  | unknown {name params} (h : s.game.function? name = none) :
      Observes s (.play (.perform name params))
  | noneToModify {id properties} (h : ¬ s.world.population.contains id) :
      Observes s (.play (.modify id properties))
  | noneToRemove {id} (h : ¬ s.world.population.contains id) : Observes s (.play (.remove id))

/-- A run in which every call that has been put in only looks at the session that it finds, and has
an answer. -/
inductive Watched : List Call → Session ρ σ → Prop
  | nil {s} : Watched [] s
  | own {op calls s} (hlater : ∀ a s', s.apply op = .ok (a, s') → Watched calls s') :
      Watched (⟨op, false⟩ :: calls) s
  | added {op calls s a s'} (h : s.Observes op) (hcall : s.apply op = .ok (a, s'))
      (hlater : Watched calls s') : Watched (⟨op, true⟩ :: calls) s

variable {s s' : Session ρ σ} {op : Operation} {calls : List Call}

omit [SaveStore σ] in
/-- A purchase that is refused changes nothing. -/
theorem purchase_refused {id : String} (h : s.purchase id = .ok (false, s')) : s' = s := by
  unfold purchase at h
  split at h
  · exact (Prod.mk.inj (Except.ok.inj h)).2.symm
  · obtain ⟨_ | ⟨uses, scope⟩, -, h⟩ := Outcome.bind_eq_ok_iff.mp h
    · exact (Prod.mk.inj (Except.ok.inj h)).2.symm
    -- A purchase that goes through is not refused.
    · obtain ⟨⟨fired, t⟩, -, h⟩ := Outcome.bind_eq_ok_iff.mp h
      cases (Prod.mk.inj (Except.ok.inj h)).1

/-- A call that only looks leaves the session as it is. -/
theorem Observes.leaves {a : Answer} (h : s.Observes op) (hcall : s.apply op = .ok (a, s')) :
    s' = s := by
  cases h with
  | ask =>
    obtain ⟨a', -, hcall⟩ := Outcome.bind_eq_ok_iff.mp hcall
    exact (Prod.mk.inj (Except.ok.inj hcall)).2.symm
  | messages | hasSave => exact (Prod.mk.inj (Except.ok.inj hcall)).2.symm
  | refused h =>
    obtain ⟨bought, hpurchase, -⟩ := Outcome.map_fst_eq_ok_iff.mp hcall
    obtain ⟨rfl, rfl⟩ := Prod.mk.inj (Except.ok.inj (h.symm.trans hpurchase))
    exact purchase_refused h
  | unknown h =>
    obtain ⟨known, hperform, -⟩ := Outcome.map_fst_eq_ok_iff.mp hcall
    rw [perform, h] at hperform
    exact (Prod.mk.inj (Except.ok.inj hperform)).2.symm
  | @noneToModify id properties h =>
    obtain ⟨-, rfl⟩ := Prod.mk.inj (Except.ok.inj hcall)
    change s.onPopulation (s.world.population.modify id (·.patch properties)) = s
    rw [Population.modify_absent h]
    rfl
  | @noneToRemove id h =>
    obtain ⟨-, rfl⟩ := Prod.mk.inj (Except.ok.inj hcall)
    change s.onPopulation (s.world.population.remove id).2 = s
    rw [Population.remove_absent h]
    rfl

/-- Calls that only look, put in at whatever points of a run, leave no trace: the other calls have
the answers that they have without them, are followed by the same snapshots, and lead to the same
session, or fault where they do. -/
theorem observers_leave_no_trace (h : s.Watched calls) :
    applyAll (Call.own calls) s =
      (applyAll (calls.map Call.op) s).map fun (noted, t) => (Call.ownNotes calls noted, t) := by
  induction h with
  | nil => rfl
  | @own op calls s _ ih =>
    rw [Call.own_cons_own, List.map_cons, applyAll, applyAll]
    rcases hcall : s.apply op with f | ⟨a, s'⟩
    · rfl
    · simp only [Outcome.ok_bind]
      rw [ih a s' hcall]
      rcases applyAll (calls.map Call.op) s' with f | ⟨noted, t⟩ <;> rfl
  | @added op calls s a s' hobserves hcall _ ih =>
    obtain rfl := hobserves.leaves hcall
    rw [Call.own_cons_added, List.map_cons, applyAll, hcall, ih]
    simp only [Outcome.ok_bind]
    rcases applyAll (calls.map Call.op) s' with f | ⟨noted, t⟩ <;> rfl

end Session

/-- A raffle whose prize is open by chance and has a price by chance, so that asking for it draws,
and asking for it twice would draw twice. -/
def raffleGame : Game where
  identity := { id := "raffle", name := "Raffle" }
  declarations := [{ id := "luck", initial := some (.number 0.0) }]
  rules := [{ id := "turn", actions := [.set "luck" .random] }]
  projects := [{
    id := "prize"
    trigger := .comparison .gte .random (.lit (.number 0.0))
    costs := [⟨"luck", .arithmetic .add [.random, .lit (.number 1.0)]⟩] }]

namespace Session

/-- The raffle, running. -/
def raffle : Session Xorshift MemoryStore :=
  (ofGame raffleGame (Xorshift.ofWord 5) MemoryStore.empty).start

/-- A turn of the raffle. Before it somebody asks for the prize, tries to buy it, and calls for a
game and a ticket that do not exist; after it somebody takes a snapshot. -/
def watchedTurn : List Call :=
  [⟨.ask (.canAfford "prize"), true⟩, ⟨.play (.purchase "prize"), true⟩,
    ⟨.play (.perform "roulette" Table.empty), true⟩, ⟨.play (.remove ⟨7⟩), true⟩,
    ⟨.play .tick, false⟩, ⟨.ask .snapshot, true⟩]

theorem raffle_watched : raffle.Watched watchedTurn := by
  have hafford : raffle.canAfford "prize" = .ok false :=
    Outcome.toOption_eq_some_iff.mp (by decide +kernel)
  have hasked : raffle.apply (.ask (.canAfford "prize")) = .ok (.holds false, raffle) := by
    rw [apply, answer, hafford]
    rfl
  have hbought : (raffle.purchase "prize").map Prod.fst = .ok false :=
    Outcome.toOption_eq_some_iff.mp (by decide +kernel)
  obtain ⟨s', hrefused⟩ : ∃ s', raffle.purchase "prize" = .ok (false, s') := by
    rcases h : raffle.purchase "prize" with f | ⟨bought, s'⟩ <;> rw [h] at hbought
    · cases hbought
    · obtain rfl := Except.ok.inj hbought
      exact ⟨s', rfl⟩
  obtain rfl := purchase_refused hrefused
  have hpurchase : raffle.apply (.play (.purchase "prize")) = .ok (.holds false, raffle) :=
    Outcome.map_fst_eq_ok_iff.mpr ⟨_, hrefused, rfl⟩
  have hperform : raffle.apply (.play (.perform "roulette" Table.empty)) =
      .ok (.holds false, raffle) := rfl
  have hremove : raffle.apply (.play (.remove ⟨7⟩)) = .ok (.holds false, raffle) := rfl
  refine .added .ask hasked (.added (.refused hrefused) hpurchase ?_)
  refine .added (.unknown rfl) hperform (.added (.noneToRemove (by decide)) hremove ?_)
  exact .own fun a s' _ => .added .ask rfl .nil

/-- The turn is the same as without those who watch it. -/
theorem raffle_watched_without_trace :
    applyAll [.play .tick] raffle =
      (applyAll (watchedTurn.map Call.op) raffle).map
        fun (noted, t) => (Call.ownNotes watchedTurn noted, t) :=
  observers_leave_no_trace raffle_watched

end Session

end IdleGame
