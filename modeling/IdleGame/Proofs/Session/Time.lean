import IdleGame.Proofs.Session.Trial

/-!
# The ticks of a call

Two calls let time pass, one tick or several, if the session is running. Other calls leave the clock
as it is, unless they begin anew. What happens in the ticks of a call is listed tick by tick.

## Main definitions

* `Operation.passesTime` - whether a call lets time pass
* `Session.listedTicks` - what is listed of the ticks of a call
* `Session.Rests` - a session stands where it did before a call

## Main results

* `Session.listedTicks_leads` - a call leads where its ticks do, if each tick leads where its list
  does
* `Session.step_seconds` - a tick that closes a second completes it
* `Session.step_uses` - a tick changes no count of uses
* `Session.apply_rests` - other calls leave the session where it stands
-/

namespace IdleGame

/-- Whether a call lets time pass in a session that runs. -/
def Operation.passesTime : Operation → Bool
  | .play .tick | .play (.catchUp _) => true
  | _ => false

/-- Whether a call writes a slot or empties it because it is told to. -/
def Operation.changesSlot : Operation → Bool
  | .save _ | .clearSave _ => true
  | _ => false

namespace Session

variable {ρ σ α : Type} [RandomSource ρ] [SaveStore σ]

/-- A session stands where another one did before a call: at the same time and with the same time of
the last save. Its store is the same as well, unless the call is about a slot, and so are the counts
of uses, unless it is a purchase. -/
structure Rests (s : Session ρ σ) (op : Operation) (s' : Session ρ σ) : Prop where
  game : s'.game = s.game
  clock : s'.world.clock = s.world.clock
  lastAutosave : s'.lastAutosave = s.lastAutosave
  store : ¬ op.changesSlot → s'.store = s.store
  uses : (∀ id, op ≠ .play (.purchase id)) → s'.uses = s.uses

/-- What is listed of ticks, one after the other, up to one that faults. -/
def listedSteps (each : Session ρ σ → List α) : Nat → Session ρ σ → List α
  | 0, _ => []
  | n + 1, s => each s ++ Outcome.listed s.step fun (_, s') => listedSteps each n s'

/-- What is listed of the ticks of a call. -/
def listedTicks (each : Session ρ σ → List α) (s : Session ρ σ) : Operation → List α
  | .play .tick => if s.running then each s else []
  | .play (.catchUp n) => if s.running then listedSteps each n s else []
  | _ => []

variable {each : Session ρ σ → List α} {s s' : Session ρ σ} {op : Operation}

theorem listedTicks_of_rests (hop : ¬ op.passesTime) : s.listedTicks each op = [] := by
  cases op with
  | play move =>
    cases move with
    | tick | catchUp n => exact (hop rfl).elim
    | _ => rfl
  | _ => rfl

section

variable (each) {R : Session ρ σ → List α → Session ρ σ → Prop} (hrefl : ∀ s, R s [] s)
  (happend : ∀ s t u as bs, R s as t → R t bs u → R s (as ++ bs) u)
  (hstep : ∀ s t summary, s.step = .ok (summary, t) → R s (each s) t)

include hrefl happend hstep

/-- Ticks lead where their list does, if each tick leads where its own does. -/
theorem listedSteps_leads {n : Nat} (h : steps n s = .ok s') : R s (listedSteps each n s) s' := by
  induction n generalizing s with
  | zero =>
    obtain rfl := Except.ok.inj h
    exact hrefl s
  | succ n ih =>
    rw [steps] at h
    obtain ⟨⟨summary, t⟩, hfirst, h⟩ := Outcome.bind_eq_ok_iff.mp h
    rw [listedSteps, hfirst, Outcome.listed_ok]
    exact happend _ _ _ _ _ (hstep _ _ _ hfirst) (ih h)

/-- A call that lets time pass leads where the list of its ticks does. -/
theorem listedTicks_leads {a : Answer} (hop : op.passesTime) (h : s.apply op = .ok (a, s')) :
    R s (s.listedTicks each op) s' := by
  cases op with
  | play move =>
    cases move with
    | tick =>
      obtain ⟨summary, htick, -⟩ := Outcome.map_fst_eq_ok_iff.mp h
      rcases tick_ok htick with ⟨hrunning, done, hfirst, -⟩ | ⟨hstopped, -, rfl⟩
      · rw [listedTicks, if_pos hrunning]
        exact hstep _ _ _ hfirst
      · rw [listedTicks, if_neg hstopped]
        exact hrefl _
    | catchUp n =>
      obtain ⟨m, hcatchUp, -⟩ := Outcome.map_fst_eq_ok_iff.mp h
      rcases catchUp_ok hcatchUp with ⟨hrunning, hsteps⟩ | ⟨hstopped, rfl⟩
      · rw [listedTicks, if_pos hrunning]
        exact listedSteps_leads each hrefl happend hstep hsteps
      · rw [listedTicks, if_neg hstopped]
        exact hrefl _
    | _ => cases hop
  | _ => cases hop

end

/-- What every tick keeps is kept by a call that lets time pass. -/
theorem kept_of_step {f : Session ρ σ → α}
    (hstep : ∀ s t summary, s.step = .ok (summary, t) → f t = f s) {a : Answer}
    (hop : op.passesTime) (h : s.apply op = .ok (a, s')) : f s' = f s :=
  listedTicks_leads (R := fun s (_ : List Unit) s' => f s' = f s) (fun _ => []) (fun _ => rfl)
    (fun _ _ _ _ _ hst htu => htu.trans hst) hstep hop h

/-- A tick that closes a second completes it. -/
theorem step_seconds {summary : TickSummary} (h : s.step = .ok (summary, s')) :
    s'.world.clock.seconds =
      if summary.second.isSome then s.world.clock.seconds + 1 else s.world.clock.seconds := by
  obtain ⟨-, hsecond, hclock⟩ := step_clock h
  rw [hclock, hsecond]
  rfl

/-- The session after ticks, if none of them faults. -/
def after (n : Nat) (s : Session ρ σ) : Session ρ σ :=
  match steps n s with
  | .ok s' => s'
  | .error _ => s

theorem steps_after {n : Nat} (h : (steps n s).isOk) : steps n s = .ok (s.after n) := by
  obtain ⟨s', hsteps⟩ := Outcome.exists_eq_ok_of_isOk h
  rw [after, hsteps]

theorem apply_catchUp_after {n : Nat} (hrunning : s.running) (h : (steps n s).isOk) :
    s.apply (.play (.catchUp n)) = .ok (.count n, s.after n) :=
  apply_catchUp hrunning (steps_after h)

/-! ## Calls that let no time pass -/

omit [SaveStore σ] in
theorem handleTriggers_uses {limit : Nat} {queue : List (String × Values)} {fired : List String}
    (h : handleTriggers limit queue s = .ok (fired, s')) : s'.uses = s.uses := by
  induction limit generalizing queue s fired with
  | zero =>
    obtain ⟨-, rfl⟩ := Prod.mk.inj (Except.ok.inj h)
    rfl
  | succ limit ih =>
    rcases queue with _ | ⟨⟨event, params⟩, queue⟩
    · obtain ⟨-, rfl⟩ := Prod.mk.inj (Except.ok.inj h)
      rfl
    · rw [handleTriggers_cons] at h
      obtain ⟨progress, -, h⟩ := Outcome.bind_eq_ok_iff.mp h
      obtain ⟨⟨fired', t⟩, hlater, h⟩ := Outcome.bind_eq_ok_iff.mp h
      obtain ⟨-, rfl⟩ := Prod.mk.inj (Except.ok.inj h)
      exact ih (s := s.afterDelivery progress) hlater

omit [SaveStore σ] in
theorem settle_uses {scope : Scope ρ} {fired : List String}
    (h : s.settle scope = .ok (fired, s')) : s'.uses = s.uses :=
  handleTriggers_uses (s := s.afterRun scope) h

omit [SaveStore σ] in
theorem perform_uses {name : String} {params : Values} {known : Bool}
    (h : s.perform name params = .ok (known, s')) : s'.uses = s.uses := by
  unfold perform at h
  split at h
  · obtain ⟨-, rfl⟩ := Prod.mk.inj (Except.ok.inj h)
    rfl
  · obtain ⟨scope, -, h⟩ := Outcome.bind_eq_ok_iff.mp h
    obtain ⟨⟨fired, t⟩, hsettle, h⟩ := Outcome.bind_eq_ok_iff.mp h
    obtain ⟨-, rfl⟩ := Prod.mk.inj (Except.ok.inj h)
    exact settle_uses hsettle

theorem step_uses {summary : TickSummary} (h : s.step = .ok (summary, s')) : s'.uses = s.uses := by
  rw [step_eq] at h
  obtain ⟨⟨progress, update⟩, -, h⟩ := Outcome.bind_eq_ok_iff.mp h
  obtain ⟨⟨fired, t⟩, hsettle, h⟩ := Outcome.bind_eq_ok_iff.mp h
  obtain ⟨-, rfl⟩ := Prod.mk.inj (Except.ok.inj h)
  have huses : t.uses = s.uses := settle_uses (s := s.afterPasses progress update) hsettle
  split
  · unfold autosave
    split <;> exact huses
  · exact huses

omit [SaveStore σ] in
theorem Plays.rests (h : s.Plays s')
    (huses : (∀ id, op ≠ .play (.purchase id)) → s'.uses = s.uses) : s.Rests op s' :=
  ⟨h.game, h.world.clock_eq, h.lastAutosave, fun _ => h.store, huses⟩

/-- A call that lets no time pass and does not begin anew leaves the session where it stands. -/
theorem apply_rests {a : Answer} (hrestarts : ¬ op.restarts) (hop : ¬ op.passesTime)
    (h : s.apply op = .ok (a, s')) : s.Rests op s' := by
  cases op with
  | play move =>
    cases move with
    | tick | catchUp n => exact (hop rfl).elim
    | perform name params =>
      obtain ⟨known, hperform, -⟩ := Outcome.map_fst_eq_ok_iff.mp h
      exact (perform_plays hperform).rests fun _ => perform_uses hperform
    | trigger event params =>
      obtain ⟨fired, htrigger, -⟩ := Outcome.map_fst_eq_ok_iff.mp h
      exact (handleTriggers_plays htrigger).rests fun _ => handleTriggers_uses htrigger
    | purchase id =>
      obtain ⟨bought, hpurchase, -⟩ := Outcome.map_fst_eq_ok_iff.mp h
      exact (purchase_plays hpurchase).rests fun hbuys => (hbuys id rfl).elim
    | start | stop | set id v | spawn kind properties | modify id properties | remove id =>
      obtain ⟨-, rfl⟩ := Prod.mk.inj (Except.ok.inj h)
      exact ⟨rfl, rfl, rfl, fun _ => rfl, fun _ => rfl⟩
    | reset => exact (hrestarts rfl).elim
  | ask query =>
    obtain ⟨a', -, h⟩ := Outcome.bind_eq_ok_iff.mp h
    obtain ⟨-, rfl⟩ := Prod.mk.inj (Except.ok.inj h)
    exact ⟨rfl, rfl, rfl, fun _ => rfl, fun _ => rfl⟩
  | messages | takeMessages | takeEvents | hasSave slot =>
    obtain ⟨-, rfl⟩ := Prod.mk.inj (Except.ok.inj h)
    exact ⟨rfl, rfl, rfl, fun _ => rfl, fun _ => rfl⟩
  | save slot | clearSave slot =>
    obtain ⟨-, rfl⟩ := Prod.mk.inj (Except.ok.inj h)
    exact ⟨rfl, rfl, rfl, fun hkeeps => (hkeeps rfl).elim, fun _ => rfl⟩
  | load slot => exact (hrestarts rfl).elim

end Session

end IdleGame
