import IdleGame.Proofs.Phase.Entry
import IdleGame.Proofs.Session.Delivery
import IdleGame.Proofs.Store

/-!
# The phases that a session goes through

The current phase changes in ticks, when a session is reset and when it loads. A tick enters the
phase that becomes the current one in it; a session that is reset or loaded enters none. So the
entry actions of a phase are run as often as a tick changes the current phase to it.

## Main definitions

* `Stage` - what sets the current phase
* `Stage.Leads` - stages lead from one current phase to another, and enter what they should
* `Session.TickEnters` - what a tick does for the phases
* `Session.Journey` - a session after any calls, with the stages on the way

## Main results

* `Session.step_enters` - a tick enters the phase that becomes the current one in it
* `Session.apply_leads` - the stages of a call lead to the phase after it
* `Stage.Leads.entriesOf_eq` - a phase is entered as often as a tick changes the current phase to it
* `Session.Journey.enters_at_changes` - so it is in every run, also when saves are loaded in it
-/

namespace IdleGame

/-- What sets the current phase: a tick, which may enter phases, or a session that is reset or
loaded. -/
inductive Stage where
  | tick (phase : Option String) (entries : List Phase)
  | restart (phase : Option String)

namespace Stage

/-- The current phase afterwards. -/
def phase : Stage → Option String
  | .tick phase _ | .restart phase => phase

/-- The phases whose entry actions are run. -/
def entries : Stage → List Phase
  | .tick _ entries => entries
  | .restart _ => []

/-- How often the entry actions of a phase are run. -/
def entriesOf (id : String) (log : List Stage) : Nat := (log.flatMap entries).countP (·.id = id)

/-- In how many ticks the current phase becomes another one. -/
def changesTo (id : String) : Option String → List Stage → Nat
  | _, [] => 0
  | current, .tick phase _ :: log =>
    (if phase = some id ∧ current ≠ some id then 1 else 0) + changesTo id phase log
  | _, .restart phase :: log => changesTo id phase log

/-- Stages lead from one current phase to another. In each tick the phase is entered that becomes
the current one. -/
inductive Leads (phases : List Phase) : Option String → List Stage → Option String → Prop
  | nil {c} : Leads phases c [] c
  | tick {c c' c'' log} (h : Leads phases c' log c'') :
      Leads phases c (.tick c' (Phase.entrants phases c c') :: log) c''
  | restart {c c' c'' log} (h : Leads phases c' log c'') : Leads phases c (.restart c' :: log) c''

variable {phases : List Phase} {p : Phase} {c c' c'' : Option String} {log log' : List Stage}

/-- Stages go on where others have led to. -/
theorem Leads.append (h : Leads phases c log c') (h' : Leads phases c' log' c'') :
    Leads phases c (log ++ log') c'' := by
  induction h with
  | nil => exact h'
  | tick _ ih => exact .tick (ih h')
  | restart _ ih => exact .restart (ih h')

/-- What comes behind a stage leads on from its phase. -/
theorem Leads.behind {before after : List Stage} {stage : Stage}
    (h : Leads phases c (before ++ stage :: after) c') : Leads phases stage.phase after c' := by
  induction before generalizing c with
  | nil =>
    cases h with
    | tick h | restart h => exact h
  | cons stage before ih =>
    cases h with
    | tick h | restart h => exact ih h

/-- While the current phase stays the same, no phase is entered. -/
theorem Leads.stays {stay after : List Stage} (h : Leads phases c (stay ++ after) c')
    (hstay : ∀ stage ∈ stay, stage.phase = c) : stay.flatMap entries = [] := by
  induction stay with
  | nil => rfl
  | cons stage stay ih =>
    rw [List.forall_mem_cons] at hstay
    obtain ⟨hfirst, hlater⟩ := hstay
    cases h with
    | @tick _ c₁ _ _ h =>
      obtain rfl : c₁ = c := hfirst
      rw [List.flatMap_cons, ih h hlater, entries, Phase.entrants_self]
      rfl
    | @restart _ c₁ _ _ h =>
      obtain rfl : c₁ = c := hfirst
      rw [List.flatMap_cons, ih h hlater]
      rfl

/-- The entry actions of a phase are run as often as a tick changes the current phase to it. -/
theorem Leads.entriesOf_eq (h : Leads phases c log c') (hids : (phases.map Phase.id).Nodup)
    (hp : p ∈ phases) : entriesOf p.id log = changesTo p.id c log := by
  induction h with
  | nil => rfl
  | @tick c c' c'' log _ ih =>
    -- The tick counts on both sides when the phase becomes the current one in it.
    have hone : (Phase.entrants phases c c').countP (·.id = p.id) =
        if c' = some p.id ∧ c ≠ some p.id then 1 else 0 :=
      Phase.countP_entrants hids hp
    rw [entriesOf, List.flatMap_cons, List.countP_append, changesTo, ← hone, ← ih]
    rfl
  | restart _ ih => exact ih

end Stage

variable {ρ σ : Type} [RandomSource ρ]

namespace Session

/-- The stage of a tick. -/
def tickStages (s : Session ρ σ) : List Stage :=
  Outcome.listed s.firePasses fun progress =>
    Outcome.listed (Phase.updateNoting (s.surroundings Table.empty) s.game.phases s.phase
      progress.scope) fun (entries, update) => [.tick update.current entries]

section

variable [SaveStore σ]

/-- The stages of ticks, one after the other. -/
def ticksStages : Nat → Session ρ σ → List Stage
  | 0, _ => []
  | n + 1, s => s.tickStages ++ Outcome.listed s.step fun (_, s') => ticksStages n s'

/-- The stages of a call. -/
def stages (s : Session ρ σ) : Operation → List Stage
  | .play .tick => if s.running then s.tickStages else []
  | .play (.catchUp n) => if s.running then ticksStages n s else []
  | .play .reset => [.restart none]
  | .load slot => [.restart (s.load slot).2.phase]
  | _ => []

/-- A tick runs its rules, finds the first phase whose trigger holds in the world that they leave
behind, runs the entry actions of phases, and ends as every tick does. -/
inductive TickEnters (s : Session ρ σ) (found : Option Phase) (entries : List Phase) :
    Session ρ σ → Prop
  | of_parts {progress r scope fired t} (hrules : s.firePasses = .ok progress)
      (hfound : Phase.IsFirst (progress.scope.world.view Table.empty none) s.game.phases
        progress.scope.world.random found r)
      (hentries : Phase.enterAll (s.surroundings Table.empty) entries
        (progress.scope.drawnTo r) = .ok scope)
      (hsettle : { s with records := progress.records, phase := found.map Phase.id }.settle scope =
        .ok (fired, t)) :
      TickEnters s found entries (s.tickEnding t)

/-- A session of a game after any calls, with the stages on the way. -/
inductive Journey (g : Game) : List Stage → Session ρ σ → Prop
  | new {random store} : Journey g [] (ofGame g random store)
  | call {log s op a s'} (h : Journey g log s) (hcall : s.apply op = .ok (a, s')) :
      Journey g (log ++ s.stages op) s'
  | share {log s store} (h : Journey g log s) : Journey g log { s with store }

end

variable {g : Game} {sources : Set ρ} {s s' t : Session ρ σ} {op : Operation}
  {queue : List (String × Values)} {log : List Stage} {a : Answer}

/-! ## Ticks -/

theorem Delivers.phase {ds : List (Delivery ρ σ)} (h : s.Delivers ds s') : s'.phase = s.phase := by
  induction h with
  | nil => rfl
  | cons _ _ ih => exact ih

theorem settle_phase {scope : Scope ρ} {fired : List String}
    (h : s.settle scope = .ok (fired, s')) : s'.phase = s.phase := by
  have hdelivers := (handleTriggers_delivers h).1
  exact hdelivers.phase

variable [SaveStore σ]

theorem tickEnding_phase : (s.tickEnding t).phase = t.phase := by
  unfold tickEnding autosave
  split
  · split <;> rfl
  · rfl

/-- A tick makes the first phase whose trigger holds after its rules the current one, or none if
none does, and enters it if that has not been the current one before. -/
theorem step_enters (hids : (s.game.phases.map Phase.id).Nodup) {summary : TickSummary}
    (h : s.step = .ok (summary, s')) :
    ∃ found entries, s.TickEnters found entries s' ∧ s'.phase = found.map Phase.id ∧
      entries = Phase.entrants s.game.phases s.phase s'.phase ∧
      s.tickStages = [.tick s'.phase entries] ∧
      summary.entered = entries.head?.map Phase.id := by
  rw [step_eq, runPasses_eq] at h
  obtain ⟨⟨progress', update'⟩, hrun, h⟩ := Outcome.bind_eq_ok_iff.mp h
  obtain ⟨progress, hrules, hrun⟩ := Outcome.bind_eq_ok_iff.mp hrun
  obtain ⟨update, hupdate, hrun⟩ := Outcome.bind_eq_ok_iff.mp hrun
  obtain ⟨rfl, rfl⟩ := Prod.mk.inj (Except.ok.inj hrun)
  obtain ⟨⟨fired, t⟩, hsettle, h⟩ := Outcome.bind_eq_ok_iff.mp h
  obtain ⟨rfl, hending⟩ := Prod.mk.inj (Except.ok.inj h)
  obtain rfl : s.tickEnding t = s' := hending
  obtain ⟨entries, hnoting⟩ := Phase.updateNoting_of_update hupdate
  obtain ⟨found, r, hfound, hcurrent, hentrants, henters, hentered⟩ :=
    Phase.updateNoting_ok hids hnoting
  -- Triggers are handled after the update, and no rule changes the current phase.
  have hphase : (s.tickEnding t).phase = update.current :=
    tickEnding_phase.trans (settle_phase hsettle)
  have hsettled : { s with records := progress.records, phase := found.map Phase.id }.settle
      update.scope = .ok (fired, t) := by
    rw [← hcurrent]
    exact hsettle
  refine ⟨found, entries, ?_, hphase.trans hcurrent, ?_, ?_, hentered⟩
  · exact .of_parts hrules hfound henters hsettled
  · rw [hphase]
    exact hentrants
  · rw [hphase, tickStages, hrules, Outcome.listed_ok, hnoting, Outcome.listed_ok]

/-- The stage of a tick leads to the phase after it. -/
theorem step_leads (hids : (s.game.phases.map Phase.id).Nodup) {summary : TickSummary}
    (h : s.step = .ok (summary, s')) :
    Stage.Leads s.game.phases s.phase s.tickStages s'.phase := by
  obtain ⟨found, entries, -, -, hentrants, hstages, -⟩ := step_enters hids h
  rw [hstages, hentrants]
  exact .tick .nil

theorem ticksStages_leads {n : Nat} (hids : (s.game.phases.map Phase.id).Nodup)
    (h : steps n s = .ok s') :
    Stage.Leads s.game.phases s.phase (ticksStages n s) s'.phase := by
  induction n generalizing s with
  | zero =>
    obtain rfl := Except.ok.inj h
    exact .nil
  | succ n ih =>
    rw [steps] at h
    obtain ⟨⟨summary, t⟩, hstep, h⟩ := Outcome.bind_eq_ok_iff.mp h
    have hturns : t.game = s.game ∧ s.world.Turns s.game (.play .tick) t.world :=
      step_turns hstep
    obtain ⟨hgame, -⟩ := hturns
    rw [ticksStages, hstep, Outcome.listed_ok]
    have hlater := ih (hgame ▸ hids) h
    rw [hgame] at hlater
    exact (step_leads hids hstep).append hlater

/-! ## Calls -/

omit [SaveStore σ] in
/-- Only the own pass of a tick changes the current phase. -/
theorem ownPass_phase (hop : op ≠ .play .tick) (h : s.ownPass op = .ok (t, queue)) :
    t.phase = s.phase := by
  -- Where a call has no own pass, the session is as it was.
  have hrest (h : Except.ok (s, []) = (.ok (t, queue) : Except Fault _)) : t.phase = s.phase := by
    obtain ⟨rfl, -⟩ := Prod.mk.inj (Except.ok.inj h)
    rfl
  cases op with
  | play move =>
    cases move with
    | tick => exact (hop rfl).elim
    | perform name params =>
      rcases hfunction : s.game.function? name with _ | actions
      · rw [ownPass, hfunction] at h
        exact hrest h
      · rw [ownPass, hfunction] at h
        obtain ⟨scope, -, h⟩ := Outcome.bind_eq_ok_iff.mp h
        obtain ⟨rfl, -⟩ := Prod.mk.inj (Except.ok.inj h)
        rfl
    | trigger event params =>
      obtain ⟨rfl, -⟩ := Prod.mk.inj (Except.ok.inj h)
      rfl
    | purchase id =>
      rcases hproject : s.game.project? id with _ | p
      · rw [ownPass, hproject] at h
        exact hrest h
      · rw [ownPass, hproject] at h
        obtain ⟨_ | ⟨uses, scope⟩, -, h⟩ := Outcome.bind_eq_ok_iff.mp h
        · exact hrest h
        · obtain ⟨rfl, -⟩ := Prod.mk.inj (Except.ok.inj h)
          rfl
    | _ => exact hrest h
  | _ => exact hrest h

/-- Of the calls that deliver triggers only a tick changes the current phase. -/
theorem apply_phase (hop : op.settles) (htick : op ≠ .play .tick)
    (h : s.apply op = .ok (a, s')) : s'.phase = s.phase := by
  obtain ⟨t', ⟨t, queue, fired, hpass, hhandles⟩, rfl⟩ := apply_settles hop h
  have hending : s.ending op t' = t' := by
    unfold ending
    split
    · exact (htick rfl).elim
    · rfl
  have hdelivers := (handleTriggers_delivers hhandles).1
  rw [hending]
  exact hdelivers.phase.trans (ownPass_phase htick hpass)

/-- The stages of a call lead to the current phase after it. -/
theorem apply_leads (hids : (s.game.phases.map Phase.id).Nodup)
    (h : s.apply op = .ok (a, s')) :
    Stage.Leads s.game.phases s.phase (s.stages op) s'.phase := by
  cases op with
  | play move =>
    cases move with
    | tick =>
      obtain ⟨summary, htick, -⟩ := Outcome.map_fst_eq_ok_iff.mp h
      rw [stages]
      rcases tick_ok htick with ⟨hrunning, done, hstep, -⟩ | ⟨hstopped, -, rfl⟩
      · rw [if_pos hrunning]
        exact step_leads hids hstep
      · rw [if_neg hstopped]
        exact .nil
    | catchUp n =>
      obtain ⟨m, hcatchUp, -⟩ := Outcome.map_fst_eq_ok_iff.mp h
      rw [stages]
      rcases catchUp_ok hcatchUp with ⟨hrunning, hsteps⟩ | ⟨hstopped, rfl⟩
      · rw [if_pos hrunning]
        exact ticksStages_leads hids hsteps
      · rw [if_neg hstopped]
        exact .nil
    | perform | trigger | purchase =>
      have hphase : s'.phase = s.phase := by
        refine apply_phase ?_ ?_ h
        · rfl
        · exact nofun
      rw [hphase]
      exact .nil
    | reset =>
      obtain ⟨-, rfl⟩ := Prod.mk.inj (Except.ok.inj h)
      exact .restart .nil
    | _ =>
      obtain ⟨-, rfl⟩ := Prod.mk.inj (Except.ok.inj h)
      exact .nil
  | ask query =>
    obtain ⟨a', -, h⟩ := Outcome.bind_eq_ok_iff.mp h
    obtain ⟨-, rfl⟩ := Prod.mk.inj (Except.ok.inj h)
    exact .nil
  | load slot =>
    rw [apply_load] at h
    obtain ⟨-, rfl⟩ := Prod.mk.inj (Except.ok.inj h)
    exact .restart .nil
  | _ =>
    obtain ⟨-, rfl⟩ := Prod.mk.inj (Except.ok.inj h)
    exact .nil

/-! ## Runs -/

/-- Every reachable session has a journey. -/
theorem Reachable.journey (h : s.Reachable g sources) : ∃ log, s.Journey g log := by
  induction h with
  | new => exact ⟨_, .new⟩
  | call _ hcall ih =>
    obtain ⟨log, hjourney⟩ := ih
    exact ⟨_, hjourney.call hcall⟩
  | share _ ih =>
    obtain ⟨log, hjourney⟩ := ih
    exact ⟨_, hjourney.share⟩

namespace Journey

theorem game (h : s.Journey g log) : s.game = g := by
  induction h with
  | new => rfl
  | call _ hcall ih => exact (apply_game hcall).trans ih
  | share _ ih => exact ih

/-- The stages of a journey lead from no phase to the current one. -/
theorem leads (h : s.Journey g log) (hids : (g.phases.map Phase.id).Nodup) :
    Stage.Leads g.phases none log s.phase := by
  induction h with
  | new => exact .nil
  | call hs hcall ih =>
    have hcalled := apply_leads (hs.game ▸ hids) hcall
    rw [hs.game] at hcalled
    exact ih.append hcalled
  | share _ ih => exact ih

/-- A journey goes on from a save in the phase in which that was taken. -/
theorem load (h : s.Journey g log) (ht : t.game = g) {slot : String}
    (hslot : Slot.load s.store g.identity.id slot = .ok (some t.snapshot)) :
    (s.load slot).1 ∧ (s.load slot).2.Journey g (log ++ [.restart t.phase]) := by
  have hgame : t.game = s.game := ht.trans h.game.symm
  have hload := load_of_snapshot hgame (h.game.symm ▸ hslot)
  have hcalled := h.call (apply_load s slot)
  rw [stages, hload] at hcalled
  rw [hload]
  exact ⟨rfl, hcalled⟩

/-- In every run of a game whose phases have different ids, a tick makes the first phase whose
trigger holds after its rules the current one, and enters it if that has not been the current one
before. So a phase is entered as often as a tick changes the current phase to it. While the
current phase stays the same, be it from a tick or from a save, no phase is entered, and loading a
save goes on in the phase in which that was taken. -/
theorem enters_at_changes (h : s.Journey g log) (hids : (g.phases.map Phase.id).Nodup) :
    Stage.Leads g.phases none log s.phase ∧
    (∀ p ∈ g.phases, Stage.entriesOf p.id log = Stage.changesTo p.id none log) ∧
    (∀ before stage stay after, log = before ++ stage :: (stay ++ after) →
      (∀ later ∈ stay, later.phase = stage.phase) → stay.flatMap Stage.entries = []) ∧
    (∀ summary s', s.step = .ok (summary, s') →
      ∃ found entries, s.TickEnters found entries s' ∧ s'.phase = found.map Phase.id ∧
        entries = Phase.entrants g.phases s.phase s'.phase ∧
        s.tickStages = [.tick s'.phase entries] ∧
        summary.entered = entries.head?.map Phase.id) ∧
    ∀ (t : Session ρ σ) slot, t.game = g →
      Slot.load s.store g.identity.id slot = .ok (some t.snapshot) →
      (s.load slot).1 ∧ (s.load slot).2.Journey g (log ++ [.restart t.phase]) := by
  have hleads := h.leads hids
  refine ⟨hleads, fun p hp => hleads.entriesOf_eq hids hp, ?_, ?_, ?_⟩
  · rintro before stage stay after rfl hstay
    exact hleads.behind.stays hstay
  · intro summary s' hstep
    have henters := step_enters (h.game ▸ hids) hstep
    rwa [h.game] at henters
  · exact fun t slot ht hslot => h.load ht hslot

end Journey

end Session

/-- A harbour in which the hours go round in fours. A lamp is lit whenever the night comes. -/
def harbourGame : Game where
  identity := { id := "harbour", name := "Harbour" }
  declarations := [{ id := "hour" }, { id := "lamps" }]
  phases := [
    { id := "day", trigger := .comparison .gte (.ref "hour") (.lit (.number 2.0)) },
    { id := "night", trigger := .always, onEnter := [.add "lamps" (.lit (.number 1.0))] }]
  rules := [{ id := "turn", actions := [.set "hour" (.choice
    (.comparison .lt (.ref "hour") (.lit (.number 3.0)))
    (.arithmetic .add [.ref "hour", .lit (.number 1.0)]) (.lit (.number 0.0)))] }]

namespace Session

/-- The harbour while time passes. -/
def newHarbour : Session Xorshift MemoryStore :=
  (ofGame harbourGame (Xorshift.ofWord 3) MemoryStore.empty).start

/-- The harbour after four ticks, when the night has come for the second time. -/
def harbour : Session Xorshift MemoryStore :=
  match steps 4 newHarbour with
  | .ok s => s
  | .error _ => newHarbour

/-- The harbour with a store in which it has been saved. -/
def savedHarbour : Session Xorshift MemoryStore :=
  { harbour with store := (harbour.save "dusk").2.store }

/-- The stages of the four ticks. -/
def harbourStages : List Stage := newHarbour.stages (.play (.catchUp 4))

set_option maxRecDepth 10000 in
theorem newHarbour_steps : steps 4 newHarbour = .ok harbour := by
  have hok : (steps 4 newHarbour).isOk := by decide +kernel
  obtain ⟨s, h⟩ := Outcome.exists_eq_ok_of_isOk hok
  rw [harbour, h]

theorem harbour_journey : harbour.Journey harbourGame harbourStages := by
  have hstart : (ofGame harbourGame (Xorshift.ofWord 3) MemoryStore.empty).apply (.play .start) =
      .ok (.done, newHarbour) := rfl
  have hcatchUp : newHarbour.apply (.play (.catchUp 4)) = .ok (.count 4, harbour) :=
    apply_catchUp rfl newHarbour_steps
  exact (Journey.new.call hstart).call hcatchUp

set_option maxRecDepth 10000 in
theorem harbour_decodes : Snapshot.decode? harbour.snapshot.encode = some harbour.snapshot := by
  rw [Snapshot.decode?_encode]
  decide +kernel

theorem savedHarbour_holds : Slot.load savedHarbour.store harbourGame.identity.id "dusk" =
    .ok (some harbour.snapshot) := by
  have hgame : harbour.game = harbourGame := harbour_journey.game
  have hholds : Slot.load savedHarbour.store harbour.game.identity.id "dusk" =
      .ok (some harbour.snapshot) :=
    Slot.load_save rfl harbour_decodes
  rwa [hgame] at hholds

set_option maxRecDepth 10000 in
theorem harbourStages_entriesOf : Stage.entriesOf "night" harbourStages = 2 := by decide +kernel

theorem savedHarbour_load :
    savedHarbour.load "dusk" = (true, savedHarbour.restore harbour.snapshot) := by
  have hsaved : savedHarbour.game = harbourGame := harbour_journey.share.game
  have hgame : harbour.game = savedHarbour.game := harbour_journey.game.trans hsaved.symm
  exact load_of_snapshot hgame (hsaved.symm ▸ savedHarbour_holds)

set_option maxRecDepth 10000 in
theorem restore_tick :
    ((savedHarbour.restore harbour.snapshot).apply (.play .tick)).isOk ∧
      ∀ later ∈ (savedHarbour.restore harbour.snapshot).stages (.play .tick),
        later.phase = harbour.phase := by
  decide +kernel

/-- The night comes as often as a lamp is lit. The tick after the save has been loaded is still in
the night, and no lamp is lit in it. -/
theorem savedHarbour_enters_at_changes :
    (harbourGame.phases.map Phase.id).Nodup ∧
    Stage.changesTo "night" none harbourStages = 2 ∧ (savedHarbour.load "dusk").1 ∧
    ((savedHarbour.load "dusk").2.stages (.play .tick)).flatMap Stage.entries = [] := by
  have hids : (harbourGame.phases.map Phase.id).Nodup := by decide
  have hsaved : savedHarbour.Journey harbourGame harbourStages := harbour_journey.share
  obtain ⟨-, hcount, -, -, hload⟩ := hsaved.enters_at_changes hids
  obtain ⟨hloaded, hjourney⟩ := hload harbour "dusk" harbour_journey.game savedHarbour_holds
  rw [savedHarbour_load] at hloaded hjourney ⊢
  obtain ⟨hok, hstay⟩ := restore_tick
  obtain ⟨⟨a, s⟩, htick⟩ := Outcome.exists_eq_ok_of_isOk hok
  have hstays := ((hjourney.call htick).enters_at_changes hids).2.2.1 harbourStages
    (.restart harbour.phase) _ [] (by simp) hstay
  have hnight := hcount _ (List.mem_cons_of_mem _ List.mem_cons_self)
  exact ⟨hids, hnight.symm.trans harbourStages_entriesOf, hloaded, hstays⟩

end Session

end IdleGame
