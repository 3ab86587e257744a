import IdleGame.Proofs.Session.History
import IdleGame.Proofs.Session.Trial

/-!
# What calls do to the store

A session writes to its store only when it saves or empties a slot: on demand, and at the end of a
tick that is due for an automatic save. Whatever is seen of a store that those slots have no part
in stays as it is.

## Main definitions

* `Session.willAutosave`, `Session.Autosaves` - ticks that end with an automatic save
* `Session.Touches` - a call writes or empties a slot
* `Slot.Unmoved` - what is seen of a store does not change when some slots of a game do

## Main results

* `Session.look_apply` - a call changes only what is seen of the slots that it touches
-/

namespace IdleGame

/-- What is seen of a store does not change when some slots of a game are written or emptied. -/
structure Slot.Unmoved {σ α : Type} [SaveStore σ] (gameId : String) (touched : String → Prop)
    (look : σ → α) : Prop where
  save {store : σ} {slot : String} {shot : Snapshot} (h : touched slot) :
    look (Slot.save store gameId slot shot).2 = look store
  clear {store : σ} {slot : String} (h : touched slot) :
    look (Slot.clear store gameId slot).2 = look store

namespace Session

variable {ρ σ α : Type} [RandomSource ρ]

/-- Whether the current tick ends with an automatic save. -/
def willAutosave (s : Session ρ σ) : Bool := s.closing?.isSome && s.advanceClock.isAutosaveDue

variable [SaveStore σ]

/-- One of the next ticks ends with an automatic save. -/
inductive Autosaves : Nat → Session ρ σ → Prop
  | now {n s} (h : s.willAutosave) : Autosaves (n + 1) s
  | later {n s summary s'} (h : s.step = .ok (summary, s')) (hlater : Autosaves n s') :
      Autosaves (n + 1) s

/-- A call writes a slot or empties it. -/
def Touches (s : Session ρ σ) (slot : String) : Operation → Prop
  | .save other | .clearSave other => other = slot
  | .play .tick => s.running ∧ slot = Slot.main ∧ s.willAutosave
  | .play (.catchUp n) => s.running ∧ slot = Slot.main ∧ Autosaves n s
  | _ => False

variable {s s' : Session ρ σ} {look : σ → α} {touched : String → Prop}

theorem look_autosave (hlook : Slot.Unmoved s.game.identity.id touched look)
    (hmain : s.isAutosaveDue → touched Slot.main) : look s.autosave.store = look s.store := by
  unfold autosave
  split
  · rename_i hdue
    exact hlook.save (hmain hdue)
  · rfl

/-- A tick leaves what is seen as it is, unless it ends with an automatic save. -/
theorem look_step {summary : TickSummary} (hstep : s.step = .ok (summary, s'))
    (hlook : Slot.Unmoved s.game.identity.id touched look)
    (hmain : s.willAutosave → touched Slot.main) : look s'.store = look s.store := by
  obtain ⟨t, hplays, rfl⟩ := step_ok hstep
  have hstore : look t.advanceClock.store = look s.store := by
    rw [← hplays.store]
    rfl
  have hgame : t.advanceClock.game = s.game := hplays.game
  split
  · rename_i hclosing
    rw [← hgame] at hlook
    refine (look_autosave hlook fun hautosave => hmain ?_).trans hstore
    rw [willAutosave, hclosing, ← hplays.isAutosaveDue, hautosave]
    rfl
  · exact hstore

theorem look_steps {n : Nat} (hsteps : steps n s = .ok s')
    (hlook : Slot.Unmoved s.game.identity.id touched look)
    (hmain : Autosaves n s → touched Slot.main) : look s'.store = look s.store := by
  induction n generalizing s with
  | zero =>
    obtain rfl := Except.ok.inj hsteps
    rfl
  | succ n ih =>
    rw [steps] at hsteps
    obtain ⟨⟨summary, t⟩, hstep, hsteps⟩ := Outcome.bind_eq_ok_iff.mp hsteps
    have hturns : t.game = s.game ∧ s.world.Turns s.game (.play .tick) t.world := step_turns hstep
    have hfirst := look_step hstep hlook fun hnow => hmain (.now hnow)
    rw [← hturns.1] at hlook
    exact (ih hsteps hlook fun hlater => hmain (.later hstep hlater)).trans hfirst

theorem look_tick {summary : Option TickSummary} (htick : s.tick = .ok (summary, s'))
    (hlook : Slot.Unmoved s.game.identity.id (s.Touches · (.play .tick)) look) :
    look s'.store = look s.store := by
  rcases tick_ok htick with ⟨hrunning, done, hstep, -⟩ | ⟨-, -, rfl⟩
  · exact look_step hstep hlook fun hwill => ⟨hrunning, rfl, hwill⟩
  · rfl

theorem look_catchUp {n m : Nat} (hcatchUp : s.catchUp n = .ok (m, s'))
    (hlook : Slot.Unmoved s.game.identity.id (s.Touches · (.play (.catchUp n))) look) :
    look s'.store = look s.store := by
  rcases catchUp_ok hcatchUp with ⟨hrunning, hsteps⟩ | ⟨-, rfl⟩
  · exact look_steps hsteps hlook fun hautosaves => ⟨hrunning, rfl, hautosaves⟩
  · rfl

/-- Playing leaves what is seen of a store as it is, apart from ticks that save. -/
theorem look_play {move : Move} {a : Answer} (hplay : s.play move = .ok (a, s'))
    (hlook : Slot.Unmoved s.game.identity.id (s.Touches · (.play move)) look) :
    look s'.store = look s.store := by
  cases move with
  | tick =>
    obtain ⟨summary, htick, -⟩ := Outcome.map_fst_eq_ok_iff.mp hplay
    exact look_tick htick hlook
  | catchUp n =>
    obtain ⟨m, hcatchUp, -⟩ := Outcome.map_fst_eq_ok_iff.mp hplay
    exact look_catchUp hcatchUp hlook
  | perform name params =>
    obtain ⟨known, hperform, -⟩ := Outcome.map_fst_eq_ok_iff.mp hplay
    rw [(perform_plays hperform).store]
  | trigger event params =>
    obtain ⟨fired, htrigger, -⟩ := Outcome.map_fst_eq_ok_iff.mp hplay
    rw [(handleTriggers_plays htrigger).store]
  | purchase id =>
    obtain ⟨bought, hpurchase, -⟩ := Outcome.map_fst_eq_ok_iff.mp hplay
    rw [(purchase_plays hpurchase).store]
  | _ =>
    obtain ⟨-, rfl⟩ := Prod.mk.inj (Except.ok.inj hplay)
    rfl

/-- A call changes nothing of what is seen of a store, if the slots that it touches have no part in
it. -/
theorem look_apply (look : σ → α) {op : Operation} {a : Answer}
    (hcall : s.apply op = .ok (a, s'))
    (hlook : Slot.Unmoved s.game.identity.id (s.Touches · op) look) :
    look s'.store = look s.store := by
  cases op with
  | play move => exact look_play hcall hlook
  | ask query =>
    obtain ⟨a', -, hcall⟩ := Outcome.bind_eq_ok_iff.mp hcall
    obtain ⟨-, rfl⟩ := Prod.mk.inj (Except.ok.inj hcall)
    rfl
  | save slot =>
    obtain ⟨-, rfl⟩ := Prod.mk.inj (Except.ok.inj hcall)
    exact hlook.save rfl
  | clearSave slot =>
    obtain ⟨-, rfl⟩ := Prod.mk.inj (Except.ok.inj hcall)
    exact hlook.clear rfl
  | load slot =>
    rw [apply_load] at hcall
    obtain ⟨-, rfl⟩ := Prod.mk.inj (Except.ok.inj hcall)
    rcases load_cases s slot with ⟨shot, -, hloaded⟩ | hloaded <;> rw [hloaded] <;> rfl
  | messages | takeMessages | takeEvents | hasSave slot =>
    obtain ⟨-, rfl⟩ := Prod.mk.inj (Except.ok.inj hcall)
    rfl

end Session

end IdleGame
