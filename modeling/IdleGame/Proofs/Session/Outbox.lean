import IdleGame.Proofs.Session.Delivery
import IdleGame.Store.Memory

/-!
# Triggers and events are delivered in order

A call handles triggers first in, first out: those that it is given, those that its own pass has
queued, and then those that are queued while others are handled, up to the limit of one call. What
is emitted on the way waits, in order, until it is taken.

## Main definitions

* `Session.Unread` - a session after any calls, with what has been done since the events were last
  taken or dropped

## Main results

* `Session.Reachable.unread` - every reachable session is one of these
* `Session.apply_empties` - what drops the events that wait
* `Session.Unread.events_eq` - the events that wait are those emitted since
* `Session.Unread.delivers_in_order` - which triggers a call delivers, and which events are taken
-/

namespace IdleGame

namespace Session

variable {ρ σ : Type} [RandomSource ρ] [SaveStore σ]

/-- A session of a game after any calls, with what has been done since events have last been taken,
or dropped by resetting or loading. -/
inductive Unread (g : Game) : List (Deed ρ) → Session ρ σ → Prop
  | new {random store} : Unread g [] (ofGame g random store)
  | call {log s op a s'} (h : Unread g log s) (hop : ¬ op.restarts) (htake : op ≠ .takeEvents)
      (hcall : s.apply op = .ok (a, s')) : Unread g (log ++ s.deeds op) s'
  | emptied {log s op a s'} (h : Unread g log s) (hop : op.restarts ∨ op = .takeEvents)
      (hcall : s.apply op = .ok (a, s')) : Unread g [] s'
  | share {log s store} (h : Unread g log s) : Unread g log { s with store }

variable {g : Game} {sources : Set ρ} {s s' : Session ρ σ} {log : List (Deed ρ)} {op : Operation}

/-- In every reachable session there is something, if only nothing, that has been done since its
events were last taken or dropped. -/
theorem Reachable.unread (h : s.Reachable g sources) : ∃ log, s.Unread g log := by
  induction h with
  | new => exact ⟨_, .new⟩
  | @call _ op _ _ _ hcall ih =>
    obtain ⟨log, hunread⟩ := ih
    by_cases hop : op.restarts ∨ op = .takeEvents
    · exact ⟨_, hunread.emptied hop hcall⟩
    · obtain ⟨hrestarts, htake⟩ := not_or.mp hop
      exact ⟨_, hunread.call hrestarts htake hcall⟩
  | share _ ih =>
    obtain ⟨log, hunread⟩ := ih
    exact ⟨log, hunread.share⟩

/-- A reset, a load and taking events leave no event that waits. -/
theorem apply_empties {a : Answer} (hop : op.restarts ∨ op = .takeEvents)
    (h : s.apply op = .ok (a, s')) : s'.events = [] := by
  rcases hop with hop | rfl
  · rcases apply_restarts hop h with rfl | ⟨shot, rfl⟩ <;> rfl
  · obtain ⟨-, rfl⟩ := Prod.mk.inj (Except.ok.inj h)
    rfl

namespace Unread

/-- The events that wait are those that have been emitted since, in order. -/
theorem events_eq (h : s.Unread g log) : s.events = log.flatMap Deed.emitted := by
  induction h with
  | new => rfl
  | call _ hop htake hcall ih => rw [apply_events hop htake hcall, ih, List.flatMap_append]
  | emptied _ hop hcall => exact apply_empties hop hcall
  | share _ ih => exact ih

/-- A call that delivers triggers delivers no more than 64. They are delivered in the order in which
they were given or queued, by the call's own pass first and then by the deliveries, and with the
parameters that they were queued with. Unless something that is evaluated on the way faults, the
call has an answer, the first 64 of them have been delivered, and nothing else has; a session keeps
no triggers, so those beyond are dropped. And whenever events are taken, they are those that have
been emitted since events were last taken or dropped, in this order. -/
theorem delivers_in_order (h : s.Unread g log) (hop : op.settles) :
    (handed (s.ownPass op)).length ≤ 64 ∧
    (handed (s.ownPass op)).map Delivery.trigger <+:
      (op.given ++ (s.ownDeeds op).flatMap Deed.queued ++
        (handed (s.ownPass op)).flatMap Delivery.queued).take 64 ∧
    ((∃ ev f, op.Evaluates s ev ∧ ev.Faults f ∧ s.apply op = .error f) ∨
      ∃ t queue t' a,
        s.ownPass op = .ok (t, queue) ∧
        t.Delivers (handed (s.ownPass op)) t' ∧
        (handed (s.ownPass op)).map Delivery.trigger =
          (op.given ++ (s.ownDeeds op).flatMap Deed.queued ++
            (handed (s.ownPass op)).flatMap Delivery.queued).take 64 ∧
        s.apply op = .ok (a, s.ending op t')) ∧
    s.apply .takeEvents = .ok (.events (log.flatMap Deed.emitted), { s with events := [] }) := by
  refine ⟨length_handed_le, handed_prefix, ?_, ?_⟩
  -- Nothing but an evaluation can keep a call from its answer.
  · rcases hcall : s.apply op with f | ⟨a, s'⟩
    · obtain ⟨ev, hev, hf⟩ := apply_error_iff.mp hcall
      exact .inl ⟨ev, f, hev, hf, rfl⟩
    · obtain ⟨t', hsettles, rfl⟩ := apply_settles hop hcall
      obtain ⟨t, queue, hpass, hdelivers, htriggers⟩ := hsettles.delivers
      rw [(ownPass_does hpass).2] at htriggers
      exact .inr ⟨t, queue, t', a, hpass, hdelivers, htriggers, rfl⟩
  · rw [← h.events_eq]
    rfl

end Unread

end Session

/-- Every shout is heard, comes back as it was, and frightens a bird. -/
def echo : Rule where
  id := "echo"
  timing := .event
  event := some "shout"
  actions := [.emit "heard" [("voice", .param "voice")],
    .trigger "shout" [("voice", .param "voice")], .trigger "bird" []]

/-- A game in which a shout is never done with. -/
def valleyGame : Game where
  identity := { id := "valley", name := "Valley" }
  rules := [echo]

namespace Session

/-- The valley before anybody shouts. -/
def newValley : Session Xorshift MemoryStore :=
  ofGame valleyGame (Xorshift.ofWord 9) MemoryStore.empty

/-- A shout. -/
def shout : Operation := .play (.trigger "shout" (Table.ofList [("voice", .string "high")]))

/-- The valley after a shout. -/
def valley : Session Xorshift MemoryStore :=
  match newValley.apply shout with
  | .ok (_, s) => s
  | .error _ => newValley

set_option maxRecDepth 10000 in
theorem valley_unread : valley.Unread valleyGame ([] ++ newValley.deeds shout) := by
  have hok : (newValley.apply shout).isOk := by decide +kernel
  obtain ⟨⟨a, s⟩, h⟩ := Outcome.exists_eq_ok_of_isOk hok
  rw [valley, h]
  exact Unread.new.call Bool.false_ne_true (by simp [shout]) h

set_option maxRecDepth 10000 in
theorem valley_shouts :
    (valley.apply shout).isOk ∧ (handed (valley.ownPass shout)).length = 64 := by
  decide +kernel

/-- At a second shout the rules are handed 64 shouts and birds, and no more. The events of the first
one still wait. -/
theorem valley_delivers_in_order :
    (handed (valley.ownPass shout)).length = 64 ∧
    (handed (valley.ownPass shout)).map Delivery.trigger =
      (shout.given ++ (valley.ownDeeds shout).flatMap Deed.queued ++
        (handed (valley.ownPass shout)).flatMap Delivery.queued).take 64 ∧
    valley.apply .takeEvents =
      .ok (.events (([] ++ newValley.deeds shout).flatMap Deed.emitted),
        { valley with events := [] }) := by
  obtain ⟨hok, hlength⟩ := valley_shouts
  have hsettles : shout.settles := rfl
  obtain ⟨-, -, hcall, htaken⟩ := valley_unread.delivers_in_order hsettles
  rcases hcall with ⟨ev, f, -, -, hfault⟩ | ⟨t, queue, t', a, -, -, htriggers, -⟩
  · rw [hfault] at hok
    cases hok
  · exact ⟨hlength, htriggers, htaken⟩

end Session

end IdleGame
