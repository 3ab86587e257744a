import IdleGame.Proofs.Message.Log
import IdleGame.Proofs.Session.Delivery
import IdleGame.Store.Memory

/-!
# The newest messages are kept

Messages are written by deeds of every kind of pass. They are in the log until they are taken, or
dropped by resetting or loading, or until newer ones need their room.

## Main definitions

* `Session.Untold` - a session after any calls, with what has been done since the messages were
  last taken or dropped

## Main results

* `Session.Reachable.untold` - every reachable session is one of these
* `Session.Untold.log_eq` - the log holds the newest of the messages that have been written since
* `Session.Untold.newest_kept` - which messages a log keeps, and which are shown and taken
-/

namespace IdleGame

namespace Session

variable {ρ σ : Type} [RandomSource ρ] [SaveStore σ]

/-- A session of a game after any calls, with what has been done since messages have last been
taken, or dropped by resetting or loading. -/
inductive Untold (g : Game) : List (Deed ρ) → Session ρ σ → Prop
  | new {random store} : Untold g [] (ofGame g random store)
  | call {log s op a s'} (h : Untold g log s) (hop : ¬ op.restarts) (htake : op ≠ .takeMessages)
      (hcall : s.apply op = .ok (a, s')) : Untold g (log ++ s.deeds op) s'
  | emptied {log s op a s'} (h : Untold g log s) (hop : op.restarts ∨ op = .takeMessages)
      (hcall : s.apply op = .ok (a, s')) : Untold g [] s'
  | share {log s store} (h : Untold g log s) : Untold g log { s with store }

variable {g : Game} {sources : Set ρ} {s s' : Session ρ σ} {log : List (Deed ρ)} {op : Operation}

/-- In every reachable session there is something, if only nothing, that has been done since its
messages were last taken or dropped. -/
theorem Reachable.untold (h : s.Reachable g sources) : ∃ log, s.Untold g log := by
  induction h with
  | new => exact ⟨_, .new⟩
  | @call _ op _ _ _ hcall ih =>
    obtain ⟨log, huntold⟩ := ih
    by_cases hop : op.restarts ∨ op = .takeMessages
    · exact ⟨_, huntold.emptied hop hcall⟩
    · obtain ⟨hrestarts, htake⟩ := not_or.mp hop
      exact ⟨_, huntold.call hrestarts htake hcall⟩
  | share _ ih =>
    obtain ⟨log, huntold⟩ := ih
    exact ⟨log, huntold.share⟩

/-- A reset, a load and taking messages clear the log. -/
theorem apply_clears {a : Answer} (hop : op.restarts ∨ op = .takeMessages)
    (h : s.apply op = .ok (a, s')) : s'.world.log = s.world.log.clear := by
  rcases hop with hop | rfl
  · rcases apply_restarts hop h with rfl | ⟨shot, rfl⟩ <;> rfl
  · obtain ⟨-, rfl⟩ := Prod.mk.inj (Except.ok.inj h)
    rfl

namespace Untold

/-- The log holds the newest of the messages that have been written since, as they were filled and
stamped by then. -/
theorem log_eq (h : s.Untold g log) :
    s.world.log = .newest g.config.maxMessages (log.flatMap Deed.logged) := by
  induction h with
  | new => exact MessageLog.newest_nil.symm
  | call _ hop htake hcall ih =>
    rw [apply_log hop htake hcall, ih, MessageLog.foldl_push_newest, List.flatMap_append]
  | emptied _ hop hcall ih =>
    rw [apply_clears hop hcall, ih, MessageLog.clear_newest, List.flatMap_nil,
      MessageLog.newest_nil]
  | share _ ih => exact ih

/-- A log that has begun without messages keeps, after any calls, the newest of those that have been
pushed since it was last drained or cleared: as many as it has room for, in their order, and all of
them if there are no more. Draining returns these and leaves none. A session shows and takes its
messages in the same way, however they have come to be written: they are the newest of those that
have been written since messages were last taken or dropped, each filled from the variables and with
the tick as they were when it was written. -/
theorem newest_kept (h : s.Untold g log) :
    (∀ (capacity : Nat) (calls : List LogCall),
      let now := LogCall.after (.ofCapacity capacity) calls
      let recent := LogCall.recent calls
      now.messages = recent.rtake capacity ∧
      now.messages.length = min capacity recent.length ∧
      LogCall.drain.answer now = (recent.rtake capacity, .ofCapacity capacity)) ∧
    s.apply .messages =
      .ok (.messages ((log.flatMap Deed.logged).rtake g.config.maxMessages), s) ∧
    s.apply .takeMessages =
      .ok (.messages ((log.flatMap Deed.logged).rtake g.config.maxMessages),
        { s with world := { s.world with log := .ofCapacity g.config.maxMessages } }) := by
  have hlog := h.log_eq
  refine ⟨fun capacity calls => ?_, ?_, ?_⟩
  · dsimp only
    rw [LogCall.after_ofCapacity]
    exact ⟨rfl, MessageLog.length_newest, rfl⟩
  · rw [apply, hlog, MessageLog.newest]
  · rw [apply, takeMessages, hlog]
    rfl

end Untold

end Session

/-- Each tick is counted and announced. -/
def announce : Rule where
  id := "announce"
  timing := .tick
  actions := [.add "n" (.lit (.number 1.0)), .message "n is \x7bn\x7d" .info]

/-- A game that has more to say than room for messages. -/
def chattyGame : Game where
  identity := { id := "chatty", name := "Chatty" }
  config := { maxMessages := 3 }
  declarations := [{ id := "n" }]
  rules := [announce]

namespace Session

/-- The chatty game when it is new. -/
def newChatty : Session Xorshift MemoryStore :=
  ofGame chattyGame (Xorshift.ofWord 7) MemoryStore.empty

/-- The chatty game before its first tick. -/
def silent : Session Xorshift MemoryStore := newChatty.start

/-- The chatty game after five ticks. -/
def chatty : Session Xorshift MemoryStore :=
  match silent.apply (.play (.catchUp 5)) with
  | .ok (_, s) => s
  | .error _ => silent

theorem chatty_untold : chatty.Untold chattyGame (silent.deeds (.play (.catchUp 5))) := by
  have hstart : newChatty.apply (.play .start) = .ok (.done, silent) := rfl
  have hstarted : silent.Untold chattyGame [] := Untold.new.call (by decide) (by simp) hstart
  have hok : (silent.apply (.play (.catchUp 5))).isOk := by decide +kernel
  obtain ⟨⟨a, s⟩, h⟩ := Outcome.exists_eq_ok_of_isOk hok
  rw [chatty, h]
  exact hstarted.call (by decide) (by simp) h

/-- Of five messages the log of the chatty game keeps the last three. -/
theorem chatty_newest_kept :
    chatty.apply .messages =
      .ok (.messages [⟨"n is 3", .info, 2⟩, ⟨"n is 4", .info, 3⟩, ⟨"n is 5", .info, 4⟩], chatty) ∧
    chatty.apply .takeMessages =
      .ok (.messages [⟨"n is 3", .info, 2⟩, ⟨"n is 4", .info, 3⟩, ⟨"n is 5", .info, 4⟩],
        { chatty with world := { chatty.world with log := .ofCapacity 3 } }) := by
  obtain ⟨-, hshown, htaken⟩ := chatty_untold.newest_kept
  have hlogged : ((silent.deeds (.play (.catchUp 5))).flatMap Deed.logged).rtake
      chattyGame.config.maxMessages =
        [⟨"n is 3", .info, 2⟩, ⟨"n is 4", .info, 3⟩, ⟨"n is 5", .info, 4⟩] := by
    decide +kernel
  rw [hlogged] at hshown htaken
  exact ⟨hshown, htaken⟩

end Session

end IdleGame
