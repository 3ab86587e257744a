import IdleGame.Message
import Mathlib.Data.List.DropRight

/-!
# What a message log keeps

A log keeps the newest of the messages that have been pushed since it was last drained or cleared,
as many as it has room for. A log without room keeps none.

## Main definitions

* `MessageLog.newest` - a log that holds the newest of some messages
* `LogCall` - a call of a log
* `LogCall.recent` - the messages that have been pushed since a log was last emptied

## Main results

* `MessageLog.push_newest` - the oldest message makes room for one that is pushed
* `MessageLog.foldl_push_newest` - so the newest are kept of all that are pushed
* `LogCall.after_ofCapacity` - and all that are kept have been pushed since the log was last emptied
-/

namespace IdleGame

namespace MessageLog

/-- The log that holds the newest of some messages. -/
def newest (capacity : Nat) (ms : List Message) : MessageLog := ⟨ms.rtake capacity, capacity⟩

variable {capacity : Nat} {m : Message} {ms new : List Message}

theorem newest_nil : newest capacity [] = ofCapacity capacity := by
  rw [newest, List.rtake_nil, ofCapacity]

theorem clear_newest : (newest capacity ms).clear = ofCapacity capacity := rfl

theorem length_newest : (newest capacity ms).messages.length = min capacity ms.length := by
  rw [newest, List.rtake, List.length_drop]
  omega

/-- Of what a log holds, only the oldest message can be in the way of one that is pushed. -/
theorem push_newest : (newest capacity ms).push m = newest capacity (ms ++ [m]) := by
  rcases capacity with _ | room
  · rw [push, newest, if_pos rfl, newest, List.rtake_zero, List.rtake_zero]
  · have hkept : (ms.rtake (room + 1)).drop ((ms.rtake (room + 1)).length - room) =
        ms.rtake room := by
      rw [List.rtake, List.length_drop, List.drop_drop, List.rtake]
      congr 1
      omega
    rw [push, newest, if_neg (Nat.succ_ne_zero room), Nat.add_sub_add_right, hkept, newest,
      List.rtake_concat_succ]

/-- When messages are pushed onto the newest of some, the newest of all are kept. -/
theorem foldl_push_newest : new.foldl push (newest capacity ms) = newest capacity (ms ++ new) := by
  induction new generalizing ms with
  | nil => rw [List.append_nil, List.foldl_nil]
  | cons m new ih => rw [List.foldl_cons, push_newest, ih, List.append_assoc, List.singleton_append]

end MessageLog

/-- A call of a log. -/
inductive LogCall where
  | push (m : Message)
  | drain
  | clear

namespace LogCall

/-- What a call returns, and the log after it. -/
def answer (log : MessageLog) : LogCall → List Message × MessageLog
  | push m => ([], log.push m)
  | drain => log.drain
  | clear => ([], log.clear)

/-- A log after calls. -/
def after (log : MessageLog) (calls : List LogCall) : MessageLog :=
  calls.foldl (fun log call => (call.answer log).2) log

/-- The message that a call pushes. -/
def message? : LogCall → Option Message
  | push m => some m
  | drain | clear => none

/-- The messages that calls have pushed since they last drained or cleared the log. -/
def recent (calls : List LogCall) : List Message :=
  (calls.rtakeWhile fun call => call.message?.isSome).filterMap message?

variable {capacity : Nat} {m : Message} {calls : List LogCall} {call : LogCall}

theorem recent_push : recent (calls ++ [push m]) = recent calls ++ [m] := by
  rw [recent, List.rtakeWhile_concat_pos _ _ _ rfl, List.filterMap_append]
  rfl

theorem recent_emptied (h : call.message? = none) : recent (calls ++ [call]) = [] := by
  rw [recent, List.rtakeWhile_concat_neg _ _ _ (by simp [h])]
  rfl

/-- After any calls, a log that began without messages holds the newest of those that have been
pushed since it was last drained or cleared. -/
theorem after_ofCapacity :
    after (.ofCapacity capacity) calls = .newest capacity (recent calls) := by
  -- The last call decides whether there is one more message or none left.
  induction calls using List.reverseRecOn with
  | nil => exact MessageLog.newest_nil.symm
  | append_singleton calls call ih =>
    rw [after, List.foldl_concat, ← after, ih]
    cases call with
    | push m => rw [recent_push, ← MessageLog.push_newest, answer]
    | drain | clear =>
      rw [recent_emptied rfl, MessageLog.newest_nil]
      exact MessageLog.clear_newest

end LogCall

end IdleGame
