import IdleGame.Proofs.Datum
import IdleGame.Proofs.Ron.Numeral
import IdleGame.Proofs.Rule.Trial
import IdleGame.Store

/-!
# Counts in snapshots

Whatever bytes a snapshot is decoded from, its counts of fires fit the width that they are read
with, so a session that goes on from it counts on from counts that can be kept.

## Main results

* `Snapshot.bounded_of_decode?` - the counts of a decoded snapshot can be kept
-/

namespace IdleGame

theorem Ron.Node.nat?_lt {bits n : Nat} {node : Ron.Node} (h : Datum.nat? bits node = some n) :
    n < Nat.pow 2 bits := by
  obtain ⟨tree, room, options⟩ := node
  cases tree with
  | numeral lexeme => exact Ron.natural?_lt h
  | _ => cases h

theorem FireRecord.fires_le_of_ofDatum? {node : Ron.Node} {r : FireRecord}
    (h : ofDatum? node = some r) : r.fires ≤ maxCount := by
  obtain ⟨fields, -, h⟩ := Option.bind_eq_some_iff.mp h
  obtain ⟨fires, hfires, h⟩ := Option.bind_eq_some_iff.mp h
  obtain ⟨last, -, h⟩ := Option.bind_eq_some_iff.mp h
  obtain rfl := Option.some.inj h
  obtain ⟨field, -, hfires⟩ := Option.bind_eq_some_iff.mp hfires
  exact Nat.le_sub_one_of_lt (Ron.Node.nat?_lt hfires)

namespace Snapshot

variable {shot : Snapshot}

theorem bounded_of_ofDatum? {node : Ron.Node} (h : ofDatum? node = some shot) :
    shot.records.Bounded := by
  obtain ⟨fields, -, h⟩ := Option.bind_eq_some_iff.mp h
  -- The records are the eighth of eleven fields.
  iterate 7 obtain ⟨_, -, h⟩ := Option.bind_eq_some_iff.mp h
  obtain ⟨records, hrecords, h⟩ := Option.bind_eq_some_iff.mp h
  iterate 3 obtain ⟨_, -, h⟩ := Option.bind_eq_some_iff.mp h
  obtain rfl := Option.some.inj h
  obtain ⟨field, -, hrecords⟩ := Option.bind_eq_some_iff.mp hrecords
  intro id
  unfold FireRecords.of
  rcases hget : records.get? id with _ | r
  · exact Nat.zero_le _
  · obtain ⟨entry, hentry⟩ := Datum.exists_of_get?_tableOf? hrecords hget
    exact FireRecord.fires_le_of_ofDatum? hentry

/-- The counts of a decoded snapshot can be kept. -/
theorem bounded_of_decode? {bytes : ByteArray} (h : decode? bytes = some shot) :
    shot.records.Bounded := by
  obtain ⟨text, -, h⟩ := Option.bind_eq_some_iff.mp h
  obtain ⟨node, -, h⟩ := Option.bind_eq_some_iff.mp h
  exact bounded_of_ofDatum? h

end Snapshot

/-- The counts of a snapshot in a slot can be kept. -/
theorem Slot.bounded_of_load {σ : Type} [SaveStore σ] {store : σ} {gameId slot : String}
    {shot : Snapshot} (h : load store gameId slot = .ok (some shot)) : shot.records.Bounded := by
  unfold load at h
  split at h
  · cases h
  · cases h
  · rename_i bytes _
    rcases hdecode : Snapshot.decode? bytes with _ | read
    · rw [hdecode] at h
      cases h
    · rw [hdecode] at h
      obtain rfl := Option.some.inj (Except.ok.inj h)
      exact Snapshot.bounded_of_decode? hdecode

end IdleGame
