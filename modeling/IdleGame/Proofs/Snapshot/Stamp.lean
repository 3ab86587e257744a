import IdleGame.Proofs.Decimal.Digits
import IdleGame.Proofs.Session.History
import IdleGame.Proofs.Text.Sign
import IdleGame.Store.Memory

/-!
# Which games a snapshot is taken for

A snapshot is compared with a game by one text, in which the id, the version and the version of the
form stand with signs between them. The form can always be told from it, because no sign stands in
its digits. The id and the version cannot: a sign may stand in either of them.

## Main definitions

* `Snapshot.Shifted` - an id and a version read like another pair with a shorter id
* `Snapshot.ReadsAs` - a snapshot reads as one of a game

## Main results

* `Snapshot.isCompatible_iff_readsAs` - these are the snapshots that are taken for one of a game
* `Session.loads_iff_readsAs` - and the ones that a session goes on from
-/

namespace IdleGame

namespace Snapshot

/-- An id and a version read like another pair with a shorter id: the id goes on behind the shorter
one with a sign and a part, and this part and a sign begin the other version. -/
def Shifted (id version id' version' : String) : Prop :=
  ∃ part, id = id' ++ "@" ++ part ∧ version' = part ++ "@" ++ version

/-- A snapshot reads as one of a game. -/
def ReadsAs (s : Snapshot) (g : Game) : Prop :=
  s.formatVersion = currentFormat ∧
    (s.gameId = g.identity.id ∧ s.gameVersion = g.identity.version ∨
      Shifted s.gameId s.gameVersion g.identity.id g.identity.version ∨
      Shifted g.identity.id g.identity.version s.gameId s.gameVersion)

variable {id id' version version' : String} {n n' : Nat} {s : Snapshot} {g : Game}

theorem toList_stampOf :
    (stampOf id version n).toList =
      (id.toList ++ '@' :: version.toList) ++ '#' :: digitsOf n := by
  simp [stampOf]

theorem sign_notMem_digitsOf : '#' ∉ digitsOf n := fun h => by
  have hdigit := isDigit_of_mem_digitsOf h
  exact absurd hdigit (by decide)

theorem shifted_iff :
    Shifted id version id' version' ↔
      ∃ part, id.toList = id'.toList ++ '@' :: part ∧
        version'.toList = part ++ '@' :: version.toList := by
  constructor
  · rintro ⟨part, rfl, rfl⟩
    exact ⟨part.toList, by simp, by simp⟩
  · rintro ⟨part, hid, hversion⟩
    refine ⟨String.ofList part, String.toList_inj.mp ?_, String.toList_inj.mp ?_⟩
    · simp [hid]
    · simp [hversion]

/-- Two stamps are equal when they say the same, or when the versions of the form are equal and one
id and version read like the other. -/
theorem stampOf_eq_iff :
    stampOf id version n = stampOf id' version' n' ↔
      n = n' ∧ (id = id' ∧ version = version' ∨
        Shifted id version id' version' ∨ Shifted id' version' id version) := by
  rw [← String.toList_inj, toList_stampOf, toList_stampOf,
    Text.append_sign_inj sign_notMem_digitsOf sign_notMem_digitsOf,
    Text.append_sign_eq_append_sign_iff, shifted_iff, shifted_iff, String.toList_inj,
    String.toList_inj, and_comm]
  exact and_congr_left' ⟨digitsOf_injective, congrArg digitsOf⟩

/-- A snapshot is taken for one of a game exactly when it reads as one. -/
theorem isCompatible_iff_readsAs : s.isCompatible g ↔ s.ReadsAs g := by
  rw [isCompatible, decide_eq_true_iff, eq_comm, stamp, expectedStamp, stampOf_eq_iff]
  rfl

/-- No id is read for another in which the sign does not stand. -/
theorem not_shifted (h : '@' ∉ id.toList) : ¬ Shifted id version id' version' := by
  rw [shifted_iff]
  rintro ⟨part, hid, -⟩
  exact h (hid ▸ by simp)

/-- Without a sign in either id a snapshot reads as one of a game when it is. -/
theorem readsAs_iff_of_notMem (h : '@' ∉ s.gameId.toList) (h' : '@' ∉ g.identity.id.toList) :
    s.ReadsAs g ↔ s.gameId = g.identity.id ∧ s.gameVersion = g.identity.version ∧
      s.formatVersion = currentFormat := by
  simp only [ReadsAs, not_shifted h, not_shifted h', or_false]
  rw [and_comm, and_assoc]

end Snapshot

variable {ρ σ : Type} [RandomSource ρ] [SaveStore σ]

namespace Session

/-- A session goes on from a slot exactly when the slot holds a snapshot that is taken for one of
its game. -/
theorem load_fst_iff (s : Session ρ σ) (slot : String) :
    (s.load slot).1 ↔
      ∃ shot, Slot.load s.store s.game.identity.id slot = .ok (some shot) ∧
        shot.isCompatible s.game := by
  constructor
  · intro h
    rcases load_cases s slot with ⟨shot, hstored, -⟩ | hrefused
    · obtain ⟨held, hheld, hstored⟩ := Outcome.bind_eq_ok_iff.mp hstored
      rcases held with _ | held
      · cases hstored
      · obtain ⟨_, hcompatible, hstored⟩ := Outcome.bind_eq_ok_iff.mp hstored
        refine ⟨held, hheld, ?_⟩
        unfold Snapshot.checkCompatible at hcompatible
        split at hcompatible
        · assumption
        · cases hcompatible
    · rw [hrefused] at h
      cases h
  · rintro ⟨shot, hheld, hcompatible⟩
    rw [load_of_slot hheld hcompatible]

/-- A snapshot is taken for one of a game exactly when it reads as one, and a session goes on
exactly from these. Where the sign stands in neither id they are the snapshots of the same game, in
the same version and in the current form. -/
theorem loads_iff_readsAs (s : Session ρ σ) (slot : String) :
    (∀ (shot : Snapshot) (g : Game), shot.isCompatible g ↔ shot.ReadsAs g) ∧
      ((s.load slot).1 ↔
        ∃ shot, Slot.load s.store s.game.identity.id slot = .ok (some shot) ∧
          shot.ReadsAs s.game) ∧
      ∀ (shot : Snapshot) (g : Game), '@' ∉ shot.gameId.toList → '@' ∉ g.identity.id.toList →
        (shot.isCompatible g ↔ shot.gameId = g.identity.id ∧
          shot.gameVersion = g.identity.version ∧ shot.formatVersion = Snapshot.currentFormat) := by
  refine ⟨fun _ _ => Snapshot.isCompatible_iff_readsAs, ?_, fun _ _ h h' => ?_⟩
  · simp only [load_fst_iff, Snapshot.isCompatible_iff_readsAs]
  · rw [Snapshot.isCompatible_iff_readsAs, Snapshot.readsAs_iff_of_notMem h h']

end Session

/-- A game of cards in a version that is being tried out. -/
def betaCards : Game where
  identity := { id := "cards", name := "Cards", version := "beta@2" }

/-- Another game, which is named for being tried out. -/
def cardsBeta : Game where
  identity := { id := "cards@beta", name := "Cards to try", version := "2" }

/-- The snapshot of a game with another id and another version is taken for one of this game. -/
theorem cardsBeta_taken_for_betaCards :
    (Session.ofGame cardsBeta (Xorshift.ofWord 12345) MemoryStore.empty).snapshot.isCompatible
        betaCards ∧
      cardsBeta.identity.id ≠ betaCards.identity.id ∧
      cardsBeta.identity.version ≠ betaCards.identity.version := by
  decide +kernel

end IdleGame
