import IdleGame.Proofs.Session.Storage
import IdleGame.Proofs.Snapshot.Stamp
import IdleGame.Proofs.Store

/-!
# Games that share a store

The key of a slot is the id of the game and the name of the slot with a sign between them, and the
sign may stand in either. So a key does not always tell the game: when the id of one game goes on
behind that of another with the sign, some slots of both have one key. All other games can share a
store, whatever they do and whatever their slots are called.

## Main definitions

* `Slot.Nested` - an id goes on behind another one with the sign
* `Slot.content` - what can be found out about a slot
* `Session.Beside` - two sessions that share a store, after calls of both in any order

## Main results

* `Slot.key_eq_key_iff` - which slots of different games have one key
* `Slot.keys_differ_iff` - the games none of whose slots do
* `Session.Beside.content_eq` - such games leave the slots of each other as they are
* `Session.slots_kept_unless_nested` - which calls of one game reach the slots of another
-/

namespace IdleGame

namespace Slot

/-- An id goes on behind another one with the sign of keys. -/
def Nested (id id' : String) : Prop := ∃ part, id' = id ++ "/" ++ part

variable {id id' slot slot' : String}

theorem toList_key : (key id slot).toList = id.toList ++ '/' :: slot.toList := by
  simp [key]

theorem nested_iff_prefix : Nested id id' ↔ id.toList ++ ['/'] <+: id'.toList := by
  constructor
  · rintro ⟨part, rfl⟩
    exact ⟨part.toList, by simp⟩
  · rintro ⟨part, hpart⟩
    refine ⟨String.ofList part, String.toList_inj.mp ?_⟩
    rw [← hpart]
    simp

/-- A sign within the first text: it goes on behind the second one, with the sign and a part, and
the part begins the other slot. -/
theorem exists_part_iff :
    (∃ part : List Char, id'.toList = id.toList ++ '/' :: part ∧
        slot.toList = part ++ '/' :: slot'.toList) ↔
      ∃ part, id' = id ++ "/" ++ part ∧ slot = part ++ "/" ++ slot' := by
  constructor
  · rintro ⟨part, hid, hslot⟩
    refine ⟨String.ofList part, String.toList_inj.mp ?_, String.toList_inj.mp ?_⟩
    · simp [hid]
    · simp [hslot]
  · rintro ⟨part, rfl, rfl⟩
    exact ⟨part.toList, by simp, by simp⟩

/-- Slots of two games have one key exactly when the id of one game goes on behind that of the
other, and the name of the slot of that one begins with what goes on. -/
theorem key_eq_key_iff (hids : id ≠ id') :
    key id slot = key id' slot' ↔
      (∃ part, id = id' ++ "/" ++ part ∧ slot' = part ++ "/" ++ slot) ∨
        ∃ part, id' = id ++ "/" ++ part ∧ slot = part ++ "/" ++ slot' := by
  have hlists : id.toList ≠ id'.toList := fun h => hids (String.toList_inj.mp h)
  rw [← String.toList_inj, toList_key, toList_key, Text.append_sign_eq_append_sign_iff,
    exists_part_iff, exists_part_iff, or_iff_right fun h => hlists h.1]

/-- No slots of two games have one key exactly when neither id goes on behind the other. -/
theorem keys_differ_iff (hids : id ≠ id') :
    (∀ slot slot', key id slot ≠ key id' slot') ↔ ¬ Nested id id' ∧ ¬ Nested id' id := by
  constructor
  · intro hkeys
    constructor
    · rintro ⟨part, hid'⟩
      exact hkeys (part ++ "/" ++ main) main ((key_eq_key_iff hids).mpr (.inr ⟨part, hid', rfl⟩))
    · rintro ⟨part, hid⟩
      exact hkeys main (part ++ "/" ++ main) ((key_eq_key_iff hids).mpr (.inl ⟨part, hid, rfl⟩))
  · rintro ⟨hnot, hnot'⟩ slot slot' hkey
    rcases (key_eq_key_iff hids).mp hkey with ⟨part, hid, -⟩ | ⟨part, hid', -⟩
    · exact hnot' ⟨part, hid⟩
    · exact hnot ⟨part, hid'⟩

variable {σ : Type} [SaveStore σ] {store store' : σ}

/-- What can be found out about a slot: the bytes that it holds, and whether it is taken. -/
def content (store : σ) (gameId slot : String) : Except StoreError (Option ByteArray) × Bool :=
  (SaveStore.read store (key gameId slot), isTaken store gameId slot)

variable [FaithfulStore σ]

theorem content_congr
    (h : SaveStore.read store' (key id slot) = SaveStore.read store (key id slot)) :
    content store' id slot = content store id slot := by
  unfold content isTaken
  rw [FaithfulStore.contains_eq, FaithfulStore.contains_eq, h]

/-- What a slot holds does not change when slots with other keys do. -/
theorem unmoved_content {touched : String → Prop}
    (h : ∀ slot', touched slot' → key id' slot ≠ key id slot') :
    Unmoved id touched fun store : σ => content store id' slot where
  save htouched := content_congr (ReliableStore.read_write_of_ne (h _ htouched))
  clear htouched := content_congr (ReliableStore.read_remove_of_ne (h _ htouched))

end Slot

namespace Session

variable {ρ τ σ : Type} [RandomSource ρ] [RandomSource τ] [SaveStore σ]

/-- Two sessions that share a store, after calls of the one and the other in any order, of which
those of the second session do not touch one of its slots. -/
inductive Beside (slot : String) (s : Session ρ σ) (t : Session τ σ) :
    Session ρ σ → Session τ σ → Prop
  | refl : Beside slot s t s t
  | other {u v op a u'} (h : Beside slot s t u v) (hcall : u.apply op = .ok (a, u')) :
      Beside slot s t u' { v with store := u'.store }
  | own {u v op a v'} (h : Beside slot s t u v) (hop : ¬ v.Touches slot op)
      (hcall : v.apply op = .ok (a, v')) : Beside slot s t { u with store := v'.store } v'

variable {s u : Session ρ σ} {t v : Session τ σ} {slot : String}

theorem Beside.games (h : Beside slot s t u v) : u.game = s.game ∧ v.game = t.game := by
  induction h with
  | refl => exact ⟨rfl, rfl⟩
  | other _ hcall ih => exact ⟨(apply_game hcall).trans ih.1, ih.2⟩
  | own _ _ hcall ih => exact ⟨ih.1, (apply_game hcall).trans ih.2⟩

theorem Beside.store_eq (h : Beside slot s t u v) (hstore : s.store = t.store) :
    u.store = v.store := by
  cases h with
  | refl => exact hstore
  | other | own => rfl

variable [FaithfulStore σ]

/-- A call of one game leaves the slots of another as they are, if none of its keys is theirs. -/
theorem content_apply {op : Operation} {a : Answer} {s' : Session ρ σ} {id : String}
    (hkeys : ∀ slot slot', Slot.key s.game.identity.id slot ≠ Slot.key id slot')
    (hcall : s.apply op = .ok (a, s')) :
    Slot.content s'.store id slot = Slot.content s.store id slot :=
  look_apply (fun store => Slot.content store id slot) hcall
    (Slot.unmoved_content fun slot' _ => (hkeys slot' slot).symm)

/-- A call leaves the slots of its own game as they are that it does not touch. -/
theorem content_apply_own {op : Operation} {a : Answer} {s' : Session ρ σ}
    (hop : ¬ s.Touches slot op) (hcall : s.apply op = .ok (a, s')) :
    Slot.content s'.store s.game.identity.id slot =
      Slot.content s.store s.game.identity.id slot := by
  have hkeys (slot' : String) (htouched : s.Touches slot' op) :
      Slot.key s.game.identity.id slot ≠ Slot.key s.game.identity.id slot' := by
    intro hkey
    exact hop (Slot.key_injective hkey ▸ htouched)
  exact look_apply (fun store => Slot.content store s.game.identity.id slot) hcall
    (Slot.unmoved_content hkeys)

/-- Whatever another game does in between, a slot is as its own game has left it. -/
theorem Beside.content_eq (h : Beside slot s t u v) (hstore : s.store = t.store)
    (hkeys : ∀ slot slot',
      Slot.key s.game.identity.id slot ≠ Slot.key t.game.identity.id slot') :
    Slot.content v.store t.game.identity.id slot =
      Slot.content t.store t.game.identity.id slot := by
  induction h with
  | refl => rfl
  | other h hcall ih =>
    rw [← ih, ← h.store_eq hstore]
    rw [← h.games.1] at hkeys
    exact content_apply hkeys hcall
  | own h hop hcall ih =>
    have hown := content_apply_own hop hcall
    rw [h.games.2] at hown
    exact hown.trans ih

/-- Saving to a slot that has the key of a slot of another game fills that one. -/
theorem content_save_of_key_eq {id slot' : String}
    (hkey : Slot.key s.game.identity.id slot = Slot.key id slot')
    (hsaved : (s.save slot).1 = .ok ()) :
    Slot.content (s.save slot).2.store id slot' = (.ok (some s.snapshot.encode), true) := by
  have hread : SaveStore.read (s.save slot).2.store (Slot.key id slot') =
      .ok (some s.snapshot.encode) := by
    rw [← hkey]
    exact ReliableStore.read_write hsaved
  unfold Slot.content Slot.isTaken
  rw [FaithfulStore.contains_eq, hread]
  rfl

/-- Two different games share a store. If neither id goes on behind the other with the sign of
keys, no call of one game changes whether a slot of the other is taken or what it holds, however
their calls follow each other, so that a slot is always as its own game has left it. Otherwise some
slots of both have one key, and what one game saves there is what the other finds. -/
theorem slots_kept_unless_nested (hids : s.game.identity.id ≠ t.game.identity.id)
    (hstore : s.store = t.store) :
    ((∀ slot slot', Slot.key s.game.identity.id slot ≠ Slot.key t.game.identity.id slot') ↔
      ¬ Slot.Nested s.game.identity.id t.game.identity.id ∧
        ¬ Slot.Nested t.game.identity.id s.game.identity.id) ∧
    (¬ Slot.Nested s.game.identity.id t.game.identity.id →
      ¬ Slot.Nested t.game.identity.id s.game.identity.id →
      ∀ slot u v, Beside slot s t u v →
        Slot.content v.store t.game.identity.id slot =
          Slot.content t.store t.game.identity.id slot ∧
        ∀ op a u', u.apply op = .ok (a, u') → ∀ slot',
          Slot.content u'.store t.game.identity.id slot' =
            Slot.content v.store t.game.identity.id slot') ∧
    ∀ slot slot', Slot.key s.game.identity.id slot = Slot.key t.game.identity.id slot' →
      (s.save slot).1 = .ok () →
      Slot.content (s.save slot).2.store t.game.identity.id slot' =
        (.ok (some s.snapshot.encode), true) := by
  refine ⟨Slot.keys_differ_iff hids, ?_, fun slot slot' => content_save_of_key_eq⟩
  intro hnot hnot' slot u v h
  have hkeys := (Slot.keys_differ_iff hids).mpr ⟨hnot, hnot'⟩
  refine ⟨h.content_eq hstore hkeys, ?_⟩
  intro op a u' hcall slot'
  rw [← h.games.1] at hkeys
  rw [← h.store_eq hstore]
  exact content_apply hkeys hcall

end Session

/-- A game whose id goes on behind that of another game of cards. -/
def oldCards : Game where
  identity := { id := "cards/old", name := "Old cards" }

namespace Session

/-- The two games of cards that do not get in each other's way, over a store in which one of them
has been saved. -/
def sharedStore : MemoryStore :=
  ((ofGame cardsBeta (Xorshift.ofWord 2) MemoryStore.empty).save Slot.main).2.store

/-- The first game at its beginning. -/
def cards : Session Xorshift MemoryStore := ofGame betaCards (Xorshift.ofWord 1) sharedStore

/-- The second game at its beginning. -/
def beta : Session Xorshift MemoryStore := ofGame cardsBeta (Xorshift.ofWord 2) sharedStore

/-- The second game after the first one has saved to its main slot and emptied that again. -/
def laterBeta : Session Xorshift MemoryStore :=
  { beta with store := ((cards.save Slot.main).2.clearSave Slot.main).2.store }

/-- The first game saves to the main slot and empties it again, and then the second one looks at
its own. -/
theorem beta_beside_cards :
    Beside Slot.main cards beta ((cards.save Slot.main).2.clearSave Slot.main).2 laterBeta := by
  have hsave : cards.apply (.save Slot.main) = .ok (.stored (.ok ()), (cards.save Slot.main).2) :=
    rfl
  have hclear : (cards.save Slot.main).2.apply (.clearSave Slot.main) =
      .ok (.stored (.ok ()), ((cards.save Slot.main).2.clearSave Slot.main).2) := rfl
  have hask : laterBeta.apply (.hasSave Slot.main) =
      .ok (.holds (laterBeta.hasSave Slot.main), laterBeta) := rfl
  have hfirst : Beside Slot.main cards beta ((cards.save Slot.main).2.clearSave Slot.main).2
      laterBeta := (Beside.refl.other hsave).other hclear
  exact hfirst.own id hask

/-- The slot of the second game is as it was. -/
theorem beta_slots_kept :
    betaCards.identity.id ≠ cardsBeta.identity.id ∧ cards.store = beta.store ∧
    ¬ Slot.Nested betaCards.identity.id cardsBeta.identity.id ∧
    ¬ Slot.Nested cardsBeta.identity.id betaCards.identity.id ∧
    Slot.content ((cards.save Slot.main).2.clearSave Slot.main).2.store cardsBeta.identity.id
      Slot.main = Slot.content sharedStore cardsBeta.identity.id Slot.main := by
  have hids : betaCards.identity.id ≠ cardsBeta.identity.id := by decide
  have hnot : ¬ Slot.Nested betaCards.identity.id cardsBeta.identity.id := by
    rw [Slot.nested_iff_prefix]
    decide
  have hnot' : ¬ Slot.Nested cardsBeta.identity.id betaCards.identity.id := by
    rw [Slot.nested_iff_prefix]
    decide
  have hkept := slots_kept_unless_nested (s := cards) (t := beta) hids rfl
  exact ⟨hids, rfl, hnot, hnot', (hkept.2.1 hnot hnot' _ _ _ beta_beside_cards).1⟩

/-- The game of cards saves to one of its slots, and by that takes the main slot of the other game,
which was free. -/
theorem cards_takes_slot_of_oldCards :
    betaCards.identity.id ≠ oldCards.identity.id ∧
    Slot.isTaken cards.store oldCards.identity.id Slot.main = false ∧
    Slot.isTaken (cards.save "old/main").2.store oldCards.identity.id Slot.main = true := by
  decide +kernel

end Session

end IdleGame
