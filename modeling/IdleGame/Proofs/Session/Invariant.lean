import IdleGame.Proofs.Entity.Population
import IdleGame.Proofs.Random
import IdleGame.Proofs.Session.History

/-!
# What holds of every session

Whatever is called, the declared variables stand first in the state, in the order of their
declaration, and the entities stand in the order of their ids. That is what makes a snapshot enough
to go on from.

## Main definitions

* `World.Settled` - the declared variables stand first, the entities in order, and the log has its
  capacity

## Main results

* `Session.Reachable.settled` - every reachable session is settled
* `Session.Played.indexed` - the index of the entities is right in every session that is played
* `Session.Reachable.follows` - the random source follows the one that the session began with
* `Session.state_restore` - the state of a settled session is restored as it was
-/

namespace IdleGame

variable {ρ σ : Type} [RandomSource ρ]

namespace World

/-- The declared variables stand first in the state, the entities stand in order, and the log has
the capacity of the game. -/
structure Settled (g : Game) (w : World ρ) : Prop where
  state : g.initialState.keys <+: w.state.keys
  population : w.population.Ordered
  capacity : w.log.capacity = g.config.maxMessages

variable {g : Game} {op : Operation} {w w' : World ρ}

theorem capacity_push (log : MessageLog) (m : Message) : (log.push m).capacity = log.capacity := by
  unfold MessageLog.push
  split <;> rfl

omit [RandomSource ρ] in
theorem settled_ofGame (random : ρ) : (ofGame g random).Settled g :=
  ⟨List.prefix_rfl, Population.ordered_empty, rfl⟩

omit [RandomSource ρ] in
theorem settled_reset (h : w.Settled g) : (w.reset g).Settled g :=
  ⟨List.prefix_rfl, Population.ordered_clear, h.capacity⟩

/-- A change of the world leaves it settled. -/
theorem Change.settled (hchange : w.Change g.Writes w') (h : w.Settled g) : w'.Settled g := by
  cases hchange with
  | drawn => exact ⟨h.state, h.population, h.capacity⟩
  | logged => exact ⟨h.state, h.population, (capacity_push _ _).trans h.capacity⟩
  | written => exact ⟨h.state.trans Table.prefix_keys_insert, h.population, h.capacity⟩
  | spawned => exact ⟨h.state, Population.ordered_spawn h.population, h.capacity⟩
  | modified hid => exact ⟨h.state, Population.ordered_modify hid h.population, h.capacity⟩
  | removed => exact ⟨h.state, Population.ordered_remove h.population, h.capacity⟩

/-- While the entities stand in order, a change leaves their index right. -/
theorem Change.indexed (hchange : w.Change g.Writes w') (h : w.Settled g)
    (hindexed : w.population.Indexed) : w'.population.Indexed := by
  cases hchange with
  | drawn | logged | written => exact hindexed
  | spawned => exact Population.indexed_spawn h.population hindexed
  | modified hid hkind => exact Population.indexed_modify hid hkind hindexed
  | removed => exact Population.indexed_remove h.population hindexed

theorem Turn.settled (hturn : w.Turn g op w') (h : w.Settled g) : w'.Settled g := by
  cases hturn with
  | change hchange => exact hchange.settled h
  | clock | forget => exact ⟨h.state, h.population, h.capacity⟩
  | set => exact ⟨h.state.trans Table.prefix_keys_insert, h.population, h.capacity⟩
  | reset => exact settled_reset h

theorem Turn.indexed (hturn : w.Turn g op w') (h : w.Settled g)
    (hindexed : w.population.Indexed) : w'.population.Indexed := by
  cases hturn with
  | change hchange => exact hchange.indexed h hindexed
  | clock | forget | set => exact hindexed
  | reset => exact Population.indexed_clear

theorem Turns.settled (hturns : w.Turns g op w') (h : w.Settled g) : w'.Settled g :=
  hturns.preserve (fun _ _ hturn => hturn.settled) h

theorem Turns.indexed (hturns : w.Turns g op w') (h : w.Settled g)
    (hindexed : w.population.Indexed) : w'.population.Indexed :=
  (hturns.preserve (motive := fun w => w.Settled g ∧ w.population.Indexed)
    (fun _ _ hturn hw => ⟨hturn.settled hw.1, hturn.indexed hw.1 hw.2⟩) ⟨h, hindexed⟩).2

theorem Turn.follows (hturn : w.Turn g op w') : Follows w.random w'.random := by
  cases hturn with
  | change hchange =>
    cases hchange with
    | drawn h => exact h.follows
    | _ => exact .refl
  | _ => exact .refl

theorem Turns.follows (hturns : w.Turns g op w') : Follows w.random w'.random :=
  hturns.preserve (motive := fun w' => Follows w.random w'.random)
    (fun _ _ hturn h => h.trans hturn.follows) .refl

end World

namespace Session

variable {g : Game} {sources : Set ρ} {s s' : Session ρ σ} {shot : Snapshot}

theorem settled_restore (h : s.world.Settled s.game) : (s.restore shot).world.Settled s.game :=
  ⟨Table.prefix_keys_extend, Population.ordered_restore, h.capacity⟩

/-- The state of a settled world is restored as it was. -/
theorem state_restore {τ : Type} {t : Session ρ τ} (ht : t.world.Settled s.game) :
    (s.restore t.snapshot).world.state = t.world.state :=
  Table.extend_eq_of_prefix ht.state

theorem random_restore :
    (s.restore shot).world.random = RandomSource.resume s.world.random shot.random := by
  unfold restore RandomSource.resume
  cases shot.random <;> rfl

theorem follows_restore : Follows s.world.random (s.restore shot).world.random := by
  rw [random_restore]
  exact follows_resume _ _

variable [SaveStore σ]

theorem apply_follows {op : Operation} {a : Answer} (h : s.apply op = .ok (a, s')) :
    Follows s.world.random s'.world.random := by
  rcases apply_cases h with ⟨_, shot, -, rfl⟩ | ⟨-, hturns⟩
  · exact follows_restore
  · exact hturns.follows

theorem apply_settled {op : Operation} {a : Answer} (hs : s.world.Settled s.game)
    (h : s.apply op = .ok (a, s')) : s'.world.Settled s.game := by
  rcases apply_cases h with ⟨_, shot, -, rfl⟩ | ⟨-, hturns⟩
  · exact settled_restore hs
  · exact hturns.settled hs

/-- In every reachable session the declared variables stand first and the entities in order. -/
theorem Reachable.settled (h : s.Reachable g sources) : s.world.Settled g := by
  induction h with
  | new => exact World.settled_ofGame _
  | call hs hcall ih => exact hs.game ▸ apply_settled (hs.game.symm ▸ ih) hcall
  | share _ ih => exact ih

/-- The random source follows the one that the session began with. -/
theorem Reachable.follows (h : s.Reachable g sources) :
    ∃ r ∈ sources, Follows r s.world.random := by
  induction h with
  | @new random _ h => exact ⟨random, h, .refl⟩
  | call _ hcall ih =>
    obtain ⟨r, hr, hfollows⟩ := ih
    exact ⟨r, hr, hfollows.trans (apply_follows hcall)⟩
  | share _ ih => exact ih

variable {history : List Operation}

/-- The index of the entities is right in every session that is played. -/
theorem Played.indexed (h : s.Played g sources history) : s.world.population.Indexed := by
  induction h with
  | new => exact Population.indexed_empty
  | call hs hload hcall ih =>
    have hsettled := hs.reachable.settled
    have hturns := (apply_turns hload hcall).2
    rw [hs.game] at hturns
    exact hturns.indexed hsettled ih
  | resumed hs ht hslot _ _ =>
    rw [load_of_played hs.reachable ht hslot]
    exact Population.indexed_restore
      (nodup_ids_of_pairwise ht.reachable.settled.population.members)
  | refused _ hslot _ =>
    rw [load_refused hslot]
    exact Population.indexed_clear
  | share _ ih => exact ih

end Session

end IdleGame
