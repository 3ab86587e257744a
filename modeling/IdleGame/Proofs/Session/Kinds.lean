import IdleGame.Proofs.Game.Declaration
import IdleGame.Proofs.Session.Firing
import IdleGame.Proofs.Store

/-!
# Kinds of declared variables

A declared variable is there from the start and holds a value of its kind, and what is written to
it by a player or by an assignment is turned into that kind. What is loaded is not: a variable is of
its kind afterwards only if it was saved with a value of that kind, or not at all.

## Main definitions

* `Game.Typed` - every declared variable is there and has a value of its kind

## Main results

* `Game.typed_initialState` - so it is at the start
* `Game.Typed.write` - and after a value that is turned into the kind has been written
* `Game.typed_extend_iff` - values that are put over the initial ones have to be of the kinds
* `Session.load_typed_iff` - what is loaded is typed exactly when what was saved is
-/

namespace IdleGame

namespace Game

/-- Every declared variable is there and has a value of its kind. -/
def Typed (g : Game) (state : Values) : Prop :=
  ∀ id kind, g.kinds.get? id = some kind → ∃ v, state.get? id = some v ∧ v.kind = kind

variable {g : Game} {state : Values} {id : String} {v : Value}

/-- The kinds are those of the initial values, also if a variable is declared again. -/
theorem kind_initialState (g : Game) (id : String) :
    (g.initialState.get? id).map Value.kind = g.kinds.get? id := by
  -- The two tables are filled in step, so what they hold before has to agree only.
  have hextend (ds : List VarDecl) (state : Values) (kinds : Table VarKind)
      (h : ∀ id, (state.get? id).map Value.kind = kinds.get? id) :
      ((state.extend (ds.map fun d => (d.id, d.initialValue))).get? id).map Value.kind =
        (kinds.extend (ds.map fun d => (d.id, d.kind))).get? id := by
    induction ds generalizing state kinds with
    | nil => exact h id
    | cons d ds ih =>
      refine ih _ _ fun id' => ?_
      rw [Table.get?_insert, Table.get?_insert, ← h]
      split
      · exact congrArg some (kind_initialValue d)
      · rfl
  exact hextend g.declarations Table.empty Table.empty fun _ => rfl

theorem typed_initialState (g : Game) : g.Typed g.initialState := by
  intro id kind hkind
  rw [← kind_initialState] at hkind
  exact Option.map_eq_some_iff.mp hkind

/-- What is written is turned into the kind. -/
theorem Typed.write (h : g.Typed state) {env : Surroundings} (hkinds : env.kinds = g.kinds)
    (id : String) (v : Value) : g.Typed (state.insert id (env.coerce id v)) := by
  intro id' kind hkind
  rw [Table.get?_insert]
  split
  · subst id'
    refine ⟨_, rfl, ?_⟩
    rw [Surroundings.coerce, hkinds, hkind]
    exact Value.kind_coerce v kind
  · exact h id' kind hkind

/-- Values put over the initial ones leave all declared variables typed when they have the kinds
themselves. -/
theorem typed_extend_iff (values : Values) :
    g.Typed (g.initialState.extend values.entries) ↔
      ∀ id kind v, g.kinds.get? id = some kind → values.get? id = some v → v.kind = kind := by
  have hget (id : String) : (g.initialState.extend values.entries).get? id =
      (values.get? id).or (g.initialState.get? id) := Table.get?_extend values.distinct
  constructor
  · intro h id kind v hkind hv
    obtain ⟨v', hv', hkind'⟩ := h id kind hkind
    rw [hget, hv, Option.some_or] at hv'
    obtain rfl := Option.some.inj hv'
    exact hkind'
  · intro h id kind hkind
    rw [hget]
    rcases hv : values.get? id with _ | v
    · exact typed_initialState g id kind hkind
    · exact ⟨v, rfl, h id kind v hkind hv⟩

/-- A variable with a declaration has a kind. -/
theorem exists_kind {d : VarDecl} (hd : d ∈ g.declarations) :
    ∃ kind, g.kinds.get? d.id = some kind := by
  rw [← Table.mem_keys_iff]
  change d.id ∈ (Table.empty.extend (g.declarations.map fun d => (d.id, d.kind))).keys
  rw [Table.keys_extend_eq_foldl, Table.mem_foldl_addKey, List.map_map]
  exact .inr (List.mem_map_of_mem hd)

end Game

namespace Session

variable {ρ σ : Type} [RandomSource ρ]

/-- An assignment writes a value of the kind of its variable. -/
theorem typed_assignment {g : Game} {env : Surroundings} (hkinds : env.kinds = g.kinds)
    {target : Option EntityId} {id : String} {e : Expr} {s s' : Scope ρ}
    (h : Action.run env target (.set id e) s = .ok s') (hs : g.Typed s.world.state) :
    g.Typed s'.world.state := by
  rw [Action.run] at h
  obtain ⟨⟨v, s₁⟩, hv, h⟩ := Outcome.bind_eq_ok_iff.mp h
  obtain rfl := Except.ok.inj h
  obtain ⟨⟨_, w⟩, hdraw, hv⟩ := Outcome.bind_eq_ok_iff.mp hv
  obtain ⟨rfl, rfl⟩ := Prod.mk.inj (Except.ok.inj hv)
  obtain ⟨r, -, rfl⟩ := World.draw_eq_ok_iff.mp hdraw
  exact hs.write hkinds id _

variable [SaveStore σ] {s : Session ρ σ} {slot : String} {shot : Snapshot}

/-- After a slot has been loaded every declared variable is there. All of them have values of their
kinds exactly when those that were saved have: other than at the start of a game, in a write by a
player and in an assignment, values are not turned into the kinds. -/
theorem load_typed_iff (h : s.stored slot = .ok (some shot)) :
    (s.load slot).1 ∧
      (∀ d ∈ s.game.declarations, ∃ v, (s.load slot).2.get? d.id = some v) ∧
      (s.game.Typed (s.load slot).2.world.state ↔
        ∀ id kind v, s.game.kinds.get? id = some kind → shot.state.get? id = some v →
          v.kind = kind) ∧
      (∀ (random : ρ) (store : σ), s.game.Typed (ofGame s.game random store).world.state) ∧
      (∀ id v, s.game.Typed s.world.state → s.game.Typed (s.set id v).world.state) ∧
      ∀ params target id e (scope scope' : Scope ρ),
        Action.run (s.surroundings params) target (.set id e) scope = .ok scope' →
        s.game.Typed scope.world.state → s.game.Typed scope'.world.state := by
  rw [load_of_stored h]
  refine ⟨rfl, fun d hd => ?_, Game.typed_extend_iff shot.state,
    fun _ _ => Game.typed_initialState s.game, fun id v hs => hs.write rfl id v,
    fun params target id e scope scope' hrun => typed_assignment rfl hrun⟩
  obtain ⟨kind, hkind⟩ := Game.exists_kind hd
  obtain ⟨v₀, hv₀, -⟩ := Game.typed_initialState s.game d.id kind hkind
  change ∃ v, (s.game.initialState.extend shot.state.entries).get? d.id = some v
  rw [Table.get?_extend shot.state.distinct]
  change ∃ v, (shot.state.get? d.id).or (s.game.initialState.get? d.id) = some v
  rw [hv₀]
  rcases shot.state.get? d.id with _ | v
  · exact ⟨v₀, rfl⟩
  · exact ⟨v, rfl⟩

/-- A game whose wood was declared as a string once, and later as a number, in the same version. -/
def hutGame (kind : VarKind) : Game where
  identity := { id := "hut", name := "Hut" }
  declarations := [{ id := "wood", kind, initial := some (.string "12") }]

/-- The hut at the start. -/
def hut (kind : VarKind) (store : MemoryStore) : Session Xorshift MemoryStore :=
  ofGame (hutGame kind) (Xorshift.ofWord 5) store

/-- The store in which the hut has been saved while wood was a string. -/
def hutStore : MemoryStore := ((hut .string MemoryStore.empty).save "main").2.store

/-- What was saved then. -/
def hutShot : Snapshot := (hut .string MemoryStore.empty).snapshot

set_option maxRecDepth 10000 in
theorem hut_decodes : Snapshot.decode? hutShot.encode = some hutShot := by
  rw [Snapshot.decode?_encode]
  decide +kernel

theorem hut_stored (kind : VarKind) : (hut kind hutStore).stored "main" = .ok (some hutShot) := by
  have hslot : Slot.load (hut kind hutStore).store (hut kind hutStore).game.identity.id "main" =
      .ok (some hutShot) := Slot.load_save rfl hut_decodes
  rw [stored, hslot]
  rfl

/-- Loaded in the game that it was saved in, wood is a string as it is declared. -/
theorem hut_load_typed :
    (hut .string hutStore).stored "main" = .ok (some hutShot) ∧
      (hutGame .string).Typed ((hut .string hutStore).load "main").2.world.state := by
  refine ⟨hut_stored .string, (load_typed_iff (hut_stored .string)).2.2.1.mpr ?_⟩
  intro id kind v hkind hv
  have hinitial := Game.kind_initialState (hutGame .string) id
  rw [show (hutGame .string).initialState.get? id = some v from hv,
    show (hutGame .string).kinds.get? id = some kind from hkind] at hinitial
  exact Option.some.inj hinitial

/-- Loaded in the game in which it is declared as a number, wood is a string still. -/
theorem hut_load_not_typed :
    (hut .number hutStore).stored "main" = .ok (some hutShot) ∧
      ((hut .number hutStore).load "main").1 ∧
      (hutGame .number).kinds.get? "wood" = some .number ∧
      ((hut .number hutStore).load "main").2.get? "wood" = some (.string "12") ∧
      ¬ (hutGame .number).Typed ((hut .number hutStore).load "main").2.world.state := by
  have hwood : ((hut .number hutStore).load "main").2.get? "wood" = some (.string "12") := by
    rw [load_of_stored (hut_stored .number)]
    rfl
  refine ⟨hut_stored .number, by rw [load_of_stored (hut_stored .number)], rfl, hwood, fun h => ?_⟩
  obtain ⟨v, hv, hkind⟩ := h "wood" .number rfl
  rw [show ((hut .number hutStore).load "main").2.world.state.get? "wood" = some (.string "12")
    from hwood] at hv
  obtain rfl := Option.some.inj hv
  cases hkind

end Session

end IdleGame
