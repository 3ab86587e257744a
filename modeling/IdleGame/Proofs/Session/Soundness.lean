import IdleGame.Proofs.Game.Declaration
import IdleGame.Proofs.Game.Issue
import IdleGame.Proofs.Session.Invariant
import IdleGame.Store.Memory

/-!
# Playing a game without issues

The search for issues looks at a game before it is played. What it promises holds throughout every
play: the declared variables are there and keep their kinds, other variables come only from
outside, and no expression reads a variable that is not there.

## Main definitions

* `Game.Sound` - a state that keeps the promises, given the calls so far

## Main results

* `Session.Played.sound` - the promises hold in every session that is played
* `Session.no_issues_sound` - without issues a play keeps the declarations, and reads only what is
  there
-/

namespace IdleGame

open Relation (ReflTransGen)

namespace Game

/-- A state that keeps the promises of a game without issues: the declared variables stand first,
with values of their kinds, and all others have been written from outside. -/
structure Sound (g : Game) (history : List Operation) (state : Values) : Prop where
  declared : g.initialState.keys <+: state.keys
  kinds : ∀ id kind, g.kinds.get? id = some kind → ∃ v, state.get? id = some v ∧ v.kind = kind
  hosts : ∀ id ∈ state.keys, id ∉ g.kinds.keys → ∃ v, .play (.set id v) ∈ history

variable {g : Game} {history history' : List Operation} {state : Values} {id : String} {v : Value}

theorem nodup_declarations (hissues : g.issues = []) : (g.declarations.map VarDecl.id).Nodup :=
  (issues_eq_nil_iff.mp hissues).1

/-- The declared variables with their initial values keep the promises. -/
theorem sound_initialState (h : (g.declarations.map VarDecl.id).Nodup) :
    g.Sound history g.initialState where
  declared := List.prefix_rfl
  kinds id kind hkind := by
    rw [Table.get?_eq_some_iff, entries_kinds h] at hkind
    obtain ⟨d, hd, heq⟩ := List.mem_map.mp hkind
    obtain ⟨rfl, rfl⟩ := Prod.mk.inj heq
    refine ⟨d.initialValue, ?_, kind_initialValue d⟩
    rw [Table.get?_eq_some_iff, entries_initialState h]
    exact List.mem_map_of_mem hd
  hosts id hid hnot := by
    rw [keys_initialState h, ← keys_kinds h] at hid
    exact (hnot hid).elim

theorem Sound.mono (h : g.Sound history state) (hsub : history ⊆ history') :
    g.Sound history' state where
  declared := h.declared
  kinds := h.kinds
  hosts id hid hnot := by
    obtain ⟨v, hv⟩ := h.hosts id hid hnot
    exact ⟨v, hsub hv⟩

/-- Writing a variable of the right kind, or one of its own from outside, keeps the promises. -/
theorem Sound.insert (h : g.Sound history state)
    (hkind : ∀ kind, g.kinds.get? id = some kind → v.kind = kind)
    (hhost : id ∉ g.kinds.keys → ∃ v, .play (.set id v) ∈ history) :
    g.Sound history (state.insert id v) where
  declared := h.declared.trans Table.prefix_keys_insert
  kinds id' kind hget := by
    rw [Table.get?_insert]
    split
    · subst id'
      exact ⟨v, rfl, hkind kind hget⟩
    · exact h.kinds id' kind hget
  hosts id' hid' hnot := by
    rw [Table.keys_insert] at hid'
    split at hid'
    · exact h.hosts id' hid' hnot
    · rcases List.mem_append.mp hid' with hid' | hid'
      · exact h.hosts id' hid' hnot
      · obtain rfl := List.mem_singleton.mp hid'
        exact hhost hnot

end Game

variable {ρ σ : Type} [RandomSource ρ] {g : Game} {history : List Operation}

namespace World

variable {op : Operation} {w w' : World ρ}

theorem Change.sound (hissues : g.issues = []) (hchange : w.Change g.Writes w')
    (h : g.Sound history w.state) : g.Sound history w'.state := by
  cases hchange with
  | written hwrites =>
    have hkind := Game.kind_of_writes hissues hwrites
    refine h.insert (fun kind hget => ?_) fun hnot => ?_
    · exact Option.some.inj (hkind.symm.trans hget)
    · exact (hnot (Table.mem_keys_iff.mpr ⟨_, hkind⟩)).elim
  | _ => exact h

theorem Changes.sound (hissues : g.issues = []) (hchanges : w.Changes g.Writes w')
    (h : g.Sound history w.state) : g.Sound history w'.state :=
  hchanges.preserve (motive := fun w => g.Sound history w.state)
    (fun _ _ hchange => hchange.sound hissues) h

theorem Turn.sound (hissues : g.issues = []) (hop : op ∈ history) (hturn : w.Turn g op w')
    (h : g.Sound history w.state) : g.Sound history w'.state := by
  cases hturn with
  | change hchange => exact hchange.sound hissues h
  | clock | forget => exact h
  | set =>
    refine h.insert (fun kind hget => ?_) fun _ => ⟨_, hop⟩
    simp [Surroundings.coerce, hget]
  | reset => exact Game.sound_initialState (Game.nodup_declarations hissues)

/-- Turns of a game without issues keep the promises. -/
theorem Turns.sound (hissues : g.issues = []) (hop : op ∈ history) (hturns : w.Turns g op w')
    (h : g.Sound history w.state) : g.Sound history w'.state :=
  hturns.preserve (motive := fun w => g.Sound history w.state)
    (fun _ _ hturn => hturn.sound hissues hop) h

end World

namespace Session

variable [SaveStore σ] {sources : Set ρ} {s : Session ρ σ}

/-- The promises of a game without issues hold in every session of it that is played. -/
theorem Played.sound (hissues : g.issues = []) (h : s.Played g sources history) :
    g.Sound history s.world.state := by
  induction h with
  | new => exact Game.sound_initialState (Game.nodup_declarations hissues)
  | call hs hload hcall ih =>
    have hturns := (apply_turns hload hcall).2
    rw [hs.game] at hturns
    exact hturns.sound hissues (List.mem_append_right _ List.mem_cons_self)
      (ih.mono (List.subset_append_left _ _))
  | resumed hs ht hslot _ ih =>
    rw [load_of_played hs.reachable ht hslot, state_restore (hs.game.symm ▸ ht.reachable.settled)]
    -- What was written before the loaded save is in the history as well.
    refine ih.mono ?_
    rw [List.append_assoc]
    exact fun op hop => List.mem_append_right _ (List.mem_append_left _ hop)
  | @refused _ s slot hs hslot _ =>
    rw [load_refused hslot]
    change g.Sound _ s.game.initialState
    rw [hs.game]
    exact Game.sound_initialState (Game.nodup_declarations hissues)
  | share _ ih => exact ih

/-- Whatever a call of such a session evaluates, the variables that are read are there. -/
theorem Played.readVariable (hissues : g.issues = []) (h : s.Played g sources history)
    {op : Operation} {ev ev' : Evaluation ρ} {id : String} (hev : op.Evaluates s ev)
    (hreach : ReflTransGen Evaluation.Calls ev ev') (hid : ev'.expr.reads? = some id) :
    ∃ v, ev'.view.readVariable id = some v := by
  obtain ⟨w, hturns, w', params, target, hchanges, hview, hauthors⟩ := hev.reads
  rw [h.game] at hturns hchanges hauthors
  have hdeclared := Game.declared_of_authors hissues hauthors
    (Evaluation.mem_nodes_of_reaches hreach) hid
  -- The call itself may have written from outside before it evaluates.
  have hsound : g.Sound (op :: history) w'.state :=
    hchanges.sound hissues <| hturns.sound hissues List.mem_cons_self <|
      (h.sound hissues).mono (List.subset_cons_self _ _)
  obtain ⟨kind, hkind⟩ := Table.mem_keys_iff.mp hdeclared
  obtain ⟨v, hv, -⟩ := hsound.kinds id kind hkind
  rw [Evaluation.view_eq_of_reaches hreach, hview]
  exact ⟨v, hv⟩

/-- In every play of a game without issues the state begins with the declared variables, in the
order of their declaration and with values of their kinds, every other variable has been written
from outside, and every variable that an expression reads is there. -/
theorem no_issues_sound (hissues : g.issues = []) (h : s.Played g sources history) :
    g.declarations.map VarDecl.id <+: s.world.state.keys ∧
      (∀ d ∈ g.declarations, ∃ v, s.get? d.id = some v ∧ v.kind = d.kind) ∧
      (∀ id ∈ s.world.state.keys, id ∉ g.declarations.map VarDecl.id →
        ∃ v, Operation.play (.set id v) ∈ history) ∧
      ∀ (op : Operation) (ev ev' : Evaluation ρ) (id : String), op.Evaluates s ev →
        ReflTransGen Evaluation.Calls ev ev' → ev'.expr.reads? = some id →
        ∃ v, ev'.view.readVariable id = some v := by
  have hnodup := Game.nodup_declarations hissues
  have hsound := h.sound hissues
  refine ⟨?_, fun d hd => ?_, ?_, fun _ _ _ _ => h.readVariable hissues⟩
  · exact Game.keys_initialState hnodup ▸ hsound.declared
  · refine hsound.kinds d.id d.kind ?_
    rw [Table.get?_eq_some_iff, Game.entries_kinds hnodup]
    exact List.mem_map_of_mem hd
  · exact Game.keys_kinds hnodup ▸ hsound.hosts

/-- A game in which a pond grows by what it holds. -/
def pondGame : Game where
  identity := { id := "pond", name := "Pond" }
  declarations := [{ id := "x", initial := some (.number 1.0) }]
  rules := [{ id := "grow", condition := .flag "x", actions := [.add "x" (.ref "x")] }]

/-- The pond, running, after a note has been written from outside. -/
def notedPond : Session Xorshift MemoryStore :=
  (ofGame pondGame (Xorshift.ofWord 1) MemoryStore.empty).start.set "note" (.string "hi")

theorem notedPond_sound :
    pondGame.declarations.map VarDecl.id <+: notedPond.world.state.keys ∧
      (∀ d ∈ pondGame.declarations, ∃ v, notedPond.get? d.id = some v ∧ v.kind = d.kind) ∧
      (∀ id ∈ notedPond.world.state.keys, id ∉ pondGame.declarations.map VarDecl.id →
        ∃ v, Operation.play (.set id v) ∈
          [.play .start, .play (.set "note" (.string "hi"))]) ∧
      ∀ (op : Operation) (ev ev' : Evaluation Xorshift) (id : String), op.Evaluates notedPond ev →
        ReflTransGen Evaluation.Calls ev ev' → ev'.expr.reads? = some id →
        ∃ v, ev'.view.readVariable id = some v :=
  no_issues_sound (by decide)
    (.call (.call (.new (Set.mem_range_self 1)) (by simp) rfl) (by simp) rfl)

end Session

end IdleGame
