import IdleGame.Message.Template
import IdleGame.Proofs.Table
import IdleGame.Proofs.Text.Sign
import Mathlib.Data.List.Infix

/-!
# What is filled in a template

A template is read once, from left to right, before any value is looked at. An opening brace begins
a slot when a closing brace comes after it, and the slot reaches to the first of these. So an
opening brace that is not closed takes up what follows, other opening braces included: a name in
braces is filled exactly when every opening brace before it is closed before it.

## Main definitions

* `Template.Piece` - a character that is copied, or a slot with its name
* `Template.Reads` - how a template is divided into pieces
* `Template.Closed` - every opening brace of a text is closed within it

## Main results

* `Template.fillFrom_of_reads` - a template is filled piece by piece
* `Template.exists_reads`, `Template.Reads.unique` - it is divided in exactly one way
* `Template.filled_in_one_pass` - what is put in is not read again
* `Template.placeholder_filled_iff` - when a name in braces is filled
-/

namespace IdleGame.Template

/-- A piece of a template. -/
inductive Piece where
  | plain (c : Char)
  | slot (name : List Char)

namespace Piece

/-- The piece as it stands in the template. -/
def text : Piece → List Char
  | plain c => [c]
  | slot name => '\x7b' :: name ++ ['\x7d']

/-- The piece as it stands in the filled template: a slot that is named like a variable is replaced
by the value, and all else is copied. -/
def filled (state : Values) : Piece → List Char
  | plain c => [c]
  | slot name => ((state.get? (String.ofList name)).map (·.display.toList)).getD (slot name).text

theorem filled_slot (state : Values) (name : List Char) :
    (slot name).filled state = shown state name := by
  rw [filled, shown]
  rcases state.get? (String.ofList name) with _ | v <;> rfl

end Piece

/-- How a template is divided. An opening brace that is not closed is plain, with what follows. -/
inductive Reads : List Char → List Piece → Prop
  | nil : Reads [] []
  | plain {c t ps} (hc : c ≠ '\x7b') (h : Reads t ps) : Reads (c :: t) (.plain c :: ps)
  | unclosed {t} (ht : '\x7d' ∉ t) : Reads ('\x7b' :: t) (('\x7b' :: t).map .plain)
  | slot {name t ps} (hname : '\x7d' ∉ name) (h : Reads t ps) :
      Reads ('\x7b' :: (name ++ '\x7d' :: t)) (.slot name :: ps)

/-- Every opening brace has a closing one after it. -/
def Closed (t : List Char) : Prop := ∀ u, '\x7b' :: u <:+ t → '\x7d' ∈ u

variable {state : Values} {name t u pending : List Char} {p : Piece} {ps qs : List Piece}

/-! ### Filling -/

/-- Inside a slot the scan goes on to the closing brace. -/
theorem fillFrom_pending (hname : '\x7d' ∉ name) :
    fillFrom state (some pending) (name ++ '\x7d' :: t) =
      shown state (pending.reverse ++ name) ++ fillFrom state none t := by
  induction name generalizing pending with
  | nil => simp [fillFrom]
  | cons c name ih =>
    rw [List.mem_cons, not_or] at hname
    rw [List.cons_append, fillFrom, ih hname.2, List.reverse_cons, List.append_assoc]
    · rfl
    · exact fun h => hname.1 h.symm

theorem fillFrom_slot (hname : '\x7d' ∉ name) :
    fillFrom state none ('\x7b' :: (name ++ '\x7d' :: t)) =
      shown state name ++ fillFrom state none t :=
  fillFrom_pending hname

/-- Without a closing brace the scan ends with what it has passed over. -/
theorem fillFrom_unclosed (ht : '\x7d' ∉ t) :
    fillFrom state (some pending) t = '\x7b' :: pending.reverse ++ t := by
  induction t generalizing pending with
  | nil => simp [fillFrom]
  | cons c t ih =>
    rw [List.mem_cons, not_or] at ht
    rw [fillFrom, ih ht.2, List.reverse_cons]
    · simp
    · exact fun h => ht.1 h.symm

/-- An opening brace without a closing one stands for itself. -/
theorem fillFrom_opening (ht : '\x7d' ∉ t) : fillFrom state none ('\x7b' :: t) = '\x7b' :: t :=
  fillFrom_unclosed ht

theorem flatMap_plain {f : Piece → List Char} (hf : ∀ c, f (.plain c) = [c]) :
    (t.map .plain).flatMap f = t := by
  rw [List.flatMap_map]
  simp [hf]

/-- A template is filled piece by piece. -/
theorem fillFrom_of_reads (h : Reads t ps) :
    fillFrom state none t = ps.flatMap (Piece.filled state) := by
  induction h with
  | nil => rfl
  | plain hc _ ih =>
    rw [fillFrom, ih]
    · rfl
    · exact hc
  | unclosed ht =>
    rw [fillFrom_opening ht]
    exact (flatMap_plain fun _ => rfl).symm
  | slot hname _ ih => rw [fillFrom_slot hname, ih, List.flatMap_cons, Piece.filled_slot]

/-! ### Reading -/

/-- The pieces are those of the template, in order. -/
theorem Reads.text_eq (h : Reads t ps) : ps.flatMap Piece.text = t := by
  induction h with
  | nil => rfl
  | plain _ _ ih => rw [List.flatMap_cons, ih]; rfl
  | unclosed _ => exact flatMap_plain fun _ => rfl
  | slot _ _ ih => rw [List.flatMap_cons, ih]; simp [Piece.text]

/-- Every template can be read. -/
theorem exists_reads (t : List Char) : ∃ ps, Reads t ps := by
  induction hlength : t.length using Nat.strongRecOn generalizing t with
  | _ length ih =>
    rcases t with _ | ⟨c, t⟩
    · exact ⟨[], .nil⟩
    by_cases hc : c = '\x7b'
    · subst hc
      by_cases hclosing : '\x7d' ∈ t
      -- The slot reaches to the first closing brace, and the rest is shorter.
      · obtain ⟨name, rest, rfl, hname⟩ := List.eq_append_cons_of_mem hclosing
        obtain ⟨ps, hps⟩ := ih rest.length (by simp at hlength; omega) rest rfl
        exact ⟨_, .slot hname hps⟩
      · exact ⟨_, .unclosed hclosing⟩
    · obtain ⟨ps, hps⟩ := ih t.length (by simp at hlength; omega) t rfl
      exact ⟨_, .plain hc hps⟩

/-- A template is read in one way only. -/
theorem Reads.unique (h : Reads t ps) (h' : Reads t qs) : ps = qs := by
  induction h generalizing qs with
  | nil =>
    cases h'
    rfl
  | plain hc _ ih =>
    cases h' with
    | plain _ h' => rw [ih h']
    | unclosed _ => exact absurd rfl hc
    | slot _ _ => exact absurd rfl hc
  | unclosed ht =>
    cases h' with
    | plain hc _ => exact absurd rfl hc
    | unclosed _ => rfl
    | slot _ _ => exact absurd (by simp) ht
  | @slot name t ps hname _ ih =>
    generalize htext : '\x7b' :: (name ++ '\x7d' :: t) = text at h'
    cases h' with
    | nil => cases htext
    | plain hc _ => exact absurd (List.cons.inj htext).1.symm hc
    | unclosed ht =>
      obtain ⟨-, rfl⟩ := List.cons.inj htext
      exact absurd (by simp) ht
    | slot hname' h' =>
      obtain ⟨-, htail⟩ := List.cons.inj htext
      obtain ⟨rfl, rfl⟩ := (Text.append_first_sign_inj hname hname').mp htail
      rw [ih h']

/-! ### Braces that are closed -/

theorem closed_nil : Closed [] := by
  intro u hu
  cases List.suffix_nil.mp hu

theorem closed_cons {c : Char} (hc : c ≠ '\x7b') (h : Closed t) : Closed (c :: t) := by
  intro u hu
  rcases List.suffix_cons_iff.mp hu with heq | hu
  · exact absurd (List.cons.inj heq).1.symm hc
  · exact h u hu

theorem Closed.tail {c : Char} (h : Closed (c :: t)) : Closed t :=
  fun u hu => h u (hu.trans (List.suffix_cons c t))

theorem Closed.of_append (h : Closed (t ++ u)) : Closed u :=
  fun w hw => h w (hw.trans (List.suffix_append t u))

/-- Behind a closing brace only the braces after it count. -/
theorem closed_append_closing (h : Closed u) : Closed (t ++ '\x7d' :: u) := by
  intro w hw
  rcases List.suffix_or_suffix_of_suffix hw (List.suffix_append t ('\x7d' :: u)) with hin | hout
  · rcases List.suffix_cons_iff.mp hin with heq | hin
    · cases heq
    · exact h w hin
  · rcases List.suffix_cons_iff.mp hout with heq | hout
    · cases heq
    · exact hout.mem List.mem_cons_self

/-- A text in which every opening brace is closed is read on its own. -/
theorem Reads.append (h : Reads t ps) (hclosed : Closed t) (h' : Reads u qs) :
    Reads (t ++ u) (ps ++ qs) := by
  induction h with
  | nil => exact h'
  | plain hc _ ih => exact .plain hc (ih hclosed.tail)
  | unclosed ht => exact absurd (hclosed _ List.suffix_rfl) ht
  | slot hname _ ih =>
    rw [List.cons_append, List.append_assoc]
    exact .slot hname (ih hclosed.tail.of_append.tail)

/-- A text with an opening brace that is not closed has a first one. -/
theorem exists_unclosed (h : ¬ Closed t) :
    ∃ before u, t = before ++ '\x7b' :: u ∧ Closed before ∧ '\x7d' ∉ u := by
  obtain ⟨ps, hps⟩ := exists_reads t
  induction hps with
  | nil => exact absurd closed_nil h
  | @plain c t _ hc _ ih =>
    obtain ⟨before, u, rfl, hbefore, hu⟩ := ih fun ht => h (closed_cons hc ht)
    exact ⟨c :: before, u, rfl, closed_cons hc hbefore, hu⟩
  | @unclosed t ht => exact ⟨[], t, rfl, closed_nil, ht⟩
  | @slot name t _ _ _ ih =>
    have ht : ¬ Closed t := fun ht => h (closed_append_closing (t := '\x7b' :: name) ht)
    obtain ⟨before, u, rfl, hbefore, hu⟩ := ih ht
    exact ⟨'\x7b' :: (name ++ '\x7d' :: before), u, by simp,
      closed_append_closing (t := '\x7b' :: name) hbefore, hu⟩

/-- A text is filled on its own where every opening brace of it is closed. -/
theorem fillFrom_append (h : Closed t) :
    fillFrom state none (t ++ u) = fillFrom state none t ++ fillFrom state none u := by
  obtain ⟨ps, hps⟩ := exists_reads t
  obtain ⟨qs, hqs⟩ := exists_reads u
  rw [fillFrom_of_reads (hps.append h hqs), List.flatMap_append, ← fillFrom_of_reads hps,
    ← fillFrom_of_reads hqs]

/-- A name in braces is filled, whatever its value is, exactly when every opening brace before it is
closed before it. -/
theorem fillFrom_placeholder_iff (before after : List Char) (hopen : '\x7b' ∉ name)
    (hclosing : '\x7d' ∉ name) :
    (∀ (state : Values) (v : Value), state.get? (String.ofList name) = some v →
      fillFrom state none (before ++ '\x7b' :: (name ++ '\x7d' :: after)) =
        fillFrom state none before ++ v.display.toList ++ fillFrom state none after) ↔
      Closed before := by
  constructor
  · intro hfilled
    by_contra hbefore
    obtain ⟨start, u, rfl, hstart, hu⟩ := exists_unclosed hbefore
    -- The opening brace that is not closed takes up the other one, with all between them.
    have htaken : '\x7d' ∉ u ++ '\x7b' :: name := by simp [hu, hclosing]
    have hother : String.ofList name ≠ String.ofList (u ++ '\x7b' :: name) := by
      intro heq
      have hname : name = u ++ '\x7b' :: name := String.ofList_injective heq
      exact hopen (hname ▸ by simp)
    have hkept := hfilled (Table.empty.insert (String.ofList name) (.string "")) (.string "")
      (by rw [Table.get?_insert, if_pos rfl])
    have htext : (start ++ '\x7b' :: u) ++ '\x7b' :: (name ++ '\x7d' :: after) =
        start ++ '\x7b' :: ((u ++ '\x7b' :: name) ++ '\x7d' :: after) := by simp
    rw [htext, fillFrom_append hstart, fillFrom_append hstart, fillFrom_opening hu,
      fillFrom_slot htaken, shown, Table.get?_insert, if_neg hother] at hkept
    have hlength := congrArg List.length hkept
    simp [Value.display] at hlength
    omega
  · intro hbefore state v hv
    rw [fillFrom_append hbefore, fillFrom_slot hclosing, shown, hv, List.append_assoc]

/-! ### Templates -/

theorem toList_fill (template : String) :
    (fill state template).toList = fillFrom state none template.toList := String.toList_ofList

/-- A slot stands in the template. -/
theorem Reads.infix (h : Reads t ps) (hp : p ∈ ps) : p.text <:+: t := by
  rw [← h.text_eq, List.flatMap_def]
  exact List.infix_of_mem_flatten (List.mem_map_of_mem hp)

/-- A template is divided into pieces before any value is looked at, and filled piece by piece: what
is put in is not read again, and all else is copied. If no variable stands between braces, then all
is. -/
theorem filled_in_one_pass (template : String) :
    ∃ pieces, Reads template.toList pieces ∧ pieces.flatMap Piece.text = template.toList ∧
      ∀ state : Values,
        (fill state template).toList = pieces.flatMap (Piece.filled state) ∧
        ((∀ k ∈ state.keys, ¬ (Piece.slot k.toList).text <:+: template.toList) →
          fill state template = template) := by
  obtain ⟨pieces, hreads⟩ := exists_reads template.toList
  refine ⟨pieces, hreads, hreads.text_eq, fun state => ?_⟩
  have hfill : (fill state template).toList = pieces.flatMap (Piece.filled state) := by
    rw [toList_fill, fillFrom_of_reads hreads]
  refine ⟨hfill, fun hkeys => String.toList_inj.mp ?_⟩
  rw [hfill, ← hreads.text_eq]
  refine List.flatMap_congr fun p hp => ?_
  cases p with
  | plain c => rfl
  | slot name =>
    have hunknown : state.get? (String.ofList name) = none := by
      rw [Table.get?_eq_none_iff]
      intro hkey
      refine hkeys _ hkey ?_
      rw [String.toList_ofList]
      exact hreads.infix hp
    rw [Piece.filled, hunknown]
    rfl

/-- A player who calls himself by a name in braces. -/
def hall : Values := Table.ofList [("who", .string "\x7bgold\x7d"), ("gold", .number 5.0)]

-- The braces that come with the name of the player are not read.
example : fill hall "\x7bwho\x7d has \x7bgold\x7d" = "\x7bgold\x7d has 5" := by decide +kernel

/-- Braces around parts of the names leave a template as it is. -/
theorem hall_keeps_braces : fill hall "\x7b\x7bwho \x7dgold\x7d" = "\x7b\x7bwho \x7dgold\x7d" := by
  obtain ⟨_, -, -, hfill⟩ := filled_in_one_pass "\x7b\x7bwho \x7dgold\x7d"
  refine (hfill hall).2 ?_
  decide +kernel

/-- A name in braces is filled, whatever its value is, exactly when every opening brace before it is
closed before it. Other braces make no difference, and what is not filled is copied. -/
theorem placeholder_filled_iff (template : String) :
    (∃ pieces, Reads template.toList pieces ∧ pieces.flatMap Piece.text = template.toList ∧
      ∀ state : Values, (fill state template).toList = pieces.flatMap (Piece.filled state)) ∧
    ∀ before name after : String, template = before ++ "\x7b" ++ name ++ "\x7d" ++ after →
      '\x7b' ∉ name.toList → '\x7d' ∉ name.toList →
        ((∀ (state : Values) (v : Value), state.get? name = some v →
          fill state template = fill state before ++ v.display ++ fill state after) ↔
            Closed before.toList) := by
  obtain ⟨pieces, hreads⟩ := exists_reads template.toList
  refine ⟨⟨pieces, hreads, hreads.text_eq, fun state => ?_⟩, ?_⟩
  · rw [toList_fill, fillFrom_of_reads hreads]
  · intro before name after htemplate hopen hclosing
    have htext : template.toList =
        before.toList ++ '\x7b' :: (name.toList ++ '\x7d' :: after.toList) := by
      simp [htemplate, String.toList_append]
    rw [← fillFrom_placeholder_iff before.toList after.toList hopen hclosing, ← htext,
      String.ofList_toList]
    simp only [← toList_fill, ← String.toList_append, String.toList_inj]

/-- A game that counts clips. -/
def workshop : Values := Table.ofList [("clips", .number 42.0)]

/-- The clips are filled in between braces that have no partner, or that are closed before. -/
theorem workshop_filled :
    fill workshop "\x7da\x7d \x7bclips\x7d \x7b" = "\x7da\x7d 42 \x7b" ∧
      fill workshop "\x7bno \x7bname\x7d \x7bclips\x7d" = "\x7bno \x7bname\x7d 42" := by
  constructor
  · obtain ⟨-, hiff⟩ := placeholder_filled_iff "\x7da\x7d \x7bclips\x7d \x7b"
    have hclosed : Closed "\x7da\x7d ".toList :=
      fun u hu => absurd (hu.mem List.mem_cons_self) (by decide)
    have hfill := (hiff "\x7da\x7d " "clips" " \x7b" rfl (by decide) (by decide)).mpr hclosed
      workshop (.number 42.0) rfl
    exact hfill.trans (by decide +kernel)
  · obtain ⟨-, hiff⟩ := placeholder_filled_iff "\x7bno \x7bname\x7d \x7bclips\x7d"
    have hclosed : Closed "\x7bno \x7bname\x7d ".toList :=
      closed_append_closing (t := "\x7bno \x7bname".toList) (closed_cons (by decide) closed_nil)
    have hfill := (hiff "\x7bno \x7bname\x7d " "clips" "" rfl (by decide) (by decide)).mpr hclosed
      workshop (.number 42.0) rfl
    exact hfill.trans (by decide +kernel)

/-- A brace that is not closed keeps the clips from being filled in. -/
theorem strayBrace_hides_clips :
    workshop.get? "clips" = some (.number 42.0) ∧ (Value.number 42.0).display = "42" ∧
      fill workshop "open \x7b brace \x7bclips\x7d" = "open \x7b brace \x7bclips\x7d" :=
  ⟨rfl, by decide +kernel, by decide +kernel⟩

end IdleGame.Template
