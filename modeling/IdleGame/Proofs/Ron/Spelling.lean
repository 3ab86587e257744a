import IdleGame.Proofs.Ron.Token

/-!
# Texts spelled out

A text is made of words, numerals, quoted texts, marks and blanks, one behind the other. It is read
as the tokens that these were written for. Only what would be joined may not stand together.

## Main definitions

* `Ron.Spelled` - a text with the tokens that it is written for

## Main results

* `Ron.Spelled.joinAdjacent_tokens` - a text is read as the tokens that it is written for
-/

namespace IdleGame.Ron

/-- A text with the tokens that it is written for. -/
inductive Spelled : List Char → List Token → Prop
  | nil : Spelled [] []
  | blank {c cs ts} (hc : isBlank c) (h : Spelled cs ts) : Spelled (c :: cs) ts
  | mark {c cs ts} (hc : isMark c) (hunit : c = '(' → cs.head? ≠ some ')') (h : Spelled cs ts) :
      Spelled (c :: cs) (.mark c :: ts)
  | name {n cs ts} (hn : n.raw = false) (hword : isWord n.text.toList) (hcs : Delimited cs)
      (h : Spelled cs ts) : Spelled (n.text.toList ++ cs) (.name n :: ts)
  | numeral {lexeme cs ts} (hlexeme : isLexeme lexeme) (hcs : Delimited cs) (h : Spelled cs ts) :
      Spelled (lexeme ++ cs) (.numeral lexeme :: ts)
  | text {s cs ts} (h : Spelled cs ts) : Spelled (Text.quoted quotes s.toList ++ cs) (.text s :: ts)

variable {cs : List Char} {t : Token} {ts raw : List Token}

/-- A token that is joined with nothing, apart from parentheses. -/
def Token.IsLoose : Token → Prop
  | .dots _ | .range .. => False
  | _ => True

theorem Token.join_of_isLoose (ht : t.IsLoose) (hraw : ∀ u ∈ raw.head?, u.IsLoose)
    (hunit : t = .mark '(' → raw.head? ≠ some (.mark ')')) : t.join raw = t :: raw := by
  unfold Token.join
  split
  · exact absurd rfl (hunit rfl)
  · exact ht.elim
  · exact ht.elim
  · exact (hraw _ rfl).elim
  · rfl

/-- What a text is read as before anything is joined: the blanks stand between the other tokens. -/
structure Reads (cs : List Char) (ts raw : List Token) : Prop where
  run : Scan.between.run cs = some raw
  loose : ∀ u ∈ raw, u.IsLoose
  joined : raw.foldr Token.join [] = raw
  unblanked : raw.filter (fun t => !t.isBlank) = ts
  /-- A mark in front is the first character. -/
  head : ∀ c, raw.head? = some (.mark c) → cs.head? = some c

/-- A token in front is read before the rest. -/
theorem Reads.cons {cs' : List Char} (h : Reads cs ts raw)
    (hrun : Scan.between.run cs' = (Scan.between.run cs).map (t :: ·)) (ht : t.IsLoose)
    (hhead : ∀ c, t = .mark c → cs'.head? = some c)
    (hunit : t = .mark '(' → cs.head? ≠ some ')') :
    Reads cs' ([t].filter (fun t => !t.isBlank) ++ ts) (t :: raw) where
  run := by rw [hrun, h.run]; rfl
  loose := List.forall_mem_cons.mpr ⟨ht, h.loose⟩
  joined := by
    rw [List.foldr_cons, h.joined]
    refine Token.join_of_isLoose ht (fun u hu => h.loose u (List.mem_of_mem_head? hu)) ?_
    exact fun ht hraw => hunit ht (h.head _ hraw)
  unblanked := by rw [← h.unblanked, ← List.filter_append]; rfl
  head c hc := hhead c (Option.some.inj hc)

namespace Spelled

theorem reads (h : Spelled cs ts) : ∃ raw, Reads cs ts raw := by
  induction h with
  | nil => exact ⟨[], rfl, nofun, rfl, rfl, nofun⟩
  | @blank c cs ts hc _ ih =>
    obtain ⟨raw, ih⟩ := ih
    exact ⟨_, ih.cons (Scan.run_cons (step_of_isBlank hc)) trivial nofun nofun⟩
  | @mark c cs ts hc hunit _ ih =>
    obtain ⟨raw, ih⟩ := ih
    refine ⟨_, ih.cons (Scan.run_cons (step_of_isMark hc)) trivial ?_ ?_⟩
    · rintro _ ⟨⟩
      rfl
    · rintro ⟨⟩
      exact hunit rfl
  | @name n cs ts hn hword hcs _ ih =>
    obtain ⟨raw, ih⟩ := ih
    obtain ⟨text, raw⟩ := n
    obtain rfl : raw = false := hn
    have hrun := Scan.run_word hword hcs
    rw [String.ofList_toList] at hrun
    exact ⟨_, ih.cons hrun trivial nofun nofun⟩
  | numeral hlexeme hcs _ ih =>
    obtain ⟨raw, ih⟩ := ih
    exact ⟨_, ih.cons (Scan.run_lexeme hlexeme hcs) trivial nofun nofun⟩
  | text _ ih =>
    obtain ⟨raw, ih⟩ := ih
    exact ⟨_, ih.cons (Scan.run_quoted _) trivial nofun nofun⟩

/-- A text is read as the tokens that it is written for. -/
theorem joinAdjacent_tokens (h : Spelled cs ts) : (tokens? cs).map joinAdjacent = some ts := by
  obtain ⟨raw, hreads⟩ := h.reads
  rw [tokens?, hreads.run, Option.map_some, joinAdjacent, hreads.joined, hreads.unblanked]

end Spelled

end IdleGame.Ron
