import IdleGame.Proofs.Ron.Spelling
import IdleGame.Ron.Parse

/-!
# Trees that read back

## Main definitions

* `Ron.IsData` - trees that data is written as

## Main results

* `Ron.IsData.parse?_writeAt` - the text of a tree is read as the tree
-/

namespace IdleGame.Ron

/-- Trees that data is written as: words, numerals, texts, what stands behind a tag, lists, tables
and records without a name. -/
inductive IsData : Ron → Prop
  | name {n} (hn : n.raw = false) (hword : isWord n.text.toList) : IsData (.name n)
  | numeral {lexeme} (hlexeme : isLexeme lexeme) : IsData (.numeral lexeme)
  | text {s} : IsData (.text s)
  | tagged {n item} (hn : n.raw = false) (hword : isWord n.text.toList) (h : IsData item) :
      IsData (.group (some n) [item])
  | list {items} (h : ∀ item ∈ items, IsData item) : IsData (.list items)
  | table {entries} (hkeys : ∀ e ∈ entries, IsData e.1) (h : ∀ e ∈ entries, IsData e.2) :
      IsData (.table entries)
  | record {fields} (hne : fields ≠ []) (hwords : ∀ f ∈ fields, isWord f.1.toList)
      (h : ∀ f ∈ fields, IsData f.2) : IsData (.record none fields)

mutual

/-- The tokens of a tree. -/
def tokens : Ron → List Token
  | .name n => [.name n]
  | .numeral lexeme => [.numeral lexeme]
  | .text s => [.text s]
  | .char c => [.char c]
  | .byte n => [.byte n]
  | .bytes bs => [.bytes bs]
  | .range first last inclusive => [.range first last inclusive]
  | .unit => [.unit]
  | .bare item => .name (keyword "Some") :: tokens item
  | .list items => .mark '[' :: (tokensOfItems items ++ [.mark ']'])
  | .table entries => .mark '\x7b' :: (tokensOfEntries entries ++ [.mark '\x7d'])
  | .group (some n) [item] => .name n :: .mark '(' :: (tokens item ++ [.mark ')'])
  | .group n items =>
    (n.map Token.name).toList ++ .mark '(' :: (tokensOfItems items ++ [.mark ')'])
  | .record n fields =>
    (n.map Token.name).toList ++ .mark '(' :: (tokensOfFields fields ++ [.mark ')'])

/-- The tokens of items. -/
def tokensOfItems : List Ron → List Token
  | [] => []
  | item :: items => tokens item ++ .mark ',' :: tokensOfItems items

/-- The tokens of entries. -/
def tokensOfEntries : List (Ron × Ron) → List Token
  | [] => []
  | (key, item) :: entries =>
    tokens key ++ .mark ':' :: (tokens item ++ .mark ',' :: tokensOfEntries entries)

/-- The tokens of fields. -/
def tokensOfFields : List (String × Ron) → List Token
  | [] => []
  | (field, item) :: fields =>
    .name (keyword field) :: .mark ':' :: (tokens item ++ .mark ',' :: tokensOfFields fields)

end

variable {cs rest' : List Char} {ts rest : List Token} {tree : Ron} {depth fuel : Nat}

/-! ## From the tree to the tokens -/

/-- A tree is written as its tokens, whatever delimiter stands behind it. -/
def IsSpelled (tree : Ron) : Prop :=
  ∀ depth cs ts, Delimited cs → Spelled cs ts →
    Spelled (writeAt depth tree ++ cs) (tokens tree ++ ts)

namespace Spelled

theorem indentation (h : Spelled cs ts) : Spelled (Ron.indentation depth ++ cs) ts := by
  unfold Ron.indentation
  induction 4 * depth with
  | zero => exact h
  | succ n ih => exact .blank (by decide) ih

theorem comma (h : Spelled cs ts) : Spelled (',' :: '\n' :: cs) (.mark ',' :: ts) :=
  .mark (by decide) (by simp) (.blank (by decide) h)

theorem colon (h : Spelled cs ts) : Spelled (':' :: ' ' :: cs) (.mark ':' :: ts) :=
  .mark (by decide) (by simp) (.blank (by decide) h)

theorem items {items : List Ron} (hitems : ∀ item ∈ items, IsSpelled item) (h : Spelled cs ts) :
    Spelled (writeItems depth items ++ cs) (tokensOfItems items ++ ts) := by
  induction items with
  | nil => exact h
  | cons item items ih =>
    rw [List.forall_mem_cons] at hitems
    have hitem := hitems.1 depth _ _ (delimited_cons (by decide)) (comma (ih hitems.2))
    simpa only [writeItems, tokensOfItems, List.append_assoc, List.cons_append, List.nil_append]
      using hitem.indentation

theorem entries {entries : List (Ron × Ron)} (hkeys : ∀ e ∈ entries, IsSpelled e.1)
    (hitems : ∀ e ∈ entries, IsSpelled e.2) (h : Spelled cs ts) :
    Spelled (writeEntries depth entries ++ cs) (tokensOfEntries entries ++ ts) := by
  induction entries with
  | nil => exact h
  | cons e entries ih =>
    rw [List.forall_mem_cons] at hkeys hitems
    have hitem := hitems.1 depth _ _ (delimited_cons (by decide)) (comma (ih hkeys.2 hitems.2))
    have hkey := hkeys.1 depth _ _ (delimited_cons (by decide)) (colon hitem)
    simpa only [writeEntries, tokensOfEntries, List.append_assoc, List.cons_append,
      List.nil_append] using hkey.indentation

theorem fields {fields : List (String × Ron)} (hwords : ∀ f ∈ fields, isWord f.1.toList)
    (hitems : ∀ f ∈ fields, IsSpelled f.2) (h : Spelled cs ts) :
    Spelled (writeFields depth fields ++ cs) (tokensOfFields fields ++ ts) := by
  induction fields with
  | nil => exact h
  | cons f fields ih =>
    rw [List.forall_mem_cons] at hwords hitems
    have hitem := hitems.1 depth _ _ (delimited_cons (by decide)) (comma (ih hwords.2 hitems.2))
    have hfield : Spelled (f.1.toList ++ _) _ :=
      @Spelled.name (keyword f.1) _ _ rfl hwords.1 (delimited_cons (by decide)) (colon hitem)
    simpa only [writeFields, tokensOfFields, List.append_assoc, List.cons_append,
      List.nil_append] using hfield.indentation

/-- Lines between brackets. -/
theorem bracketed {opening closing : Char} {lines : List Char} {us : List Token}
    (hopening : isMark opening) (hclosing : isMark closing) (hclosing' : closing ≠ '(')
    (hunit : lines = [] → opening ≠ '(')
    (hlines : ∀ cs ts, Spelled cs ts → Spelled (lines ++ cs) (us ++ ts)) (h : Spelled cs ts) :
    Spelled (Ron.bracketed opening closing depth lines ++ cs)
      (.mark opening :: (us ++ .mark closing :: ts)) := by
  have hclose : Spelled (closing :: cs) (.mark closing :: ts) :=
    .mark hclosing (fun h => absurd h hclosing') h
  rcases lines with _ | ⟨c, lines⟩
  · exact .mark hopening (fun h => absurd h (hunit rfl)) (hlines _ _ hclose)
  · have hindented : Spelled (Ron.indentation depth ++ closing :: cs) (.mark closing :: ts) :=
      hclose.indentation
    have hall := Spelled.mark hopening (by simp) (.blank (c := '\n') (by decide)
      (hlines _ _ hindented))
    simpa [Ron.bracketed] using hall

end Spelled

theorem head?_ne_of_isWord (h : isWord cs) : (cs ++ rest').head? ≠ some ')' := by
  rcases cs with _ | ⟨c, cs⟩
  · cases h
  · rintro ⟨⟩
    simp only [isWord, Bool.and_eq_true] at h
    exact absurd h.1 (by decide)

theorem head?_ne_of_isLexeme (h : isLexeme cs) : (cs ++ rest').head? ≠ some ')' := by
  rcases cs with _ | ⟨c, cs⟩
  · cases h
  · rintro ⟨⟩
    simp only [isLexeme, Bool.and_eq_true] at h
    exact absurd h.1.1 (by decide)

theorem writeName_of_not_raw {n : Name} (h : n.raw = false) : writeName n = n.text.toList := by
  simp [writeName, h]

theorem head?_bracketed {opening closing : Char} {lines : List Char} :
    (bracketed opening closing depth lines ++ cs).head? = some opening := by
  unfold bracketed
  split <;> rfl

namespace IsData

/-- No tree begins like a closing parenthesis. -/
theorem head?_ne (h : IsData tree) : (writeAt depth tree ++ cs).head? ≠ some ')' := by
  cases h with
  | name hn hword =>
    rw [writeAt, writeName_of_not_raw hn]
    exact head?_ne_of_isWord hword
  | numeral hlexeme => exact head?_ne_of_isLexeme hlexeme
  | text => simp [writeAt, Text.quoted]
  | tagged hn hword =>
    rw [writeAt, writeName_of_not_raw hn, List.append_assoc, List.append_assoc]
    exact head?_ne_of_isWord hword
  | list | table =>
    rw [writeAt, head?_bracketed]
    decide
  | record =>
    rw [writeAt, Option.map_none, Option.getD_none, List.nil_append, head?_bracketed]
    decide

theorem writeFields_ne_nil {fields : List (String × Ron)} (h : fields ≠ []) :
    writeFields depth fields ≠ [] := by
  obtain ⟨f, fields, rfl⟩ := List.exists_cons_of_ne_nil h
  simp [writeFields]

/-- A tree is written as its tokens. -/
theorem spelled (h : IsData tree) : IsSpelled tree := by
  induction h with
  | name hn hword =>
    intro depth cs ts hcs h
    simpa [writeAt, writeName_of_not_raw hn, tokens] using Spelled.name hn hword hcs h
  | numeral hlexeme => exact fun depth cs ts hcs h => .numeral hlexeme hcs h
  | text => exact fun depth cs ts _ h => .text h
  | @tagged n item hn hword hitem ih =>
    intro depth cs ts hcs h
    -- The tokens are spelled from the last one to the first.
    have hclose : Spelled (')' :: cs) (.mark ')' :: ts) := .mark (by decide) (by simp) h
    have hinside := ih depth _ _ (delimited_cons (by decide)) hclose
    have hgroup := Spelled.mark (c := '(') (by decide) (fun _ => hitem.head?_ne) hinside
    have htag := Spelled.name hn hword (delimited_cons (by decide)) hgroup
    simpa [writeAt, writeName_of_not_raw hn, tokens] using htag
  | list _ ih =>
    intro depth cs ts _ h
    simpa [writeAt, tokens] using
      Spelled.bracketed (by decide) (by decide) (by decide) (fun _ => by decide)
        (fun _ _ => Spelled.items ih) h
  | table _ _ ihkeys ih =>
    intro depth cs ts _ h
    simpa [writeAt, tokens] using
      Spelled.bracketed (by decide) (by decide) (by decide) (fun _ => by decide)
        (fun _ _ => Spelled.entries ihkeys ih) h
  | record hne hwords _ ih =>
    intro depth cs ts _ h
    simpa [writeAt, tokens] using
      Spelled.bracketed (by decide) (by decide) (by decide)
        (fun hnil => absurd hnil (writeFields_ne_nil hne))
        (fun _ _ => Spelled.fields hwords ih) h

end IsData

/-! ## From the tokens to the tree -/

/-- Tokens that are over or go on with a mark that ends a value. -/
def Closed (ts : List Token) : Prop := ∀ t ∈ ts.head?, t = .mark ',' ∨ t = .mark ')' ∨ t = .mark ':'

theorem closed_nil : Closed [] := nofun

theorem closed_comma : Closed (.mark ',' :: ts) := by
  rintro _ ⟨⟩
  exact .inl rfl

theorem closed_parenthesis : Closed (.mark ')' :: ts) := by
  rintro _ ⟨⟩
  exact .inr (.inl rfl)

theorem closed_colon : Closed (.mark ':' :: ts) := by
  rintro _ ⟨⟩
  exact .inr (.inr rfl)

/-- A tree is read from its tokens, whatever ends a value behind it. -/
def IsRead (tree : Ron) : Prop :=
  ∀ fuel rest, 3 * (tokens tree).length ≤ fuel → Closed rest →
    value? fuel (tokens tree ++ rest) = some (tree, rest)

theorem value?_name {n : Name} (h : Closed rest) :
    value? (fuel + 1) (.name n :: rest) = some (.name n, rest) := by
  rcases rest with _ | ⟨t, rest⟩
  · simp [value?, startsBare]
  · rcases h t rfl with rfl | rfl | rfl <;> simp [value?, startsBare]

namespace IsData

theorem items?_eq (h : IsData tree) {close : Char} (hclose : close = ')' ∨ close = ']') :
    items? (fuel + 1) close (tokens tree ++ rest) = item? fuel close (tokens tree ++ rest) := by
  cases h with
  | name | numeral | text | tagged => simp [tokens, items?]
  | list | table | record =>
    rcases hclose with rfl | rfl <;> simp [tokens, items?]

theorem tokens_append_ne (h : IsData tree) :
    tokens tree ++ rest ≠ .mark '\x7d' :: ts := by
  cases h <;> simp [tokens]

theorem content?_eq (h : IsData tree) {n : Option Name} :
    content? (fuel + 1) n (tokens tree ++ .mark ')' :: rest) =
      (items? fuel ')' (tokens tree ++ .mark ')' :: rest)).map
        fun (items, rest) => (.group n items, rest) := by
  cases h <;> simp [tokens, content?]

end IsData

theorem items?_tokens {items : List Ron} {close : Char} (hclose : close = ')' ∨ close = ']')
    (hdata : ∀ item ∈ items, IsData item) (hitems : ∀ item ∈ items, IsRead item)
    (hfuel : 3 * (tokensOfItems items).length + 1 ≤ fuel) :
    items? fuel close (tokensOfItems items ++ .mark close :: rest) = some (items, rest) := by
  induction items generalizing fuel with
  | nil =>
    obtain ⟨fuel, rfl⟩ := Nat.exists_eq_succ_of_ne_zero (Nat.ne_of_gt hfuel)
    simp [tokensOfItems, items?]
  | cons item items ih =>
    rw [List.forall_mem_cons] at hdata hitems
    simp only [tokensOfItems, List.length_append, List.length_cons] at hfuel
    obtain ⟨fuel, rfl⟩ : ∃ n, fuel = n + 2 := ⟨fuel - 2, by omega⟩
    have hitem := hitems.1 fuel (.mark ',' :: (tokensOfItems items ++ .mark close :: rest))
      (by omega) closed_comma
    have hlater : items? fuel close (tokensOfItems items ++ .mark close :: rest) =
        some (items, rest) := ih hdata.2 hitems.2 (by omega)
    simp only [tokensOfItems, List.append_assoc, List.cons_append]
    rw [hdata.1.items?_eq hclose, item?, hitem]
    simp [hlater]

theorem entries?_tokens {entries : List (Ron × Ron)} (hdata : ∀ e ∈ entries, IsData e.1)
    (hkeys : ∀ e ∈ entries, IsRead e.1) (hitems : ∀ e ∈ entries, IsRead e.2)
    (hfuel : 3 * (tokensOfEntries entries).length + 1 ≤ fuel) :
    entries? fuel (tokensOfEntries entries ++ .mark '\x7d' :: rest) = some (entries, rest) := by
  induction entries generalizing fuel with
  | nil =>
    obtain ⟨fuel, rfl⟩ := Nat.exists_eq_succ_of_ne_zero (Nat.ne_of_gt hfuel)
    simp [tokensOfEntries, entries?]
  | cons e entries ih =>
    rw [List.forall_mem_cons] at hdata hkeys hitems
    simp only [tokensOfEntries, List.length_append, List.length_cons] at hfuel
    obtain ⟨fuel, rfl⟩ : ∃ n, fuel = n + 1 := ⟨fuel - 1, by omega⟩
    have hitem := hitems.1 fuel (.mark ',' :: (tokensOfEntries entries ++ .mark '\x7d' :: rest))
      (by omega) closed_comma
    have hkey := hkeys.1 fuel (.mark ':' :: (tokens e.2 ++ .mark ',' ::
      (tokensOfEntries entries ++ .mark '\x7d' :: rest))) (by omega) closed_colon
    have hlater : entries? fuel (tokensOfEntries entries ++ .mark '\x7d' :: rest) =
        some (entries, rest) := ih hdata.2 hkeys.2 hitems.2 (by omega)
    simp only [tokensOfEntries, List.append_assoc, List.cons_append]
    rw [entries?, hkey]
    · simp [hitem, hlater]
    · exact fun _ => hdata.1.tokens_append_ne

theorem fields?_tokens {fields : List (String × Ron)} (hitems : ∀ f ∈ fields, IsRead f.2)
    (hfuel : 3 * (tokensOfFields fields).length + 1 ≤ fuel) :
    fields? fuel (tokensOfFields fields ++ .mark ')' :: rest) = some (fields, rest) := by
  induction fields generalizing fuel with
  | nil =>
    obtain ⟨fuel, rfl⟩ := Nat.exists_eq_succ_of_ne_zero (Nat.ne_of_gt hfuel)
    simp [tokensOfFields, fields?]
  | cons f fields ih =>
    rw [List.forall_mem_cons] at hitems
    simp only [tokensOfFields, List.length_append, List.length_cons] at hfuel
    obtain ⟨fuel, rfl⟩ : ∃ n, fuel = n + 1 := ⟨fuel - 1, by omega⟩
    have hitem := hitems.1 fuel (.mark ',' :: (tokensOfFields fields ++ .mark ')' :: rest))
      (by omega) closed_comma
    have hlater : fields? fuel (tokensOfFields fields ++ .mark ')' :: rest) =
        some (fields, rest) := ih hitems.2 (by omega)
    simp only [tokensOfFields, List.append_assoc, List.cons_append]
    rw [fields?, hitem]
    simp [hlater, keyword]

namespace IsData

/-- A tree is read from its tokens. -/
theorem read (h : IsData tree) : IsRead tree := by
  -- Every token pays for three steps, so there is enough fuel for what is inside.
  induction h with
  | name =>
    intro fuel rest hfuel hrest
    simp only [tokens, List.length_singleton] at hfuel
    obtain ⟨fuel, rfl⟩ : ∃ n, fuel = n + 1 := ⟨fuel - 1, by omega⟩
    exact value?_name hrest
  | numeral | text =>
    intro fuel rest hfuel _
    simp only [tokens, List.length_singleton] at hfuel
    obtain ⟨fuel, rfl⟩ : ∃ n, fuel = n + 1 := ⟨fuel - 1, by omega⟩
    simp [tokens, value?]
  | @tagged n item _ _ hitem ih =>
    intro fuel rest hfuel _
    simp only [tokens, List.length_cons, List.length_append] at hfuel
    obtain ⟨fuel, rfl⟩ : ∃ n, fuel = n + 4 := ⟨fuel - 4, by omega⟩
    have hinside := ih fuel (.mark ')' :: rest) (by omega) closed_parenthesis
    have hgroup : items? (fuel + 2) ')' (tokens item ++ .mark ')' :: rest) =
        some ([item], rest) := by
      rw [hitem.items?_eq (.inl rfl), item?, hinside]
      simp
    simp only [tokens, List.cons_append, List.append_assoc, List.nil_append]
    rw [value?, hitem.content?_eq, hgroup]
    rfl
  | list hdata ih =>
    intro fuel rest hfuel _
    simp only [tokens, List.length_cons, List.length_append, List.length_nil] at hfuel
    obtain ⟨fuel, rfl⟩ : ∃ n, fuel = n + 1 := ⟨fuel - 1, by omega⟩
    simp only [tokens, List.cons_append, List.append_assoc, List.nil_append]
    rw [value?, items?_tokens (.inr rfl) hdata ih (by omega)]
    rfl
  | table hkeys _ ihkeys ih =>
    intro fuel rest hfuel _
    simp only [tokens, List.length_cons, List.length_append, List.length_nil] at hfuel
    obtain ⟨fuel, rfl⟩ : ∃ n, fuel = n + 1 := ⟨fuel - 1, by omega⟩
    simp only [tokens, List.cons_append, List.append_assoc, List.nil_append]
    rw [value?, entries?_tokens hkeys ihkeys ih (by omega)]
    rfl
  | @record fields hne _ _ ih =>
    intro fuel rest hfuel _
    simp only [tokens, Option.map_none, Option.toList_none, List.nil_append, List.length_cons,
      List.length_append, List.length_nil] at hfuel
    obtain ⟨fuel, rfl⟩ : ∃ n, fuel = n + 2 := ⟨fuel - 2, by omega⟩
    obtain ⟨f, fields, rfl⟩ := List.exists_cons_of_ne_nil hne
    have hfields : fields? fuel (tokensOfFields (f :: fields) ++ .mark ')' :: rest) =
        some (f :: fields, rest) := fields?_tokens ih (by omega)
    simp only [tokens, Option.map_none, Option.toList_none, List.cons_append, List.append_assoc,
      List.nil_append]
    rw [value?]
    -- What stands between the parentheses is taken for fields because of the colon behind its name.
    simp only [tokensOfFields, List.cons_append] at hfields ⊢
    rw [content?, hfields]
    rfl

/-- A tree does not begin with an attribute. -/
theorem attributes?_tokens (h : IsData tree) (o : Options) :
    attributes? fuel o (tokens tree) = some (o, tokens tree) := by
  cases h <;> cases fuel <;> simp [tokens, attributes?]

/-- The text of a tree is read as the tree. -/
theorem parse?_writeAt (h : IsData tree) (o : Options) :
    parse? o (writeAt 0 tree) = some (o, tree) := by
  have hspelled := h.spelled 0 [] [] delimited_nil .nil
  rw [List.append_nil, List.append_nil] at hspelled
  obtain ⟨raw, hraw, hjoined⟩ := Option.map_eq_some_iff.mp hspelled.joinAdjacent_tokens
  have hread := h.read (3 * (tokens tree).length + 3) [] (by omega) closed_nil
  rw [List.append_nil] at hread
  simp [parse?, hraw, hjoined, h.attributes?_tokens, hread]

end IsData

end IdleGame.Ron
