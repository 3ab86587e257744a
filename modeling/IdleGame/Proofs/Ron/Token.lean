import IdleGame.Proofs.Decimal.Digits
import IdleGame.Ron.Adjacent
import IdleGame.Ron.Write

/-!
# Tokens that are read

Words, numerals and quoted texts are read as the tokens that they were written for, as long as a
word and a numeral have a delimiter behind them.

## Main definitions

* `Ron.isWord`, `Ron.isLexeme` - how names and numerals are written
* `Ron.Delimited` - what can follow behind them

## Main results

* `Ron.Scan.run_word`, `Ron.Scan.run_lexeme` - a word is read as a name, a lexeme as a numeral
* `Ron.Scan.run_quoted` - a quoted text is read as the text, whatever characters it holds
-/

namespace IdleGame.Ron

variable {c : Char} {cs acc rest : List Char} {ts us : List Token}

/-! ## Characters -/

/-- A word of letters, digits and underscores with a letter in front. -/
def isWord : List Char → Bool
  | [] => false
  | c :: cs => c.isAlpha && cs.all fun c => c.isAlphanum || c = '_'

/-- A digit or a sign with letters, digits, signs and at most one point behind it. -/
def isLexeme : List Char → Bool
  | [] => false
  | c :: cs => (c.isDigit || c = '-') && (cs.count '.' ≤ 1 : Bool) &&
      cs.all fun c => c.isAlphanum || c = '.' || c = '-'

/-- The characters that stand behind words and numerals. -/
def delimiters : List Char := [',', ':', '(', ')', ' ', '\n']

/-- A text that is empty or begins with a delimiter. -/
def Delimited (cs : List Char) : Prop := ∀ c ∈ cs.head?, c ∈ delimiters

theorem delimited_nil : Delimited [] := nofun

theorem delimited_cons (h : c ∈ delimiters) : Delimited (c :: cs) := by
  rintro _ ⟨⟩
  exact h

theorem not_isIdentifierPart (h : c ∈ delimiters) : ¬ Text.isIdentifierPart c := by
  have hall : delimiters.all fun c => !Text.isIdentifierPart c := by decide
  simpa using List.all_eq_true.mp hall c h

theorem not_isRawNamePart (h : c ∈ delimiters) : ¬ isRawNamePart c := by
  have hall : delimiters.all fun c => !isRawNamePart c := by decide
  simpa using List.all_eq_true.mp hall c h

/-- What holds of every character of ASCII holds of a character with such a code. -/
theorem of_ascii {p : Char → Prop} (h : ∀ n < 128, p (Char.ofNat n)) (hc : c.toNat < 128) : p c :=
  Char.ofNat_toNat c ▸ h c.toNat hc

theorem toNat_lt_of_isAlphanum (h : c.isAlphanum) : c.toNat < 128 := by
  have hlast (last : Char) (hlast : last.toNat < 128) (hle : c.val ≤ last.val) : c.toNat < 128 :=
    Nat.lt_of_le_of_lt hle hlast
  rcases Bool.or_eq_true_iff.mp h with h | h
  · rcases Bool.or_eq_true_iff.mp h with h | h
    · exact hlast 'Z' (by decide) (of_decide_eq_true h).2
    · exact hlast 'z' (by decide) (of_decide_eq_true (Bool.and_eq_true_iff.mp h).2)
  · exact hlast '9' (by decide) (of_decide_eq_true (Bool.and_eq_true_iff.mp h).2)

/-- Whether a character begins neither a name nor a numeral. -/
def isSeparate (c : Char) : Bool :=
  isBlank c || c = '/' || c = '"' || c = '\'' || isMark c

theorem step_of_not_isSeparate (h : ¬ isSeparate c) :
    Scan.between.step c =
      if isNumeralStart c then some ([], .numeral [c])
      else if Text.isIdentifierStart c then some ([], .name [c])
      else none := by
  simp only [isSeparate, Bool.or_eq_true, decide_eq_true_eq, not_or] at h
  simp [Scan.step, Scan.start, h]

theorem step_of_isAlpha (h : c.isAlpha) : Scan.between.step c = some ([], .name [c]) := by
  have hascii : c.toNat < 128 := toNat_lt_of_isAlphanum (by simp [Char.isAlphanum, h])
  have hname := of_ascii (p := fun c => c.isAlpha → ¬ isSeparate c ∧ ¬ isNumeralStart c)
    (by decide +kernel) hascii h
  simp [step_of_not_isSeparate hname.1, hname.2, Text.isIdentifierStart, h]

theorem step_of_isDigit (h : c.isDigit ∨ c = '-') :
    Scan.between.step c = some ([], .numeral [c]) := by
  have hascii : c.toNat < 128 := by
    rcases h with h | rfl
    · exact toNat_lt_of_isAlphanum (by simp [Char.isAlphanum, h])
    · decide
  have hnumeral := of_ascii (p := fun c => c.isDigit ∨ c = '-' → ¬ isSeparate c ∧ isNumeralStart c)
    (by decide +kernel) hascii h
  simp [step_of_not_isSeparate hnumeral.1, hnumeral.2]

theorem step_of_isMark (h : isMark c) : Scan.between.step c = some ([.mark c], .between) := by
  have hother : isBlank c = false ∧ c ≠ '/' ∧ c ≠ '"' ∧ c ≠ '\'' := by
    simp only [isMark, Bool.or_eq_true, decide_eq_true_eq] at h
    rcases h with (((((((((h | h) | h) | h) | h) | h) | h) | h) | h) | h) | h <;> subst h <;> decide
  obtain ⟨hblank, hslash, hquote, hquote'⟩ := hother
  simp [Scan.step, Scan.start, hblank, hslash, hquote, hquote', h]

theorem step_of_isBlank (h : isBlank c) : Scan.between.step c = some ([.blank], .between) :=
  if_pos h

/-! ## One token after the other -/

namespace Scan

theorem run_cons {s s' : Scan} (h : s.step c = some (ts, s')) :
    s.run (c :: cs) = (s'.run cs).map (ts ++ ·) := by
  rw [run, h]
  change (s'.run cs >>= fun rest => some (ts ++ rest)) = _
  rcases s'.run cs <;> rfl

/-- A character that ends no token. -/
theorem run_cons_of_nil {s s' : Scan} (h : s.step c = some ([], s')) :
    s.run (c :: cs) = s'.run cs := by
  rw [run_cons h]
  rcases s'.run cs <;> rfl

/-- A token that ends in front of a character leaves the rest to be read from there. -/
theorem run_of_endWith {s : Scan} {t : Token} (h : s.step c = endWith t c) :
    s.run (c :: cs) = (between.run (c :: cs)).map (t :: ·) := by
  rw [run, run, h, endWith, step]
  rcases start c with _ | ⟨ts, s'⟩
  · rfl
  · simp only [Option.map_some, Option.bind_eq_bind, Option.bind_some]
    rcases s'.run cs <;> rfl

theorem step_name (h : Text.isIdentifierPart c) :
    (name acc).step c = some ([], name (c :: acc)) := by
  change stepName acc c = _
  unfold stepName
  split
  -- A quote or a number sign is no part of a name.
  iterate 6 exact absurd h (by decide)
  exact if_pos h

theorem step_name_of_delimiter (h : c ∈ delimiters) :
    (name acc).step c = endWith (nameToken false acc) c := by
  change stepName acc c = _
  unfold stepName
  split
  iterate 6 exact absurd h (by decide)
  exact if_neg (not_isIdentifierPart h)

theorem step_numeral (h : isRawNamePart c) (hpoint : c = '.' → '.' ∉ acc) :
    (numeral acc).step c = some ([], numeral (c :: acc)) := by
  change stepNumeral acc c = _
  unfold stepNumeral
  split
  -- Only a second point would make dots of the two.
  · exact absurd List.mem_cons_self (hpoint rfl)
  · exact absurd List.mem_cons_self (hpoint rfl)
  · exact if_pos h

theorem step_numeral_of_delimiter (h : c ∈ delimiters) :
    (numeral acc).step c = endWith (.numeral acc.reverse) c := by
  change stepNumeral acc c = _
  unfold stepNumeral
  split
  · exact absurd h (by decide)
  · exact absurd h (by decide)
  · exact if_neg (not_isRawNamePart h)

theorem run_name_of_delimited (h : Delimited rest) :
    (name acc).run rest = (between.run rest).map (nameToken false acc :: ·) := by
  rcases rest with _ | ⟨c, rest⟩
  · rfl
  · exact run_of_endWith (step_name_of_delimiter (h c rfl))

theorem run_numeral_of_delimited (h : Delimited rest) :
    (numeral acc).run rest = (between.run rest).map (.numeral acc.reverse :: ·) := by
  rcases rest with _ | ⟨c, rest⟩
  · rfl
  · exact run_of_endWith (step_numeral_of_delimiter (h c rfl))

theorem run_name_append (h : ∀ c ∈ cs, c.isAlphanum ∨ c = '_') :
    (name acc).run (cs ++ rest) = (name (cs.reverse ++ acc)).run rest := by
  induction cs generalizing acc with
  | nil => rfl
  | cons c cs ih =>
    rw [List.forall_mem_cons] at h
    have hpart : Text.isIdentifierPart c := by
      rcases h.1 with h | h <;> simp [Text.isIdentifierPart, h]
    rw [List.cons_append, run_cons_of_nil (step_name hpart), ih h.2]
    simp

theorem run_numeral_append (h : ∀ c ∈ cs, c.isAlphanum ∨ c = '.' ∨ c = '-')
    (hpoints : (acc ++ cs).count '.' ≤ 1) :
    (numeral acc).run (cs ++ rest) = (numeral (cs.reverse ++ acc)).run rest := by
  induction cs generalizing acc with
  | nil => rfl
  | cons c cs ih =>
    rw [List.forall_mem_cons] at h
    have hpart : isRawNamePart c := by
      rcases h.1 with h | h | h <;> simp [isRawNamePart, Text.isIdentifierPart, h]
    have hpoint : c = '.' → '.' ∉ acc := by
      rintro rfl hmem
      have hpos := List.count_pos_iff.mpr hmem
      simp only [List.count_append, List.count_cons_self] at hpoints
      omega
    rw [List.cons_append, run_cons_of_nil (step_numeral hpart hpoint), ih h.2]
    · simp
    · simpa [List.count_append, List.count_cons, Nat.add_assoc, Nat.add_comm,
        Nat.add_left_comm] using hpoints

/-- A word is read as a name. -/
theorem run_word (h : isWord cs) (hrest : Delimited rest) :
    between.run (cs ++ rest) =
      (between.run rest).map (.name ⟨String.ofList cs, false⟩ :: ·) := by
  rcases cs with _ | ⟨c, cs⟩
  · cases h
  · simp only [isWord, Bool.and_eq_true, List.all_eq_true, Bool.or_eq_true, decide_eq_true_eq] at h
    rw [List.cons_append, run_cons_of_nil (step_of_isAlpha h.1), run_name_append h.2,
      run_name_of_delimited hrest]
    simp [nameToken]

/-- A lexeme is read as a numeral. -/
theorem run_lexeme (h : isLexeme cs) (hrest : Delimited rest) :
    between.run (cs ++ rest) = (between.run rest).map (.numeral cs :: ·) := by
  rcases cs with _ | ⟨c, cs⟩
  · cases h
  · simp only [isLexeme, Bool.and_eq_true, List.all_eq_true, Bool.or_eq_true,
      decide_eq_true_eq, or_assoc] at h
    have hpoint : c ≠ '.' := by
      rintro rfl
      exact absurd h.1.1 (by decide)
    rw [List.cons_append, run_cons_of_nil (step_of_isDigit h.1.1), run_numeral_append h.2,
      run_numeral_of_delimited hrest]
    · simp
    · simpa [List.count_cons, hpoint] using h.1.2

/-! ## Quoted texts -/

section

variable {kind : Quoted} {pieces : List Piece}

theorem step_unicode {value count v : Nat} (hcount : count < 6)
    (hv : Decimal.digitValue? c = some v) :
    (escaped kind pieces (.unicode value count)).step c =
      some ([], escaped kind pieces (.unicode (value * 16 + v) (count + 1))) := by
  have hclose : c ≠ '\x7d' := by
    rintro rfl
    cases hv
  change (stepEscape kind pieces c (.unicode value count)).map _ = _
  rw [stepEscape, if_neg hclose, if_pos hcount, hv]
  rfl

/-- Hexadecimal digits are read one after the other. -/
theorem run_unicode_append {value value' count : Nat} (hcount : count + cs.length ≤ 6)
    (h : cs.foldlM (fun acc c => do
      let v ← Decimal.digitValue? c
      if v < 16 then some (acc * 16 + v) else none) value = some value') :
    (escaped kind pieces (.unicode value count)).run (cs ++ rest) =
      (escaped kind pieces (.unicode value' (count + cs.length))).run rest := by
  induction cs generalizing value count with
  | nil =>
    obtain rfl := Option.some.inj h
    rfl
  | cons c cs ih =>
    rw [List.length_cons] at hcount ⊢
    rw [List.foldlM_cons] at h
    obtain ⟨next, hnext, h⟩ := Option.bind_eq_some_iff.mp h
    obtain ⟨v, hv, hnext⟩ := Option.bind_eq_some_iff.mp hnext
    split at hnext
    · obtain rfl := Option.some.inj hnext
      rw [List.cons_append, run_cons_of_nil (step_unicode (by omega) hv), ih (by omega) h,
        Nat.add_assoc, Nat.add_comm 1]
    · cases hnext

theorem step_unicode_close {count : Nat} (hcount : 0 < count) (c : Char) :
    (escaped kind pieces (.unicode c.toNat count)).step '\x7d' =
      some ([], quoted kind (.char c :: pieces)) := by
  have hvalid : c.toNat.isValidChar := c.valid
  have hchar : Char.ofNatAux c.toNat hvalid = c := (dif_pos hvalid).symm.trans (Char.ofNat_toNat c)
  change (stepEscape kind pieces '\x7d' (.unicode c.toNat count)).map _ = _
  rw [stepEscape, if_pos rfl, dif_pos ⟨hcount, hvalid⟩, hchar]
  rfl

/-- A character that is written by its code is read as the character. -/
theorem run_code (c : Char) :
    (quoted .text pieces).run (['\\', 'u', '\x7b'] ++ Text.hexDigits c.toNat ++ ['\x7d'] ++ rest) =
      (quoted .text (.char c :: pieces)).run rest := by
  have hbackslash : (quoted .text pieces).step '\\' = some ([], escaped .text pieces .start) := rfl
  have hletter : (escaped .text pieces .start).step 'u' =
      some ([], escaped .text pieces .unicodeOpen) := rfl
  have hopen : (escaped .text pieces .unicodeOpen).step '\x7b' =
      some ([], escaped .text pieces (.unicode 0 0)) := rfl
  have hvalue : Decimal.ofDigits? 16 (Text.hexDigits c.toNat) = some c.toNat :=
    Decimal.ofDigits?_toDigits (by decide) (by decide) c.toNat
  -- The code of a character has six hexadecimal digits at most, as many as are read.
  have hcode : c.toNat < 16 ^ 6 := by
    have hvalid : c.toNat.isValidChar := c.valid
    unfold Nat.isValidChar at hvalid
    omega
  have hlength : 0 + (Text.hexDigits c.toNat).length ≤ 6 := by
    rw [Nat.zero_add]
    exact (Nat.length_toDigits_le_iff (by decide) (by decide)).mpr hcode
  have hpos : 0 < 0 + (Text.hexDigits c.toNat).length := by
    rw [Nat.zero_add]
    exact Nat.length_toDigits_pos
  simp only [List.append_assoc, List.cons_append, List.nil_append]
  rw [run_cons_of_nil hbackslash, run_cons_of_nil hletter, run_cons_of_nil hopen,
    run_unicode_append hlength hvalue, run_cons_of_nil (step_unicode_close hpos c)]

/-- A character that is written by a letter is read as the character. -/
theorem run_letter {e : Char} (he : e ∉ ['x', 'u', '\n', '\r']) (h : escaped? e = some c) :
    (quoted .text pieces).run ('\\' :: e :: rest) =
      (quoted .text (.char c :: pieces)).run rest := by
  have hbackslash : (quoted .text pieces).step '\\' = some ([], escaped .text pieces .start) := rfl
  have hletter : (escaped .text pieces .start).step e =
      some ([], quoted .text (.char c :: pieces)) := by
    simp only [List.mem_cons, List.not_mem_nil, or_false, not_or] at he
    change (stepEscape .text pieces e .start).map _ = _
    simp [stepEscape, he, h]
  rw [run_cons_of_nil hbackslash, run_cons_of_nil hletter]

/-- A character as it stands between quotes is read as the character. -/
theorem run_escape (c : Char) :
    (quoted .text pieces).run (Text.escape quotes c ++ rest) =
      (quoted .text (.char c :: pieces)).run rest := by
  unfold Text.escape
  split
  -- Five characters have a letter of their own, and quotes stand for themselves.
  iterate 5 exact run_letter (by decide) rfl
  split
  · rename_i hquote
    rcases List.mem_cons.mp (List.contains_iff_mem.mp hquote) with rfl | hquote
    · exact run_letter (by decide) rfl
    · obtain rfl := List.mem_singleton.mp hquote
      exact run_letter (by decide) rfl
  · split
    · exact run_code c
    · rename_i hbackslash hquotes _
      have hbackslash : c ≠ '\\' := hbackslash
      have hquote : c ≠ '"' := by
        rintro rfl
        exact hquotes (by decide)
      have hstep : (quoted .text pieces).step c = some ([], quoted .text (.char c :: pieces)) := by
        change stepQuoted .text pieces c = _
        simp [stepQuoted, hbackslash, hquote, Quoted.quote]
      exact run_cons_of_nil hstep

end

theorem run_escapes (cs : List Char) (pieces : List Piece) :
    (quoted .text pieces).run (cs.flatMap (Text.escape quotes) ++ rest) =
      (quoted .text ((cs.map Piece.char).reverse ++ pieces)).run rest := by
  induction cs generalizing pieces with
  | nil => rfl
  | cons c cs ih =>
    rw [List.flatMap_cons, List.append_assoc, run_escape, ih]
    simp

theorem joinPieces?_char (cs : List Char) : joinPieces? [] (cs.map Piece.char) = some cs := by
  induction cs with
  | nil => exact Text.decodeUtf8?_nil
  | cons c cs ih =>
    rw [List.map_cons, joinPieces?, Text.decodeUtf8?_nil, ih]
    rfl

/-- A quoted text is read as the text, whatever characters it holds. -/
theorem run_quoted (s : String) :
    between.run (Text.quoted quotes s.toList ++ rest) = (between.run rest).map (.text s :: ·) := by
  have hstart : between.step '"' = some ([], quoted .text []) := rfl
  have hend : (quoted .text ((s.toList.map Piece.char).reverse ++ [])).step '"' =
      some ([.text s], between) := by
    have hcontent := joinPieces?_char s.toList
    change (Quoted.text.token? _).map _ = _
    simp [Quoted.token?, hcontent]
  rw [Text.quoted, List.cons_append, List.cons_append, run_cons_of_nil hstart, List.append_assoc,
    run_escapes, List.singleton_append, run_cons hend]
  rfl

end Scan

end IdleGame.Ron
