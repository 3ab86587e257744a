import IdleGame.Expr.Eval

/-!
# Where results and faults come from

A computation made of two parts faults in one of them. Read backwards, its result or its fault is
traced to the part that gave it; a loop is traced to the round. Two computations that go part by
part are compared part by part.

## Main definitions

* `Outcome.Agree` - both computations have related results, or both stop at the same fault
* `Outcome.SameWith` - results with equal values and related states
* `Outcome.listed` - what is listed of a result
* `Outcome.listedRounds` - what is listed of the rounds of a loop

## Main results

* `Outcome.bind_eq_ok_iff`, `Outcome.bind_eq_error_iff` - one part after the other
* `Outcome.foldlM_eq_error_iff` - the round of a loop that stops it
* `Outcome.foldlM_preserves` - what a loop preserves
* `Outcome.bind_hom`, `Outcome.foldlM_hom` - a change of results passes through part by part
* `Draws.bind_ok_iff`, `Draws.bind_error_iff` - the same for computations that draw
-/

namespace IdleGame

namespace Outcome

variable {ε α β : Type}

theorem bind_eq_ok_iff {x : Except ε α} {f : α → Except ε β} {b : β} :
    x >>= f = .ok b ↔ ∃ a, x = .ok a ∧ f a = .ok b := by
  rcases x with _ | a <;> simp [bind, Except.bind]

theorem bind_eq_error_iff {x : Except ε α} {f : α → Except ε β} {e : ε} :
    x >>= f = .error e ↔ x = .error e ∨ ∃ a, x = .ok a ∧ f a = .error e := by
  rcases x with _ | a <;> simp [bind, Except.bind]

/-- A computation has a result when it has no fault. -/
theorem exists_eq_ok_iff {x : Except ε α} : (∃ a, x = .ok a) ↔ ∀ e, x ≠ .error e := by
  rcases x with e | a <;> simp

theorem toOption_eq_some_iff {x : Except ε α} {a : α} : x.toOption = some a ↔ x = .ok a := by
  rcases x with e | a' <;> simp [Except.toOption]

theorem exists_eq_ok_of_isOk {x : Except ε α} (h : x.isOk) : ∃ a, x = .ok a := by
  rcases x with e | a
  · cases h
  · exact ⟨a, rfl⟩

/-- What is made of a result afterwards adds no fault. -/
theorem bind_total_eq_error_iff {x : Except ε α} {f : α → Except ε β} {e : ε}
    (h : ∀ a, ∃ b, f a = .ok b) : x >>= f = .error e ↔ x = .error e := by
  rw [bind_eq_error_iff, or_iff_left]
  rintro ⟨a, -, ha⟩
  obtain ⟨b, hb⟩ := h a
  rw [hb] at ha
  cases ha

@[simp] theorem pure_eq_ok {a : α} : (pure a : Except ε α) = .ok a := rfl

@[simp] theorem ok_bind {a : α} {f : α → Except ε β} : (Except.ok a >>= f) = f a := rfl

@[simp] theorem error_bind {e : ε} {f : α → Except ε β} : (Except.error e >>= f) = .error e := rfl

/-- The answer of a computation is renamed, and what stands beside it is left as it is. -/
theorem map_fst_eq_ok_iff {γ : Type} {x : Except ε (α × γ)} {f : α → β} {b : β} {c : γ} :
    (do let (a, c) ← x; return (f a, c)) = .ok (b, c) ↔ ∃ a, x = .ok (a, c) ∧ f a = b := by
  rcases x with _ | ⟨a, c'⟩
  · simp
  · simp only [ok_bind, pure_eq_ok, Except.ok.injEq, Prod.mk.injEq]
    constructor
    · rintro ⟨rfl, rfl⟩
      exact ⟨a, ⟨rfl, rfl⟩, rfl⟩
    · rintro ⟨_, ⟨rfl, rfl⟩, rfl⟩
      exact ⟨rfl, rfl⟩

/-- A loop stops at the first round that faults. -/
theorem foldlM_eq_error_iff {f : β → α → Except ε β} {b : β} {l : List α} {e : ε} :
    l.foldlM f b = .error e ↔
      ∃ before a after b', l = before ++ a :: after ∧ before.foldlM f b = .ok b' ∧
        f b' a = .error e := by
  induction l generalizing b with
  | nil => simp
  | cons a l ih =>
    rw [List.foldlM_cons, bind_eq_error_iff]
    -- The round that faults is the first one, or one of the loop that goes on from it.
    constructor
    · rintro (h | ⟨b₁, hb, h⟩)
      · exact ⟨[], a, l, b, rfl, rfl, h⟩
      · obtain ⟨before, a', after, b', rfl, hbefore, h⟩ := ih.mp h
        refine ⟨a :: before, a', after, b', rfl, ?_, h⟩
        rw [List.foldlM_cons, hb, ok_bind, hbefore]
    · rintro ⟨before, a', after, b', hl, hbefore, h⟩
      rcases before with _ | ⟨a₁, before⟩
      · obtain ⟨rfl, rfl⟩ := List.cons.inj hl
        obtain rfl : b = b' := Except.ok.inj hbefore
        exact .inl h
      · obtain ⟨rfl, rfl⟩ := List.cons.inj hl
        rw [List.foldlM_cons] at hbefore
        obtain ⟨b₁, hb, hbefore⟩ := bind_eq_ok_iff.mp hbefore
        exact .inr ⟨b₁, hb, ih.mpr ⟨before, a', after, b', rfl, hbefore, h⟩⟩

/-- What the rounds of a loop preserve, each for an entry of the list, is preserved by the loop. -/
theorem foldlM_preserves_of_mem {f : β → α → Except ε β} {motive : β → Prop} {b b' : β}
    {l : List α} (hstep : ∀ b, ∀ a ∈ l, ∀ b', motive b → f b a = .ok b' → motive b')
    (hb : motive b) (h : l.foldlM f b = .ok b') : motive b' := by
  induction l generalizing b with
  | nil =>
    obtain rfl := Except.ok.inj h
    exact hb
  | cons a l ih =>
    rw [List.foldlM_cons] at h
    obtain ⟨b₁, hb₁, h⟩ := bind_eq_ok_iff.mp h
    exact ih (fun b a ha => hstep b a (List.mem_cons_of_mem _ ha))
      (hstep b a List.mem_cons_self b₁ hb hb₁) h

/-- What every round of a loop preserves is preserved by the loop. -/
theorem foldlM_preserves {f : β → α → Except ε β} {motive : β → Prop} {b b' : β} {l : List α}
    (hstep : ∀ b a b', motive b → f b a = .ok b' → motive b') (hb : motive b)
    (h : l.foldlM f b = .ok b') : motive b' :=
  foldlM_preserves_of_mem (fun b a _ => hstep b a) hb h

/-- What is listed of a result. A fault lists nothing. -/
def listed (x : Except ε α) (f : α → List β) : List β :=
  match x with
  | .ok a => f a
  | .error _ => []

@[simp] theorem listed_ok {a : α} {f : α → List β} : listed (.ok a : Except ε α) f = f a := rfl

/-- What is listed of the rounds of a loop, one after the other, up to one that faults. -/
def listedRounds {γ : Type} (f : β → α → Except ε β) (g : β → α → List γ) : List α → β → List γ
  | [], _ => []
  | a :: l, b => g b a ++ listed (f b a) (listedRounds f g l)

/-- What is listed of the rounds leads where the loop does, if each round leads where its list
does. -/
theorem listedRounds_leads {γ : Type} {f : β → α → Except ε β} {g : β → α → List γ}
    {R : β → List γ → β → Prop} (hrefl : ∀ b, R b [] b)
    (happend : ∀ b b' b'' cs cs', R b cs b' → R b' cs' b'' → R b (cs ++ cs') b'')
    (hround : ∀ b a b', f b a = .ok b' → R b (g b a) b') {b b' : β} {l : List α}
    (h : l.foldlM f b = .ok b') : R b (listedRounds f g l b) b' := by
  induction l generalizing b with
  | nil =>
    obtain rfl := Except.ok.inj h
    exact hrefl b
  | cons a l ih =>
    rw [List.foldlM_cons] at h
    obtain ⟨b₁, hb₁, h⟩ := bind_eq_ok_iff.mp h
    rw [listedRounds, hb₁, listed_ok]
    exact happend _ _ _ _ _ (hround b a b₁ hb₁) (ih h)

/-- Two outcomes agree: both are results that are related, or both are the same fault. -/
inductive Agree {α β : Type} (R : α → β → Prop) : Except ε α → Except ε β → Prop
  | ok {a b} (h : R a b) : Agree R (.ok a) (.ok b)
  | error {e} : Agree R (.error e) (.error e)

/-- Two results with equal values and related states. -/
def SameWith {α β β' : Type} (R : β → β' → Prop) (a : α × β) (b : α × β') : Prop :=
  a.1 = b.1 ∧ R a.2 b.2

section Agree

variable {α' β' : Type} {R : α → α' → Prop} {S : β → β' → Prop}

/-- Two computations agree when their first parts do and their second parts do from there. -/
theorem Agree.bind {x : Except ε α} {x' : Except ε α'} {f : α → Except ε β}
    {f' : α' → Except ε β'} (h : Agree R x x') (hf : ∀ a a', R a a' → Agree S (f a) (f' a')) :
    Agree S (x >>= f) (x' >>= f') := by
  cases h with
  | ok h => exact hf _ _ h
  | error => exact .error

theorem Agree.imp {R' : α → α' → Prop} {x : Except ε α} {x' : Except ε α'} (h : Agree R x x')
    (hR : ∀ a a', R a a' → R' a a') : Agree R' x x' := by
  cases h with
  | ok h => exact .ok (hR _ _ h)
  | error => exact .error

/-- What is known of the results themselves can be added to what relates them. -/
theorem Agree.imp_ok {R' : α → α' → Prop} {x : Except ε α} {x' : Except ε α'} (h : Agree R x x')
    (hR : ∀ a a', x = .ok a → x' = .ok a' → R a a' → R' a a') : Agree R' x x' := by
  cases h with
  | ok h => exact .ok (hR _ _ rfl rfl h)
  | error => exact .error

/-- The same is listed of computations that agree, if it is of results that are related. -/
theorem Agree.listed_eq {γ : Type} {x : Except ε α} {x' : Except ε α'} {f : α → List γ}
    {f' : α' → List γ} (h : Agree R x x') (hf : ∀ a a', R a a' → f a = f' a') :
    listed x f = listed x' f' := by
  cases h with
  | ok h => exact hf _ _ h
  | error => rfl

/-- The same is made of computations that agree, if it is of results that are related. -/
theorem Agree.map_eq {x : Except ε α} {x' : Except ε α'} {f : α → β} {f' : α' → β}
    (h : Agree R x x') (hf : ∀ a a', R a a' → f a = f' a') : x.map f = x'.map f' := by
  cases h with
  | ok h => exact congrArg Except.ok (hf _ _ h)
  | error => rfl

/-- Two loops over the same list agree when their rounds do. -/
theorem Agree.foldlM {γ : Type} {f : α → γ → Except ε α} {f' : α' → γ → Except ε α'} {l : List γ}
    {a : α} {a' : α'} (ha : R a a')
    (hf : ∀ c a a', R a a' → Agree R (f a c) (f' a' c)) :
    Agree R (l.foldlM f a) (l.foldlM f' a') := by
  induction l generalizing a a' with
  | nil => exact .ok ha
  | cons c l ih =>
    rw [List.foldlM_cons, List.foldlM_cons]
    exact (hf c a a' ha).bind fun _ _ => ih

end Agree

section Hom

variable {α' β' : Type} {g : α → α'} {h : β → β'}

/-- A change of results passes through a computation when it passes through both parts. -/
theorem bind_hom {x : Except ε α} {x' : Except ε α'} {f : α → Except ε β} {f' : α' → Except ε β'}
    (hx : x' = g <$> x) (hf : ∀ a, f' (g a) = h <$> f a) : x' >>= f' = h <$> (x >>= f) := by
  rw [hx, bind_map_left, map_bind]
  simp only [hf]

/-- A change of states passes through a loop when it passes through each round. -/
theorem foldlM_hom {γ : Type} {f : α → γ → Except ε α} {f' : α' → γ → Except ε α'}
    (hf : ∀ a c, f' (g a) c = g <$> f a c) (l : List γ) (a : α) :
    l.foldlM f' (g a) = g <$> l.foldlM f a := by
  induction l generalizing a with
  | nil => rfl
  | cons c l ih => exact bind_hom (hf a c) ih

end Hom

end Outcome

namespace Draws

variable {ρ α β : Type}

theorem bind_ok_iff {x : Draws ρ α} {f : α → Draws ρ β} {s s'' : ρ} {b : β} :
    (x >>= f) s = (.ok b, s'') ↔ ∃ a s', x s = (.ok a, s') ∧ f a s' = (.ok b, s'') := by
  rw [bind_apply]
  rcases x s with ⟨e | a, s'⟩
  · simp
  · constructor
    · exact fun h => ⟨a, s', rfl, h⟩
    · rintro ⟨a', t, h, hf⟩
      obtain ⟨ha, rfl⟩ := Prod.mk.inj h
      obtain rfl := Except.ok.inj ha
      exact hf

/-- A computation faults in its first part or, when that has a result, in its second. -/
theorem bind_error_iff {x : Draws ρ α} {f : α → Draws ρ β} {s : ρ} {e : Fault} :
    ((x >>= f) s).1 = .error e ↔
      (x s).1 = .error e ∨ ∃ a s', x s = (.ok a, s') ∧ (f a s').1 = .error e := by
  rw [bind_apply]
  rcases x s with ⟨e' | a, s'⟩
  · simp
  · constructor
    · exact fun h => .inr ⟨a, s', rfl, h⟩
    · rintro (h | ⟨a', t, h, hf⟩)
      · cases h
      · obtain ⟨ha, rfl⟩ := Prod.mk.inj h
        obtain rfl := Except.ok.inj ha
        exact hf

/-- What is made of a value afterwards is made of the outcome. -/
theorem map_outcome {x : Draws ρ α} {g : α → β} {s : ρ} :
    ((do return g (← x) : Draws ρ β) s).1 = (x s).1.map g := by
  rw [bind_apply]
  rcases x s with ⟨e | a, s'⟩ <;> rfl

theorem map_error_iff {x : Draws ρ α} {g : α → β} {s : ρ} {e : Fault} :
    ((do return g (← x) : Draws ρ β) s).1 = .error e ↔ (x s).1 = .error e := by
  rw [bind_error_iff]
  simp

theorem map_ok_iff {x : Draws ρ α} {g : α → β} {s s' : ρ} {b : β} :
    (do return g (← x) : Draws ρ β) s = (.ok b, s') ↔ ∃ a, x s = (.ok a, s') ∧ g a = b := by
  rw [bind_ok_iff]
  simp

end Draws

end IdleGame
