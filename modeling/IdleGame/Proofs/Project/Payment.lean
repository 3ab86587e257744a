import IdleGame.Proofs.Project.Purchase
import IdleGame.Proofs.Table

/-!
# Bills

The costs of a project come to a bill: the amounts are found out one after the other, in the world
before the purchase. A resource that stands on it several times owes the sum, and pays it at once.

## Main definitions

* `Project.bill` - the resources of costs, with the amounts
* `Project.owed` - what a bill asks of a resource in all
* `Project.Checked`, `Project.Covered` - what is asked before a project is sold
* `Project.Refused` - why a project is not sold
* `Project.paid` - the world after a bill has been paid

## Main results

* `Uses.of_count_of_lt`, `Uses.of_count_of_eq` - a further use is counted up to the largest count
* `Project.addCosts_eq`, `Project.get?_addBill` - totals are what the bill asks
* `Project.pay_eq` - every resource of a bill pays once
* `Project.purchase_some_iff`, `Project.purchase_none_iff` - when a project is sold, and when it is
  refused
-/

namespace IdleGame

/-! ### Counts -/

namespace Uses

variable {uses : Uses} {id id' : String}

theorem of_insert (uses : Uses) (id id' : String) (n : Nat) :
    of (uses.insert id n) id' = if id = id' then n else uses.of id' := by
  unfold of
  rw [Table.get?_insert]
  split <;> rfl

/-- A use of one project leaves the counts of the others alone. -/
theorem of_count_of_ne (h : id' ≠ id) : (uses.count id).of id' = uses.of id' := by
  rw [count, of_insert, if_neg h.symm]

/-- Below the largest count a further use makes it grow by one. -/
theorem of_count_of_lt (h : uses.of id < maxCount) :
    (uses.count id).of id = uses.of id + 1 := by
  rw [count, of_insert, if_pos rfl]
  exact Nat.mod_eq_of_lt (Nat.succ_lt_succ h)

end Uses

namespace Project

variable {ρ : Type}

/-- What a bill asks of a resource: all its amounts, added up in order. -/
def owed (items : List (String × Float)) (resource : String) : Float :=
  (items.filter (·.1 = resource)).foldl (fun total item => total + item.2) 0.0

/-- Adds the amounts of a bill to totals by resource. -/
def addBill (totals : Table Float) (items : List (String × Float)) : Table Float :=
  items.foldl (fun totals item =>
    totals.insert item.1 ((totals.get? item.1).getD 0.0 + item.2)) totals

/-- Every resource on a bill covers what is asked of it. -/
def Covered (w : World ρ) (items : List (String × Float)) : Prop :=
  ∀ resource ∈ items.map Prod.fst, owed items resource ≤ w.number resource

/-- The world in which every resource on a bill has paid what was asked of it. -/
def paid (w : World ρ) (items : List (String × Float)) : World ρ :=
  { w with
    state := w.state.extend ((items.map Prod.fst).map fun resource =>
      (resource, .number (w.number resource - owed items resource))) }

variable {w : World ρ} {totals : Table Float} {items : List (String × Float)} {k : String}

/-! ### Totals -/

theorem keys_addBill :
    (addBill totals items).keys = (items.map Prod.fst).foldl Table.addKey totals.keys := by
  induction items generalizing totals with
  | nil => rfl
  | cons item items ih =>
    rw [addBill, List.foldl_cons, ← addBill, ih, Table.keys_insert]
    rfl

theorem get?_addBill :
    (addBill totals items).get? k =
      if k ∈ items.map Prod.fst then
        some ((items.filter (·.1 = k)).foldl (fun total item => total + item.2)
          ((totals.get? k).getD 0.0))
      else totals.get? k := by
  induction items generalizing totals with
  | nil => rfl
  | cons item items ih =>
    rw [addBill, List.foldl_cons, ← addBill, ih, Table.get?_insert]
    by_cases hk : item.1 = k
    -- The item goes into the total of its resource, from which the rest of the bill goes on.
    · subst hk
      rw [if_pos rfl, List.filter_cons_of_pos (by simp), List.foldl_cons, Option.getD_some]
      split
      · rw [if_pos (by simp)]
      · rename_i hrest
        have hnil : items.filter (·.1 = item.1) = [] := by
          rw [List.filter_eq_nil_iff]
          simp only [List.mem_map, not_exists, not_and] at hrest
          simpa using hrest
        simp [hnil]
    · have hmem : k ∈ (item :: items).map Prod.fst ↔ k ∈ items.map Prod.fst := by
        rw [List.map_cons, List.mem_cons, or_iff_right (Ne.symm hk)]
      rw [if_neg hk, List.filter_cons_of_neg (by simpa using hk)]
      simp only [hmem]

/-- A total is what the bill asks of its resource. -/
theorem get?_total :
    (addBill Table.empty items).get? k =
      if k ∈ items.map Prod.fst then some (owed items k) else none :=
  get?_addBill

theorem mem_entries_total {e : String × Float} (he : e ∈ (addBill Table.empty items).entries) :
    e.2 = owed items e.1 := by
  have hget := Table.get?_eq_some_iff.mpr he
  rw [get?_total] at hget
  split at hget
  · exact (Option.some.inj hget).symm
  · cases hget

theorem mem_keys_total : k ∈ (addBill Table.empty items).keys ↔ k ∈ items.map Prod.fst := by
  rw [keys_addBill, Table.mem_foldl_addKey]
  exact or_iff_right List.not_mem_nil

/-- All totals are covered when every resource covers what is asked of it. -/
theorem covers_iff : covers w (addBill Table.empty items) ↔ Covered w items := by
  rw [covers, List.all_eq_true]
  simp only [decide_eq_true_eq, Covered, ← mem_keys_total]
  rw [Table.keys, List.forall_mem_map]
  exact forall₂_congr fun e he => by rw [mem_entries_total he]

/-! ### Paying -/

theorem number_write_of_ne {v : Value} {k' : String} (h : k' ≠ k) :
    (w.write k v).number k' = w.number k' := by
  rw [World.number, World.write, Table.get?_insert, if_neg h.symm]
  rfl

/-- Payments from different resources do not see each other. -/
theorem foldl_pay_eq {es : List (String × Float)} (h : (es.map Prod.fst).Nodup) :
    es.foldl (fun w e => w.write e.1 (.number (w.number e.1 - e.2))) w =
      { w with state := w.state.extend (es.map fun e => (e.1, .number (w.number e.1 - e.2))) } := by
  induction es generalizing w with
  | nil => rfl
  | cons e es ih =>
    rw [List.map_cons, List.nodup_cons] at h
    rw [List.foldl_cons, ih h.2, List.map_cons, Table.extend_cons]
    -- The first payment is from a resource that none of the others reads.
    have hrest : es.map (fun e' => (e'.1, Value.number
          ((w.write e.1 (.number (w.number e.1 - e.2))).number e'.1 - e'.2))) =
        es.map fun e' => (e'.1, Value.number (w.number e'.1 - e'.2)) := by
      refine List.map_congr_left fun e' he' => ?_
      have hne : e'.1 ≠ e.1 := fun heq => h.1 (heq ▸ List.mem_map_of_mem he')
      rw [number_write_of_ne hne]
    rw [hrest]
    rfl

/-- Every resource of a bill pays once what is asked of it in all. -/
theorem pay_eq : pay w (addBill Table.empty items) = paid w items := by
  change (addBill Table.empty items).entries.foldl
    (fun w e => w.write e.1 (.number (w.number e.1 - e.2))) w = _
  rw [foldl_pay_eq (addBill Table.empty items).distinct, paid]
  congr 1
  have hentries : (addBill Table.empty items).entries.map
        (fun e => (e.1, Value.number (w.number e.1 - e.2))) =
      (addBill Table.empty items).keys.map fun k =>
        (k, Value.number (w.number k - owed items k)) := by
    rw [Table.keys, List.map_map]
    exact List.map_congr_left fun e he => by rw [mem_entries_total he]; rfl
  rw [hentries]
  -- The totals name each resource once and the bill may several times, in the same order.
  refine Table.ext_get? ?_ fun k => ?_
  · rw [Table.keys_extend_eq_foldl, Table.keys_extend_eq_foldl, List.map_map, List.map_map]
    simp only [Function.comp_def, List.map_id', keys_addBill]
    exact Table.foldl_addKey_foldl
  · rw [Table.get?_extend_map, Table.get?_extend_map]
    simp only [mem_keys_total]

theorem get?_paid :
    (paid w items).state.get? k =
      if k ∈ items.map Prod.fst then some (.number (w.number k - owed items k))
      else w.state.get? k := by
  rw [paid]
  exact Table.get?_extend_map fun resource => Value.number (w.number resource - owed items resource)

/-! ### Checks and sales -/

variable [RandomSource ρ]

/-- The resources of costs with the amounts, which are found out one after the other. -/
def bill (view : View) : List Cost → Draws ρ (List (String × Float))
  | [] => pure []
  | c :: cs => do
    let amount ← c.amount.toNumber view
    let rest ← bill view cs
    return (c.resource, amount) :: rest

/-- What is found out before a project is sold, each draw after the one before: the project is not
used up, its trigger holds, and its costs come to a bill. -/
structure Checked (p : Project) (params : Values) (uses : Uses) (w : World ρ)
    (items : List (String × Float)) (r : ρ) : Prop where
  unused : ∀ limit, p.limit? = some limit → uses.of p.id < limit
  draws : ∃ r₁, p.trigger.test (w.view params none) w.random = (.ok true, r₁) ∧
    bill (w.view params none) p.costs r₁ = (.ok items, r)

/-- Why a project is not sold: it is used up, or else its trigger does not hold, or else its bill is
not covered. -/
inductive Refused (p : Project) (params : Values) (uses : Uses) (w : World ρ) : Prop
  | usedUp {limit} (hlimit : p.limit? = some limit) (h : limit ≤ uses.of p.id)
  | locked {r} (hunused : ∀ limit, p.limit? = some limit → uses.of p.id < limit)
    (h : p.trigger.test (w.view params none) w.random = (.ok false, r))
  | unaffordable {items r} (hchecked : p.Checked params uses w items r) (h : ¬ Covered w items)

variable {p : Project} {env : Surroundings} {params : Values} {uses uses' : Uses} {view : View}
  {s s' : Scope ρ} {r r' : ρ} {totals' : Table Float} {costs : List Cost}

/-- Totals are made from the bill. -/
theorem addCosts_eq :
    addCosts view costs totals r =
      match bill view costs r with
      | (.ok items, r') => (.ok (addBill totals items), r')
      | (.error e, r') => (.error e, r') := by
  induction costs generalizing totals r with
  | nil => rfl
  | cons c cs ih =>
    rw [addCosts, bill, Draws.bind_apply, Draws.bind_apply]
    rcases c.amount.toNumber view r with ⟨e | amount, r₁⟩
    · rfl
    · simp only [ih, Draws.bind_apply]
      rcases bill view cs r₁ with ⟨e | items, r₂⟩ <;> rfl

theorem addCosts_ok_iff :
    addCosts view costs totals r = (.ok totals', r') ↔
      ∃ items, bill view costs r = (.ok items, r') ∧ addBill totals items = totals' := by
  rw [addCosts_eq]
  rcases bill view costs r with ⟨e | items, r₁⟩ <;> simp [and_assoc, and_comm]

theorem isExhausted_iff :
    p.isExhausted (uses.of p.id) ↔ ∃ limit, p.limit? = some limit ∧ limit ≤ uses.of p.id := by
  unfold isExhausted
  rcases p.limit? with _ | limit <;> simp

theorem not_isExhausted_iff :
    ¬ p.isExhausted (uses.of p.id) ↔ ∀ limit, p.limit? = some limit → uses.of p.id < limit := by
  rw [isExhausted_iff]
  simp

theorem isAvailable_eq (h : ∀ limit, p.limit? = some limit → uses.of p.id < limit) :
    (p.isAvailable uses view : Draws ρ Bool) = p.trigger.test view :=
  if_neg (not_isExhausted_iff.mpr h)

/-- A project is available when it is not used up and its trigger holds. -/
theorem isAvailable_true_iff :
    p.isAvailable uses view r = (.ok true, r') ↔
      (∀ limit, p.limit? = some limit → uses.of p.id < limit) ∧
        p.trigger.test view r = (.ok true, r') := by
  rw [← not_isExhausted_iff, isAvailable]
  split <;> simp_all

theorem checked_iff :
    p.Checked params uses w items r ↔
      ∃ r₁, p.isAvailable uses (w.view params none) w.random = (.ok true, r₁) ∧
        bill (w.view params none) p.costs r₁ = (.ok items, r) := by
  simp only [isAvailable_true_iff]
  constructor
  · rintro ⟨hunused, r₁, htrigger, hbill⟩
    exact ⟨r₁, ⟨hunused, htrigger⟩, hbill⟩
  · rintro ⟨r₁, ⟨hunused, htrigger⟩, hbill⟩
    exact ⟨hunused, r₁, htrigger, hbill⟩

/-- There is a price when the checks come to a bill that is covered. -/
theorem price?_ok_iff {price : Option (Table Float)} :
    p.price? params uses w w.random = (.ok price, r) ↔
      (p.isAvailable uses (w.view params none) w.random = (.ok false, r) ∧ price = none) ∨
        ∃ items, p.Checked params uses w items r ∧
          price = if covers w (addBill Table.empty items) then some (addBill Table.empty items)
            else none := by
  simp only [price?, Draws.bind_ok_iff, checked_iff]
  constructor
  · rintro ⟨available, r₁, havailable, h⟩
    cases available with
    | false =>
      obtain ⟨hprice, rfl⟩ := Prod.mk.inj h
      exact .inl ⟨havailable, (Except.ok.inj hprice).symm⟩
    | true =>
      obtain ⟨totals, htotals, hprice⟩ := Draws.map_ok_iff.mp h
      obtain ⟨items, hbill, rfl⟩ := addCosts_ok_iff.mp htotals
      exact .inr ⟨items, ⟨r₁, havailable, hbill⟩, hprice.symm⟩
  · rintro (⟨havailable, rfl⟩ | ⟨items, ⟨r₁, havailable, hbill⟩, rfl⟩)
    · exact ⟨false, r, havailable, rfl⟩
    · refine ⟨true, r₁, havailable, ?_⟩
      exact Draws.map_ok_iff.mpr ⟨_, addCosts_ok_iff.mpr ⟨items, hbill, rfl⟩, rfl⟩

theorem price?_some_iff :
    p.price? params uses w w.random = (.ok (some totals), r) ↔
      ∃ items, p.Checked params uses w items r ∧ Covered w items ∧
        totals = addBill Table.empty items := by
  rw [price?_ok_iff]
  constructor
  · rintro (⟨-, hnone⟩ | ⟨items, hchecked, hprice⟩)
    · cases hnone
    · split at hprice
      · rename_i hcovers
        exact ⟨items, hchecked, covers_iff.mp hcovers, Option.some.inj hprice⟩
      · cases hprice
  · rintro ⟨items, hchecked, hcovered, rfl⟩
    exact .inr ⟨items, hchecked, by rw [if_pos (covers_iff.mpr hcovered)]⟩

theorem price?_none_iff :
    (∃ r, p.price? params uses w w.random = (.ok none, r)) ↔ p.Refused params uses w := by
  constructor
  · rintro ⟨r, h⟩
    rcases price?_ok_iff.mp h with ⟨havailable, -⟩ | ⟨items, hchecked, hprice⟩
    · rw [isAvailable] at havailable
      split at havailable
      · rename_i hexhausted
        obtain ⟨limit, hlimit, hle⟩ := isExhausted_iff.mp hexhausted
        exact .usedUp hlimit hle
      · rename_i hunused
        exact .locked (not_isExhausted_iff.mp hunused) havailable
    · refine .unaffordable hchecked fun hcovered => ?_
      rw [if_pos (covers_iff.mpr hcovered)] at hprice
      cases hprice
  · rintro (⟨hlimit, hle⟩ | ⟨hunused, htrigger⟩ | ⟨hchecked, hcovered⟩)
    · refine ⟨w.random, price?_ok_iff.mpr (.inl ⟨?_, rfl⟩)⟩
      rw [isAvailable, if_pos (isExhausted_iff.mpr ⟨_, hlimit, hle⟩)]
      rfl
    · rw [← isAvailable_eq hunused] at htrigger
      exact ⟨_, price?_ok_iff.mpr (.inl ⟨htrigger, rfl⟩)⟩
    · refine ⟨_, price?_ok_iff.mpr (.inr ⟨_, hchecked, ?_⟩)⟩
      rw [if_neg (mt covers_iff.mp hcovered)]

/-- A project is sold when its checks come to a bill that is covered. Then the bill is paid, the
effects run to the end, and the sale is counted. -/
theorem purchase_some_iff :
    p.purchase env uses s = .ok (some (uses', s')) ↔
      ∃ items r, p.Checked env.params uses s.world items r ∧ Covered s.world items ∧
        Action.runAll env none p.effects
          { s with world := { paid s.world items with random := r } } = .ok s' ∧
        uses' = uses.count p.id := by
  constructor
  · intro h
    rcases purchase_cases h with ⟨w, -, hnone⟩ | ⟨totals, w, s₁, hprice, hrun, hsold⟩
    · cases hnone
    · obtain ⟨rfl, rfl⟩ := Prod.mk.inj (Option.some.inj hsold)
      obtain ⟨r, hdraw, rfl⟩ := World.draw_eq_ok_iff.mp hprice
      obtain ⟨items, hchecked, hcovered, rfl⟩ := price?_some_iff.mp hdraw
      rw [pay_eq] at hrun
      exact ⟨items, r, hchecked, hcovered, hrun, rfl⟩
  · rintro ⟨items, r, hchecked, hcovered, hrun, rfl⟩
    have hdraw := price?_some_iff.mpr ⟨items, hchecked, hcovered, rfl⟩
    have hpaid : pay { s.world with random := r } (addBill Table.empty items) =
        { paid s.world items with random := r } := pay_eq
    rw [purchase, World.draw_eq_ok_iff.mpr ⟨r, hdraw, rfl⟩, Outcome.ok_bind]
    dsimp only
    rw [hpaid, hrun]
    rfl

/-- A purchase is refused when the project is used up, when its trigger does not hold, or when its
checks come to a bill that is not covered. -/
theorem purchase_none_iff :
    p.purchase env uses s = .ok none ↔ p.Refused env.params uses s.world := by
  rw [← price?_none_iff]
  constructor
  · intro h
    rcases purchase_cases h with ⟨w, hprice, -⟩ | ⟨_, _, _, -, -, hsold⟩
    · obtain ⟨r, hdraw, -⟩ := World.draw_eq_ok_iff.mp hprice
      exact ⟨r, hdraw⟩
    · cases hsold
  · rintro ⟨r, hdraw⟩
    rw [purchase, World.draw_eq_ok_iff.mpr ⟨r, hdraw, rfl⟩]
    rfl

end Project

end IdleGame
