import SweetCrust.StoreOps.Allocation
import SweetCrust.StoreOps.Invoices

/-!
# A collection in two parts

`credit_payment` writes the balance, spreads the amount over the unpaid orders, and issues an
invoice for each order that got some of it.  Collecting an amount in two parts comes to the
same: the second part finds the orders as the first one left them, and goes on where it ended.

The amounts are floats.  A collection may be a paisa above what is owed, and there the comparison
depends on the digits of the balance: the second part may be refused where the whole was not.

* `openOrders_collected` — the orders that are left for the second part.
* `orders_twice`, `payments_twice` — the orders and the payments after both.
* `invoiced_issueAllocated` — which orders have an invoice afterwards.
* `collect` — a collection, with its invoices.
* `le_of_not_exceeds`, `not_exceeds_of_le` — the guard, but for the last paisa.
* `collect_add_iff` — when the two parts are accepted and end where the whole does.
-/

namespace SweetCrust

open Tabular Guard Rounding Spread Allocation Invoices Binary64

namespace Instalments

/-! ## Sorting some of the rows -/

section Sorting

variable {α : Type} {r : α → α → Prop} [DecidableRel r] [IsTrans α r]

theorem filter_orderedInsert (p : α → Bool) (a : α) {l : List α} (hl : l.Pairwise r) :
    (l.orderedInsert r a).filter p =
      if p a then (l.filter p).orderedInsert r a else l.filter p := by
  induction l with
  | nil => cases h : p a <;> simp [h]
  | cons b l ih =>
    obtain ⟨hb, hrest⟩ := List.pairwise_cons.1 hl
    by_cases hab : r a b
    · have hall : ∀ c ∈ (b :: l).filter p, r a c := by
        intro c hc
        rcases List.mem_cons.1 (List.mem_of_mem_filter hc) with rfl | hc
        · exact hab
        · exact IsTrans.trans _ _ _ hab (hb c hc)
      rw [List.orderedInsert_cons_of_le _ _ hab, List.filter_cons]
      split_ifs
      · cases hlist : (b :: l).filter p with
        | nil => rfl
        | cons c m =>
          rw [hlist] at hall
          rw [List.orderedInsert_cons_of_le _ _ (hall c (List.mem_cons_self ..))]
      · rfl
    · rw [List.orderedInsert_of_not_le _ _ hab, List.filter_cons, ih hrest]
      cases hpb : p b with
      | false => simp [hpb]
      | true =>
        cases hpa : p a with
        | false => simp [hpb]
        | true => simp [hpb, List.orderedInsert_of_not_le _ _ hab]

/-- Leaving out some of the rows does not change the order of the others. -/
theorem filter_insertionSort [Std.Total r] (p : α → Bool) (l : List α) :
    (l.insertionSort r).filter p = (l.filter p).insertionSort r := by
  induction l with
  | nil => rfl
  | cons a l ih =>
    rw [List.insertionSort_cons, filter_orderedInsert p a (List.pairwise_insertionSort r l), ih]
    cases h : p a with
    | true => rw [if_pos rfl, List.filter_cons_of_pos h, List.insertionSort_cons]
    | false => simp [h]

end Sorting

/-! ## The orders that are left -/

section Left

variable {db t : Db} {u : ℕ} {a b : ℚ}

/-- The row of an order once it has taken its share. -/
def after (x : Taking) : ℕ × Order := (x.1.1, if 0 < x.2 then receive x x.1.2 else x.1.2)

theorem after_zero (r : ℕ × Order) : after (r, 0) = r := by
  simp [after]

theorem rowDue_after {x : Taking} (h : 0 ≤ x.2) : rowDue (after x) = rowDue x.1 - x.2 := by
  unfold rowDue after
  split_ifs with hpos
  · show x.1.2.finalAmount - (x.1.2.paidAmount + x.2) = x.1.2.finalAmount - x.1.2.paidAmount - x.2
    ring
  · rw [le_antisymm (not_lt.1 hpos) h, sub_zero]

/-- What an order takes in two parts, it takes at once. -/
theorem after_twice {x : Taking} (h : 0 ≤ x.2) {y : ℚ} (hy : 0 ≤ y) :
    after (after x, y) = after (x.1, x.2 + y) := by
  rcases hy.lt_or_eq with hpos | rfl
  · have hsum : 0 < x.2 + y := add_pos_of_nonneg_of_pos h hpos
    unfold after
    dsimp only
    rw [if_pos hpos, if_pos hsum]
    split_ifs with hx
    · simp only [receive, add_assoc]
    · rw [le_antisymm (not_lt.1 hx) h, zero_add]
  · rw [after_zero, add_zero]

/-- An order that is not open any more is due nothing. -/
theorem rowDue_of_closed {x : Taking} (hopen : looksAt u x.1.2 = true)
    (hclosed : looksAt u (after x).2 = false) : rowDue (after x) ≤ 0 := by
  unfold rowDue after at *
  dsimp only at *
  split_ifs at hclosed ⊢ with hpos
  · by_cases hfull : x.1.2.finalAmount ≤ x.1.2.paidAmount + x.2
    · exact sub_nonpos.2 hfull
    · simp only [looksAt, decide_eq_true_eq] at hopen
      simp [looksAt, receive, hfull, hopen.1, hopen.2.1] at hclosed
  · rw [hopen] at hclosed
    cases hclosed

/-- The orders are the same ones. -/
theorem collected_eq_mapRows (u : ℕ) (a : ℚ) (db : Db) :
    ∃ g, collected u a db = db.orders.mapRows g :=
  Table.exists_mapRows (fun x : Taking => x.1.1) receive _ db.orders

theorem isSome_get?_collected (k : ℕ) :
    ((collected u a db).get? k).isSome = (db.orders.get? k).isSome := by
  obtain ⟨g, hg⟩ := collected_eq_mapRows u a db
  rw [hg, Table.get?_mapRows, Option.isSome_map]

/-- The orders that the second part finds. -/
theorem openOrders_collected (ht : t.orders = collected u a db) : Credit.openOrders t u =
    ((spread rowDue a (Credit.openOrders db u)).map after).filter fun r => looksAt u r.2 := by
  obtain ⟨g, hcollected⟩ := collected_eq_mapRows u a db
  let f : ℕ × Order → ℕ × Order := fun r => (r.1, g r.1 r.2)
  have hget {k : ℕ} {o : Order} (ho : db.orders.get? k = some o) :
      (collected u a db).get? k = some (g k o) := by
    rw [hcollected, Table.get?_mapRows, ho, Option.map_some]
  -- An order that is open after the first part was open before it.
  have hwas : ∀ r ∈ db.orders.rows, looksAt u (f r).2 = true → looksAt u r.2 = true := by
    intro r hr hopen
    by_contra hnot
    have hrow := Table.get?_eq_some.2 hr
    have hsame : (collected u a db).get? r.1 = some r.2 :=
      get?_collected_of_not hrow (Bool.eq_false_of_not_eq_true hnot)
    rw [hget hrow] at hsame
    rw [show (f r).2 = r.2 from Option.some.inj hsame] at hopen
    exact hnot hopen
  have hcreated : ∀ r ∈ db.orders.rows, (f r).2.createdAt = r.2.createdAt := by
    intro r hr
    rcases collected_cases (hget (Table.get?_eq_some.2 hr)) with hsame | ⟨x, hx, hkey, heq⟩
    · rw [Table.get?_eq_some.2 hr] at hsame
      rw [show (f r).2 = r.2 from (Option.some.inj hsame).symm]
    · have hrow := row_of_mem_takings hx
      rw [hkey, Table.get?_eq_some.2 hr] at hrow
      rw [show (f r).2 = receive x x.1.2 from heq, Option.some.inj hrow]
      rfl
  have hafter : (Credit.openOrders db u).map f =
      (spread rowDue a (Credit.openOrders db u)).map after := by
    conv_lhs => rw [← map_fst_spread rowDue a (Credit.openOrders db u), List.map_map]
    refine List.map_congr_left fun x hx => ?_
    have hrow := (mem_openOrders (fst_mem_of_mem_spread hx)).1
    have heq := get?_collected hx
    rw [hget hrow] at heq
    exact Prod.ext rfl (Option.some.inj heq)
  have hselect : t.orders.select (looksAt u) =
      ((db.orders.select (looksAt u)).filter fun r => looksAt u (f r).2).map f := by
    unfold Table.select
    rw [ht, hcollected, Table.rows_mapRows, List.filter_map, List.filter_filter]
    refine congrArg (List.map f) (List.filter_congr fun r hr => ?_)
    show looksAt u (f r).2 = (looksAt u (f r).2 && looksAt u r.2)
    cases hopen : looksAt u (f r).2 with
    | false => rw [Bool.false_and]
    | true => rw [hwas r hr hopen, Bool.true_and]
  have hsort : ((db.orders.select (looksAt u)).map f).insertionSort
      (fun x y => x.2.createdAt ≤ y.2.createdAt) = (Credit.openOrders db u).map f := by
    refine (List.map_insertionSort _ _ f _ fun x hx y hy => ?_).symm
    rw [hcreated x (List.mem_of_mem_filter hx), hcreated y (List.mem_of_mem_filter hy)]
  show (t.orders.select (looksAt u)).insertionSort _ = _
  rw [hselect, ← hafter, ← hsort, filter_insertionSort, List.filter_map]
  rfl

/-- Every order ends where the whole amount takes it. -/
theorem get?_twice (ha : 0 ≤ a) (hb : 0 ≤ b) (ht : t.orders = collected u a db) (k : ℕ) :
    (collected u b t).get? k = (collected u (a + b) db).get? k := by
  cases ho : db.orders.get? k with
  | none =>
    have hnone : ∀ c, ((collected u c db).get? k).isSome = false := by
      intro c
      rw [isSome_get?_collected, ho]
      rfl
    have htwice : ((collected u b t).get? k).isSome = false := by
      rw [isSome_get?_collected, ht, hnone]
    rw [Option.isSome_eq_false_iff, Option.isNone_iff_eq_none] at htwice
    rw [htwice, Option.isNone_iff_eq_none.1 (Option.isSome_eq_false_iff.1 (hnone (a + b)))]
  | some o =>
    cases hopen : looksAt u o with
    | false =>
      have hfirst : t.orders.get? k = some o := by
        rw [ht]
        exact get?_collected_of_not ho hopen
      rw [get?_collected_of_not hfirst hopen, get?_collected_of_not ho hopen]
    | true =>
      obtain ⟨x, hx, hrow⟩ : ∃ x ∈ spread rowDue a (Credit.openOrders db u), x.1 = (k, o) := by
        have hmem : (k, o) ∈ Credit.openOrders db u := mem_openOrders_iff.2 ⟨ho, hopen⟩
        rw [← map_fst_spread rowDue a (Credit.openOrders db u)] at hmem
        exact List.mem_map.1 hmem
      have hx0 : 0 ≤ x.2 := nonneg_of_mem_spread ha hx
      have hkey : x.1.1 = k := congrArg Prod.fst hrow
      have horder : x.1.2 = o := congrArg Prod.snd hrow
      have hfirst : t.orders.get? k = some (after x).2 := by
        rw [ht, ← hkey]
        exact get?_collected hx
      obtain ⟨y, hy, hwhole⟩ := mem_spread_add ha hb
        (fun x hx => rowDue_after (nonneg_of_mem_spread ha hx)) x hx
      have hy0 : 0 ≤ y := nonneg_of_mem_spread hb hy
      have hsum : (collected u (a + b) db).get? k = some (after (x.1, x.2 + y)).2 := by
        rw [← hkey]
        exact get?_collected hwhole
      rw [hsum, ← after_twice hx0 hy0]
      cases hstill : looksAt u (after x).2 with
      | true =>
        -- the second part finds the order again
        have hclosed : ∀ r ∈ (spread rowDue a (Credit.openOrders db u)).map after,
            looksAt u r.2 = false → rowDue r ≤ 0 := by
          intro r hr hnot
          obtain ⟨z, hz, rfl⟩ := List.mem_map.1 hr
          exact rowDue_of_closed (mem_openOrders_iff.1 (fst_mem_of_mem_spread hz)).2 hnot
        have hagain := mem_spread_filter hb hclosed hy hstill
        rw [← openOrders_collected ht] at hagain
        rw [← hkey]
        exact get?_collected hagain
      | false =>
        have hlooks : looksAt u x.1.2 = true := by rw [horder]; exact hopen
        have hdue := (le_due_of_mem_spread hy).trans_eq
          (max_eq_right (rowDue_of_closed hlooks hstill))
        obtain rfl : y = 0 := le_antisymm hdue hy0
        rw [get?_collected_of_not hfirst hstill]
        rfl

theorem orders_twice (ha : 0 ≤ a) (hb : 0 ≤ b) (ht : t.orders = collected u a db) :
    collected u b t = collected u (a + b) db := by
  refine Table.ext_get? ?_ ?_ (get?_twice ha hb ht)
  · rw [collected, Table.keys_modifyEach, ht, collected, Table.keys_modifyEach, collected,
      Table.keys_modifyEach]
  · rw [collected, Table.next_modifyEach, ht, collected, Table.next_modifyEach, collected,
      Table.next_modifyEach]

/-! ## The orders that get some of it -/

/-- More is paid of the order than it was. -/
def Gains (old new : Table Order) (k : ℕ) : Prop :=
  ∃ o o', old.get? k = some o ∧ new.get? k = some o' ∧ o.paidAmount < o'.paidAmount

/-- They are those that take something. -/
theorem mem_takings_iff_gains {k : ℕ} :
    k ∈ (takings rowDue a (Credit.openOrders db u)).map (fun x : Taking => x.1.1) ↔
      Gains db.orders (collected u a db) k := by
  constructor
  · intro hk
    obtain ⟨x, hx, rfl⟩ := List.mem_map.1 hk
    obtain ⟨hspread, hpos⟩ := mem_takings.1 hx
    refine ⟨_, _, row_of_mem_takings hx, get?_collected hspread, ?_⟩
    rw [if_pos hpos]
    exact lt_add_of_pos_right _ hpos
  · rintro ⟨o, o', ho, ho', hlt⟩
    rcases collected_cases ho' with hsame | ⟨x, hx, hkey, -⟩
    · rw [ho] at hsame
      cases hsame
      exact absurd hlt (lt_irrefl _)
    · exact List.mem_map.2 ⟨x, hx, hkey⟩

/-- Nothing else is written on an order, and nothing is taken back. -/
theorem collected_eq_or_gains {k : ℕ} {o o' : Order} (ho : db.orders.get? k = some o)
    (ho' : (collected u a db).get? k = some o') : o' = o ∨ o.paidAmount < o'.paidAmount := by
  rcases collected_cases ho' with hsame | ⟨x, hx, hkey, rfl⟩
  · rw [ho] at hsame
    exact Or.inl (Option.some.inj hsame).symm
  · have hrow := row_of_mem_takings hx
    rw [hkey, ho] at hrow
    rw [Option.some.inj hrow]
    exact Or.inr (lt_add_of_pos_right _ (mem_takings.1 hx).2)

/-- The orders that get something of the whole amount get some of one of its parts. -/
theorem gains_twice (ha : 0 ≤ a) (hb : 0 ≤ b) (ht : t.orders = collected u a db) {k : ℕ} :
    Gains db.orders (collected u (a + b) db) k ↔
      Gains db.orders t.orders k ∨ Gains t.orders (collected u b t) k := by
  rw [← orders_twice ha hb ht, ht]
  constructor
  · rintro ⟨o, o₂, ho, ho₂, hlt⟩
    obtain ⟨o₁, ho₁⟩ : ∃ o₁, (collected u a db).get? k = some o₁ := by
      rw [← Option.isSome_iff_exists, isSome_get?_collected, ho]
      rfl
    rcases collected_eq_or_gains ho ho₁ with rfl | hgain
    · exact Or.inr ⟨o₁, o₂, ho₁, ho₂, hlt⟩
    · exact Or.inl ⟨o, o₁, ho, ho₁, hgain⟩
  · rintro (⟨o, o₁, ho, ho₁, hlt⟩ | ⟨o₁, o₂, ho₁, ho₂, hlt⟩)
    · rw [← ht] at ho₁
      obtain ⟨o₂, ho₂⟩ : ∃ o₂, (collected u b t).get? k = some o₂ := by
        rw [← Option.isSome_iff_exists, isSome_get?_collected, ho₁]
        rfl
      rcases collected_eq_or_gains ho₁ ho₂ with rfl | hgain
      · exact ⟨o, o₂, ho, ho₂, hlt⟩
      · exact ⟨o, o₂, ho, ho₂, hlt.trans hgain⟩
    · obtain ⟨o, ho⟩ : ∃ o, db.orders.get? k = some o := by
        rw [← Option.isSome_iff_exists, ← isSome_get?_collected (u := u) (a := a), ho₁]
        rfl
      rcases collected_eq_or_gains ho ho₁ with rfl | hgain
      · exact ⟨o₁, o₂, ho, ho₂, hlt⟩
      · exact ⟨o, o₂, ho, ho₂, hgain.trans hlt⟩

/-! ## The payments -/

/-- The newest payment of each order that takes something, with the order. -/
def followers (db : Db) (xs : List Taking) : List ((ℕ × Payment) × Taking) :=
  xs.filterMap fun x => (latestPayment db x.1.1).map fun r => (r, x)

/-- The payments after a collection from the shop. -/
def paymentsCollected (u : ℕ) (a : ℚ) (db : Db) : Table Payment :=
  Table.modifyEach (fun y : (ℕ × Payment) × Taking => y.1.1) (fun y => settle y.2)
    (followers db (takings rowDue a (Credit.openOrders db u))) db.payments

theorem payments_foldl_writeApplied (xs : List Taking) (db t : Db) :
    ((xs.map (applied db)).foldl Credit.writeApplied t).payments =
      Table.modifyEach (fun y : (ℕ × Payment) × Taking => y.1.1) (fun y => settle y.2)
        (followers db xs) t.payments := by
  unfold followers
  induction xs generalizing t with
  | nil => rfl
  | cons x xs ih =>
    rw [List.map_cons, List.foldl_cons, ih]
    cases hp : latestPayment db x.1.1 with
    | none =>
      have hnone : (applied db x).paymentId = none := by rw [applied, hp]; rfl
      have hsame : (Credit.writeApplied t (applied db x)).payments = t.payments := by
        unfold Credit.writeApplied
        rw [hnone]
      rw [List.filterMap_cons_none (by rw [hp]; rfl), hsame]
    | some r =>
      have hsome : (applied db x).paymentId = some r.1 := by rw [applied, hp]; rfl
      have hwrite : (Credit.writeApplied t (applied db x)).payments =
          t.payments.modify r.1 (settle x) := by
        unfold Credit.writeApplied
        rw [hsome]
        rfl
      rw [List.filterMap_cons_some (b := (r, x)) (by rw [hp]; rfl), hwrite,
        Table.modifyEach_cons]

theorem mem_followers {xs : List Taking} {y : (ℕ × Payment) × Taking} :
    y ∈ followers db xs ↔ y.2 ∈ xs ∧ latestPayment db y.2.1.1 = some y.1 := by
  unfold followers
  rw [List.mem_filterMap]
  constructor
  · rintro ⟨x, hx, hy⟩
    obtain ⟨r, hr, rfl⟩ := Option.map_eq_some_iff.1 hy
    exact ⟨hx, hr⟩
  · rintro ⟨hx, hr⟩
    exact ⟨y.2, hx, by rw [hr]; rfl⟩

/-- No payment follows two orders. -/
theorem nodup_followers : ((followers db (takings rowDue a (Credit.openOrders db u))).map
    fun y => y.1.1).Nodup := by
  have hmap : (followers db (takings rowDue a (Credit.openOrders db u))).map (fun y => y.1.1) =
      ((takings rowDue a (Credit.openOrders db u)).map fun x : Taking => x.1.1).filterMap
        fun k => (latestPayment db k).map Prod.fst := by
    unfold followers
    rw [List.map_filterMap, List.filterMap_map]
    refine List.filterMap_congr fun x _ => ?_
    simp only [Function.comp_apply, Option.map_map]
    rfl
  rw [hmap]
  refine (nodup_takings (nodup_openOrders db u)).filterMap fun k k' i hk hk' => ?_
  obtain ⟨r, hr, rfl⟩ := Option.map_eq_some_iff.1 hk
  obtain ⟨r', hr', hsame⟩ := Option.map_eq_some_iff.1 hk'
  obtain ⟨hrow, horder⟩ := latestPayment_orderId hr
  obtain ⟨hrow', horder'⟩ := latestPayment_orderId hr'
  rw [hsame, hrow] at hrow'
  rw [← horder, ← horder', Option.some.inj hrow']

/-- The payment with what is paid of the order. -/
def follow (o : Order) (p : Payment) : Payment :=
  { p with amount := o.paidAmount, status := o.paymentStatus }

/-- The payment is the newest one of an order that gets something. -/
def Moves (db : Db) (new : Table Order) (i : ℕ) (p : Payment) : Prop :=
  latestPayment db p.orderId = some (i, p) ∧ Gains db.orders new p.orderId

theorem get?_paymentsCollected {i : ℕ} {p : Payment} {o : Order}
    (hmoves : Moves db (collected u a db) i p) (ho : (collected u a db).get? p.orderId = some o) :
    (paymentsCollected u a db).get? i = some (follow o p) := by
  obtain ⟨hlatest, hgains⟩ := hmoves
  obtain ⟨x, hx, hkey⟩ := List.mem_map.1 (mem_takings_iff_gains.2 hgains)
  obtain ⟨hspread, hpos⟩ := mem_takings.1 hx
  have hmem : ((i, p), x) ∈ followers db (takings rowDue a (Credit.openOrders db u)) :=
    mem_followers.2 ⟨hx, by rw [hkey]; exact hlatest⟩
  have hrow : ∀ y ∈ followers db (takings rowDue a (Credit.openOrders db u)),
      db.payments.get? y.1.1 = some y.1.2 := by
    intro y hy
    exact (Table.get?_of_last? (mem_followers.1 hy).2).1
  have hnew := get?_collected hspread
  rw [hkey, ho, if_pos hpos] at hnew
  rw [Option.some.inj hnew]
  exact Table.get?_modifyEach nodup_followers hrow hmem

theorem get?_paymentsCollected_of_not {i : ℕ} {p : Payment} (hp : db.payments.get? i = some p)
    (hnot : ¬ Moves db (collected u a db) i p) :
    (paymentsCollected u a db).get? i = some p := by
  rw [← hp]
  refine Table.get?_modifyEach_of_notMem fun hmem => ?_
  obtain ⟨⟨r, x⟩, hy, rfl⟩ := List.mem_map.1 hmem
  obtain ⟨hx, hlatest⟩ := mem_followers.1 hy
  obtain ⟨hrow, horder⟩ := latestPayment_orderId hlatest
  obtain rfl : p = r.2 := by
    rw [hp] at hrow
    exact Option.some.inj hrow
  refine hnot ⟨?_, ?_⟩
  · rw [horder]
    exact hlatest
  · rw [horder]
    exact mem_takings_iff_gains.1 (List.mem_map_of_mem hx)

theorem isSome_get?_paymentsCollected (i : ℕ) :
    ((paymentsCollected u a db).get? i).isSome = (db.payments.get? i).isSome := by
  obtain ⟨g, hg⟩ := Table.exists_mapRows (fun y : (ℕ × Payment) × Taking => y.1.1)
    (fun y => settle y.2) (followers db (takings rowDue a (Credit.openOrders db u))) db.payments
  rw [paymentsCollected, hg, Table.get?_mapRows, Option.isSome_map]

/-- The payment after the first part is still the payment of its order. -/
theorem exists_follow {i : ℕ} {p : Payment} (hp : db.payments.get? i = some p) :
    ∃ p', (paymentsCollected u a db).get? i = some p' ∧ p'.orderId = p.orderId ∧
      ∀ o, follow o p' = follow o p := by
  by_cases hmoves : Moves db (collected u a db) i p
  · obtain ⟨-, o, o', -, ho', -⟩ := id hmoves
    exact ⟨follow o' p, get?_paymentsCollected hmoves ho', rfl, fun _ => rfl⟩
  · exact ⟨p, get?_paymentsCollected_of_not hp hmoves, rfl, fun _ => rfl⟩

/-- The newest payment of an order stays the newest. -/
theorem latestPayment_collected (ht : t.payments = paymentsCollected u a db) (k : ℕ) :
    (latestPayment t k).map Prod.fst = (latestPayment db k).map Prod.fst := by
  have hsame : latestPayment t k = latestPayment (((takings rowDue a
      (Credit.openOrders db u)).map (applied db)).foldl Credit.writeApplied db) k := by
    unfold latestPayment
    rw [ht, payments_foldl_writeApplied]
    rfl
  obtain ⟨hout, hin⟩ := latestPayment_foldl_writeApplied (t := db)
    (takings rowDue a (Credit.openOrders db u)) (nodup_takings (nodup_openOrders db u))
    (fun _ _ => rfl) k
  rw [hsame]
  by_cases hk : k ∈ (takings rowDue a (Credit.openOrders db u)).map fun x : Taking => x.1.1
  · obtain ⟨x, hx, rfl⟩ := List.mem_map.1 hk
    rw [hin x hx rfl, Option.map_map]
    rfl
  · rw [hout hk]

/-- A payment that the second part moves is one that it would have moved before the first. -/
theorem moves_collected_iff (ht : t.payments = paymentsCollected u a db) {new : Table Order}
    {i : ℕ} {p p' : Payment} (hp : db.payments.get? i = some p) (hp' : t.payments.get? i = some p')
    (horder : p'.orderId = p.orderId) :
    Moves t new i p' ↔ latestPayment db p.orderId = some (i, p) ∧ Gains t.orders new p.orderId := by
  have hids := latestPayment_collected ht p.orderId
  have hlatest : latestPayment t p.orderId = some (i, p') ↔
      latestPayment db p.orderId = some (i, p) := by
    constructor
    · intro h
      rw [h] at hids
      obtain ⟨⟨j, q⟩, hq, rfl⟩ := Option.map_eq_some_iff.1 hids.symm
      have hrow := (latestPayment_orderId hq).1
      rw [hp] at hrow
      rw [hq, Option.some.inj hrow]
    · intro h
      rw [h] at hids
      obtain ⟨⟨j, q⟩, hq, rfl⟩ := Option.map_eq_some_iff.1 hids
      have hrow := (latestPayment_orderId hq).1
      rw [hp'] at hrow
      rw [hq, Option.some.inj hrow]
  unfold Moves
  rw [horder, hlatest]

theorem get?_payments_twice (ha : 0 ≤ a) (hb : 0 ≤ b) (horders : t.orders = collected u a db)
    (hpayments : t.payments = paymentsCollected u a db) (i : ℕ) :
    (paymentsCollected u b t).get? i = (paymentsCollected u (a + b) db).get? i := by
  cases hp : db.payments.get? i with
  | none =>
    have hnone : ((paymentsCollected u (a + b) db).get? i).isSome = false := by
      rw [isSome_get?_paymentsCollected, hp]
      rfl
    have htwice : ((paymentsCollected u b t).get? i).isSome = false := by
      rw [isSome_get?_paymentsCollected, hpayments, isSome_get?_paymentsCollected, hp]
      rfl
    rw [Option.isSome_eq_false_iff, Option.isNone_iff_eq_none] at hnone htwice
    rw [hnone, htwice]
  | some p =>
    obtain ⟨p', hp', horder, hfollow⟩ := exists_follow (u := u) (a := a) hp
    rw [← hpayments] at hp'
    have hstep {new : Table Order} : Moves t new i p' ↔
        latestPayment db p.orderId = some (i, p) ∧ Gains t.orders new p.orderId :=
      moves_collected_iff hpayments hp hp' horder
    have htwice := gains_twice ha hb horders (k := p.orderId)
    by_cases hwhole : Moves db (collected u (a + b) db) i p
    · obtain ⟨hlatest, hgains⟩ := id hwhole
      obtain ⟨o, o', -, ho', -⟩ := id hgains
      rw [get?_paymentsCollected hwhole ho']
      by_cases hsecond : Gains t.orders (collected u b t) p.orderId
      · rw [← hfollow]
        refine get?_paymentsCollected (hstep.2 ⟨hlatest, hsecond⟩) ?_
        rw [horder, orders_twice ha hb horders, ho']
      · -- the order took all of it in the first part
        have hfirst := (htwice.1 hgains).resolve_right hsecond
        obtain ⟨-, o₁, -, ho₁, -⟩ := id hfirst
        have hlast := ho'
        rw [← orders_twice ha hb horders] at hlast
        obtain rfl : o' = o₁ := (collected_eq_or_gains ho₁ hlast).resolve_right fun hlt =>
          hsecond ⟨o₁, o', ho₁, hlast, hlt⟩
        rw [horders] at hfirst ho₁
        have hwas := hp'
        rw [hpayments, get?_paymentsCollected ⟨hlatest, hfirst⟩ ho₁] at hwas
        rw [hwas]
        exact get?_paymentsCollected_of_not hp' fun h => hsecond (hstep.1 h).2
    · have hnot : ∀ h : latestPayment db p.orderId = some (i, p),
          ¬ Gains db.orders (collected u (a + b) db) p.orderId := fun hlatest hgains =>
        hwhole ⟨hlatest, hgains⟩
      have hfirst : ¬ Moves db (collected u a db) i p := fun h =>
        hnot h.1 (htwice.2 (Or.inl (horders ▸ h.2)))
      have hsecond : ¬ Moves t (collected u b t) i p' := fun h =>
        hnot (hstep.1 h).1 (htwice.2 (Or.inr (hstep.1 h).2))
      rw [get?_paymentsCollected_of_not hp hwhole, get?_paymentsCollected_of_not hp' hsecond,
        ← hp', hpayments, get?_paymentsCollected_of_not hp hfirst]

theorem payments_twice (ha : 0 ≤ a) (hb : 0 ≤ b) (horders : t.orders = collected u a db)
    (hpayments : t.payments = paymentsCollected u a db) :
    paymentsCollected u b t = paymentsCollected u (a + b) db := by
  refine Table.ext_get? ?_ ?_ (get?_payments_twice ha hb horders hpayments)
  · rw [paymentsCollected, Table.keys_modifyEach, hpayments, paymentsCollected,
      Table.keys_modifyEach, paymentsCollected, Table.keys_modifyEach]
  · rw [paymentsCollected, Table.next_modifyEach, hpayments, paymentsCollected,
      Table.next_modifyEach, paymentsCollected, Table.next_modifyEach]

end Left

/-! ## The invoices -/

/-- The invoices that `credit_payment` issues after its commit. -/
def issueAllocated (allocated : List ℕ) (db : Db) : Db :=
  allocated.foldl (fun db orderId =>
    match db.orders.get? orderId with
    | some order => issueFromOrder db orderId order
    | none => db) db

/-- `credit_payment`, with its commit and the invoices that follow it. -/
def collect (userId : ℕ) (amount : ℚ) (note method : Option String)
    (createdBy paymentId : Option ℕ) (db : Db) : Except AppError Db := do
  let write ← Credit.creditPaymentIn fl userId amount note method createdBy paymentId db
  let allocated := Credit.allocateCollectionToOrdersIn fl db userId (round2 (fl amount))
  return issueAllocated (allocated.map Credit.Applied.orderId) (write db)

section Issuing

variable {db : Db} {ids : List ℕ} {kind : String} {j : ℕ}

theorem issueAllocated_rest (ids : List ℕ) (db : Db) :
    issueAllocated ids db = { db with invoices := (issueAllocated ids db).invoices } := by
  unfold issueAllocated
  induction ids generalizing db with
  | nil => rfl
  | cons k ids ih =>
    rw [List.foldl_cons]
    cases hk : db.orders.get? k with
    | none => exact ih db
    | some o =>
      dsimp only
      rw [ih, issueFromOrder_rest db k o]

/-- An invoice is issued for each of the orders whose reference is free. -/
theorem invoiced_issueAllocated
    (hids : ∀ k ∈ ids, ∃ o, db.orders.get? k = some o ∧ kindOf o = kind) :
    Invoiced (issueAllocated ids db) j ↔ Invoiced db j ∨ j ∈ ids ∧ ¬ Referred db kind j := by
  induction ids generalizing db with
  | nil => simp [issueAllocated]
  | cons k ids ih =>
    obtain ⟨o, ho, rfl⟩ := hids k (List.mem_cons_self ..)
    have hone : issueAllocated (k :: ids) db = issueAllocated ids (issueFromOrder db k o) := by
      unfold issueAllocated
      rw [List.foldl_cons, ho]
    have hrest : ∀ i ∈ ids, ∃ o', (issueFromOrder db k o).orders.get? i = some o' ∧
        kindOf o' = kindOf o := by
      rw [issueFromOrder_rest]
      exact fun i hi => hids i (List.mem_cons_of_mem k hi)
    rw [hone, ih hrest, invoiced_issueFromOrder, List.mem_cons]
    by_cases hj : j = k
    · subst hj
      have hkeep : Referred db (kindOf o) j →
          Referred (issueFromOrder db j o) (kindOf o) j := Referred.issueFromOrder
      tauto
    · rw [referred_issueFromOrder hj]
      tauto

/-- A reference is not made for another order. -/
theorem referred_issueAllocated (hj : j ∉ ids) :
    Referred (issueAllocated ids db) kind j ↔ Referred db kind j := by
  unfold issueAllocated
  induction ids generalizing db with
  | nil => exact Iff.rfl
  | cons k ids ih =>
    rw [List.mem_cons, not_or] at hj
    rw [List.foldl_cons, ih hj.2]
    cases db.orders.get? k with
    | none => exact Iff.rfl
    | some o => exact referred_issueFromOrder hj.1

theorem referred_issueAllocated_of (h : Referred db kind j) :
    Referred (issueAllocated ids db) kind j := by
  unfold issueAllocated
  induction ids generalizing db with
  | nil => exact h
  | cons k ids ih =>
    rw [List.foldl_cons]
    refine ih ?_
    cases db.orders.get? k with
    | none => exact h
    | some o => exact h.issueFromOrder

end Issuing

/-! ## A collection -/

section Collections

variable {db t t₁ t₂ : Db} {u i : ℕ} {a b : ℚ} {profile : RetailerProfile}
  {note method : Option String} {createdBy paymentId : Option ℕ}

/-- What the shop owes after a collection. -/
def left (profile : RetailerProfile) (amount : ℚ) : ℚ :=
  max 0 (profile.outstandingBalance - amount)

/-- `t` is what a collection of `a` makes of `db`. -/
structure Collected (u i : ℕ) (profile : RetailerProfile) (a : ℚ) (db t : Db) : Prop where
  profiles : t.profiles = db.profiles.modify i (Credit.setBalance (left profile a))
  orders : t.orders = collected u a db
  payments : t.payments = paymentsCollected u a db
  invoiced : ∀ k, Invoiced t k ↔
    Invoiced db k ∨ Gains db.orders t.orders k ∧ ¬ Referred db "b2b_wholesale" k
  referred : ∀ k, ¬ Gains db.orders t.orders k →
    (Referred t "b2b_wholesale" k ↔ Referred db "b2b_wholesale" k)
  kept : ∀ k, Referred db "b2b_wholesale" k → Referred t "b2b_wholesale" k

/-- The amounts of the shop's orders are whole paise, up to about a trillion. -/
def OrdersHeld (u : ℕ) (db : Db) : Prop :=
  ∀ k o, db.orders.get? k = some o → IsShopOrder u o → AmountsIn Held o

theorem writes_eq (hc : Held a) (ha : 0 < a) (h : OrdersHeld u db) :
    Credit.allocateCollectionToOrdersIn fl db u a =
      (takings rowDue a (Credit.openOrders db u)).map (applied db) := by
  unfold Credit.allocateCollectionToOrdersIn
  rw [hc.round2_fl]
  refine allocateFromIn_eq faithful_fl hc ha.le fun r hr => ?_
  obtain ⟨hget, hshop⟩ := mem_openOrders hr
  exact h r.1 r.2 hget hshop

/-- A collection goes through exactly when it is not above what is owed. -/
theorem collect_eq_ok (hc : Held a) (ha : 0 < a) (hprofile : profileOf db u = some (i, profile))
    (howed : Held profile.outstandingBalance) :
    collect u a note method createdBy paymentId db = .ok t ↔
      ¬ Credit.Exceeds fl profile.outstandingBalance a ∧
      issueAllocated ((Credit.allocateCollectionToOrdersIn fl db u a).map Credit.Applied.orderId)
        (Credit.postEntry i (Credit.collectEntry u a (left profile a) note method createdBy
          paymentId (Credit.allocateCollectionToOrdersIn fl db u a))
          ((Credit.allocateCollectionToOrdersIn fl db u a).foldl Credit.writeApplied db)) = t := by
  have hpos : 0 < fl a := by
    have hlt := faithful_fl.zero.fl_lt_fl hc ha
    rwa [fl_zero] at hlt
  have hleft : round2 (max 0 (fl (fl profile.outstandingBalance - fl a))) = left profile a := by
    have hmono : Monotone round2 := fun _ _ => round2_mono
    rw [hmono.map_max, round2_zero, howed.round2_fl_sub hc]
    rfl
  unfold collect
  rw [bind_eq_ok]
  simp only [pure_eq_ok, Credit.creditPaymentIn_eq_ok, hc.round2_fl]
  constructor
  · rintro ⟨write, ⟨j, q, hq, haccept, rfl⟩, rfl⟩
    obtain ⟨rfl, rfl⟩ := Prod.mk.inj (Option.some.inj (hq.symm.trans hprofile))
    rw [howed.round2_fl] at haccept
    rw [howed.round2_fl, hleft]
    exact ⟨haccept.2, rfl⟩
  · rintro ⟨haccept, rfl⟩
    refine ⟨_, ⟨i, profile, hprofile, ⟨hpos, ?_⟩, rfl⟩, ?_⟩
    · rwa [howed.round2_fl]
    · rw [howed.round2_fl, hleft]

theorem invoices_foldl_writeApplied (l : List Credit.Applied) (db : Db) :
    (l.foldl Credit.writeApplied db).invoices = db.invoices := by
  induction l generalizing db with
  | nil => rfl
  | cons x l ih => exact ih (Credit.writeApplied db x)

/-- What it writes, and the invoices that follow. -/
theorem collected_of_collect (hc : Held a) (ha : 0 < a) (h : OrdersHeld u db)
    (entry : CreditLedgerEntry) (hbalance : entry.balanceAfter = left profile a) :
    Collected u i profile a db
      (issueAllocated ((Credit.allocateCollectionToOrdersIn fl db u a).map
        Credit.Applied.orderId)
        (Credit.postEntry i entry
          ((Credit.allocateCollectionToOrdersIn fl db u a).foldl Credit.writeApplied db))) := by
  have hwrites := writes_eq hc ha h
  have hkeys : (Credit.allocateCollectionToOrdersIn fl db u a).map Credit.Applied.orderId =
      (takings rowDue a (Credit.openOrders db u)).map fun x : Taking => x.1.1 := by
    rw [hwrites, List.map_map]
    rfl
  rw [hkeys]
  set written := (Credit.allocateCollectionToOrdersIn fl db u a).foldl Credit.writeApplied db
    with hw
  have horders : written.orders = collected u a db := by
    rw [hw, hwrites, orders_foldl_writeApplied]
    rfl
  have hpayments : written.payments = paymentsCollected u a db := by
    rw [hw, hwrites, payments_foldl_writeApplied]
    rfl
  have hprofiles : written.profiles = db.profiles := (Credit.foldl_writeApplied _ db).1
  have hinvoiced : ∀ k, Invoiced (Credit.postEntry i entry written) k ↔ Invoiced db k := by
    intro k
    unfold Invoiced
    show (∃ i v, written.invoices.get? i = some v ∧ _) ↔ _
    rw [hw, invoices_foldl_writeApplied]
  have hreferred : ∀ k, Referred (Credit.postEntry i entry written) "b2b_wholesale" k ↔
      Referred db "b2b_wholesale" k := by
    intro k
    unfold Referred referredTo
    show (written.invoices.first? _).isSome ↔ _
    rw [hw, invoices_foldl_writeApplied]
  have hids : ∀ k ∈ (takings rowDue a (Credit.openOrders db u)).map (fun x : Taking => x.1.1),
      ∃ o, (Credit.postEntry i entry written).orders.get? k = some o ∧
        kindOf o = "b2b_wholesale" := by
    intro k hk
    obtain ⟨x, hx, rfl⟩ := List.mem_map.1 hk
    obtain ⟨hspread, hpos⟩ := mem_takings.1 hx
    refine ⟨receive x x.1.2, ?_, ?_⟩
    · show written.orders.get? x.1.1 = _
      rw [horders, get?_collected hspread, if_pos hpos]
    · exact if_pos (mem_openOrders (fst_mem_of_mem_spread hspread)).2.2
  refine ⟨?_, ?_, ?_, ?_, ?_, ?_⟩ <;> rw [issueAllocated_rest]
  · show written.profiles.modify i (Credit.setBalance entry.balanceAfter) = _
    rw [hprofiles, hbalance]
  · exact horders
  · exact hpayments
  · intro k
    show Invoiced (issueAllocated _ _) k ↔ Invoiced db k ∨ Gains db.orders written.orders k ∧ _
    rw [invoiced_issueAllocated hids, mem_takings_iff_gains, hinvoiced, hreferred, horders]
  · intro k hk
    have hnot : k ∉ (takings rowDue a (Credit.openOrders db u)).map fun x : Taking => x.1.1 := by
      rw [mem_takings_iff_gains, ← horders]
      exact hk
    show Referred (issueAllocated _ _) "b2b_wholesale" k ↔ _
    rw [referred_issueAllocated hnot, hreferred]
  · intro k hk
    exact referred_issueAllocated_of ((hreferred k).2 hk)

/-- The orders stay in whole paise. -/
theorem ordersHeld_collected (hc : IsCents a) (h : OrdersHeld u db)
    (ht : t.orders = collected u a db) : OrdersHeld u t := by
  intro k o ho hshop
  rw [ht] at ho
  rcases collected_cases ho with hsame | ⟨x, hx, -, rfl⟩
  · exact h k o hsame hshop
  · have hheld : AmountsIn Held x.1.2 := h x.1.1 x.1.2 (row_of_mem_takings hx) hshop
    have hcents : IsCents x.2 := by
      refine isCents_of_mem_takings hc (fun r hr => ?_) hx
      obtain ⟨hrow, hopen⟩ := mem_openOrders hr
      have hamounts := h r.1 r.2 hrow hopen
      exact ⟨hamounts.final.cents, hamounts.paid.cents⟩
    have hpos := (mem_takings.1 hx).2
    have hdue : x.2 ≤ x.1.2.finalAmount - x.1.2.paidAmount := le_due_of_mem_takings hx
    have hreach : x.1.2.paidAmount + x.2 ≤ x.1.2.finalAmount := by linarith
    refine ⟨hheld.final, ?_, ?_⟩
    · exact faithful_fl.between hheld.paid hheld.final (hheld.paid.cents.add hcents)
        (le_add_of_nonneg_right hpos.le) hreach
    · have hleft : dueOf (receive x x.1.2) = dueOf x.1.2 - x.2 := by
        unfold dueOf receive
        ring
      rw [hleft]
      exact faithful_fl.between faithful_fl.zero hheld.due (hheld.due.cents.sub hcents)
        (sub_nonneg.2 hdue) (sub_le_self _ hpos.le)

/-- The balance that two collections leave is the one that the whole leaves. -/
theorem left_twice (ha : a ≤ profile.outstandingBalance) :
    left (Credit.setBalance (left profile a) profile) b = left profile (a + b) := by
  unfold left Credit.setBalance
  dsimp only
  rw [max_eq_right (sub_nonneg.2 ha), sub_sub]

/-- The shop is where it would be: what it owes, its orders, the payments, and which orders have
an invoice. -/
structure Same (s t : Db) : Prop where
  profiles : s.profiles = t.profiles
  orders : s.orders = t.orders
  payments : s.payments = t.payments
  invoiced : ∀ k, Invoiced s k ↔ Invoiced t k

theorem same_of_collected (ha : 0 ≤ a) (hb : 0 ≤ b)
    (hleft : left (Credit.setBalance (left profile a) profile) b = left profile (a + b))
    (hfirst : Collected u i profile a db t₁)
    (hsecond : Collected u i (Credit.setBalance (left profile a) profile) b t₁ t₂)
    (hwhole : Collected u i profile (a + b) db t) : Same t₂ t := by
  have horders : t₂.orders = t.orders := by
    rw [hsecond.orders, hwhole.orders, orders_twice ha hb hfirst.orders]
  refine ⟨?_, horders, ?_, fun k => ?_⟩
  · rw [hsecond.profiles, hfirst.profiles, hwhole.profiles, Table.modify_modify, hleft]
    rfl
  · rw [hsecond.payments, hwhole.payments, payments_twice ha hb hfirst.orders hfirst.payments]
  · have hgains := gains_twice ha hb hfirst.orders (k := k)
    rw [← hwhole.orders, ← hsecond.orders] at hgains
    rw [hsecond.invoiced, hfirst.invoiced, hwhole.invoiced, hgains]
    by_cases hk : Gains db.orders t₁.orders k
    · have hkept := hfirst.kept k
      tauto
    · rw [hfirst.referred k hk]
      tauto

/-- What is owed may be collected. -/
theorem not_exceeds_of_le {owed pay : ℚ} (howed : Held owed) (h : pay ≤ owed) :
    ¬ Credit.Exceeds fl owed pay := by
  have hnear := abs_le.1 howed.abs_fl_sub_le
  have hpaisa : 1 / 101 ≤ fl (1 / 100) := by decide +kernel
  norm_num at hnear hpaisa
  exact not_lt.2 (fl_mono (by linarith))

/-- Two paise more may not. -/
theorem le_of_not_exceeds {owed pay : ℚ} (howed : Held owed) (hpay : Held pay)
    (h : ¬ Credit.Exceeds fl owed pay) : pay ≤ owed + 1 / 100 := by
  have hcents : IsCents (owed + 1 / 100) := howed.cents.add ⟨1, by norm_num⟩
  by_contra hlt
  have hnext := hcents.add_one_le hpay.cents (not_le.1 hlt)
  have hnear := abs_le.1 howed.abs_fl_sub_le
  have hnear' := abs_le.1 hpay.abs_fl_sub_le
  have hpaisa : fl (1 / 100) ≤ 1 / 99 ∧ 0 ≤ fl (1 / 100) := by decide +kernel
  have habs : |fl owed + fl (1 / 100)| ≤ 2 ^ 41 := by
    have hle := abs_le.1 howed.le
    norm_num at hnear hpaisa
    rw [abs_le]
    constructor <;> linarith
  have hround := (abs_le.1 ((Binary64.abs_fl_sub_le (fl owed + fl (1 / 100))).trans
    (div_le_div_of_nonneg_right habs (by norm_num)))).2
  refine h (?_ : _ < _)
  norm_num at hnear hnear' hpaisa hround hnext
  linarith

theorem exists_collect (hc : Held a) (ha : 0 < a) (h : OrdersHeld u db)
    (hprofile : profileOf db u = some (i, profile)) (howed : Held profile.outstandingBalance)
    (haccept : ¬ Credit.Exceeds fl profile.outstandingBalance a) (note method : Option String)
    (createdBy paymentId : Option ℕ) :
    ∃ t, collect u a note method createdBy paymentId db = .ok t ∧
      Collected u i profile a db t :=
  ⟨_, (collect_eq_ok hc ha hprofile howed).2 ⟨haccept, rfl⟩, collected_of_collect hc ha h _ rfl⟩

theorem collected_of_eq_ok (hc : Held a) (ha : 0 < a) (h : OrdersHeld u db)
    (hprofile : profileOf db u = some (i, profile)) (howed : Held profile.outstandingBalance)
    (ht : collect u a note method createdBy paymentId db = .ok t) :
    ¬ Credit.Exceeds fl profile.outstandingBalance a ∧ Collected u i profile a db t := by
  obtain ⟨haccept, rfl⟩ := (collect_eq_ok hc ha hprofile howed).1 ht
  exact ⟨haccept, collected_of_collect hc ha h _ rfl⟩

end Collections

/-- Where an amount may be collected at once, collecting it in two parts is accepted and comes to
the same, whatever the notes say: if it is no more than is owed, or the code's own comparison lets
the second part pass with the paisa that is above. -/
theorem collect_add_iff {db t : Db} {u i : ℕ} {profile : RetailerProfile} {a b : ℚ}
    {note note₁ note₂ method method₁ method₂ : Option String}
    {createdBy createdBy₁ createdBy₂ paymentId paymentId₁ paymentId₂ : Option ℕ}
    (hprofile : profileOf db u = some (i, profile)) (howed : Held profile.outstandingBalance)
    (h : OrdersHeld u db) (hca : IsCents a) (hcb : IsCents b) (ha : 0 < a) (hb : 0 < b)
    (hab : Held (a + b))
    (ht : collect u (a + b) note method createdBy paymentId db = .ok t) :
    (∃ t₁ t₂, collect u a note₁ method₁ createdBy₁ paymentId₁ db = .ok t₁ ∧
      collect u b note₂ method₂ createdBy₂ paymentId₂ t₁ = .ok t₂ ∧ Same t₂ t) ↔
    a + b ≤ profile.outstandingBalance ∨ a + b = profile.outstandingBalance + 1 / 100 ∧
      ¬ Credit.Exceeds fl (profile.outstandingBalance - a) b := by
  obtain ⟨haccept, hwhole⟩ :=
    collected_of_eq_ok hab (add_pos ha hb) h hprofile howed ht
  have hle := le_of_not_exceeds howed hab haccept
  have hheld {c : ℚ} (hc : IsCents c) (hc0 : 0 < c) (hle : c ≤ a + b) : Held c :=
    faithful_fl.between faithful_fl.zero hab hc hc0.le hle
  have hHa : Held a := hheld hca ha (by linarith)
  have hHb : Held b := hheld hcb hb (by linarith)
  -- the first part is never above what is owed
  have hbpaisa := isCents_zero.add_one_le hcb hb
  have hfit : a ≤ profile.outstandingBalance := by linarith
  have hrest : left profile a = profile.outstandingBalance - a :=
    max_eq_right (sub_nonneg.2 hfit)
  have hrestHeld : Held (profile.outstandingBalance - a) :=
    faithful_fl.between faithful_fl.zero howed (howed.cents.sub hca) (sub_nonneg.2 hfit)
      (sub_le_self _ ha.le)
  have hsecond {t₁ : Db} (hfirst : Collected u i profile a db t₁) :
      profileOf t₁ u = some (i, Credit.setBalance (left profile a) profile) := by
    unfold profileOf
    rw [hfirst.profiles]
    exact Table.first?_modify_self hprofile fun _ => rfl
  have howed₂ : Held (Credit.setBalance (left profile a) profile).outstandingBalance :=
    hrest ▸ hrestHeld
  constructor
  · rintro ⟨t₁, t₂, ht₁, ht₂, -⟩
    obtain ⟨-, hfirst⟩ := collected_of_eq_ok hHa ha h hprofile howed ht₁
    obtain ⟨haccept₂, -⟩ := collected_of_eq_ok hHb hb
      (ordersHeld_collected hca h hfirst.orders) (hsecond hfirst) howed₂ ht₂
    rcases le_or_gt (a + b) profile.outstandingBalance with hcovered | habove
    · exact .inl hcovered
    · have hpaisa := howed.cents.add_one_le hab.cents habove
      have howed_left : (Credit.setBalance (left profile a) profile).outstandingBalance =
          profile.outstandingBalance - a := hrest
      exact .inr ⟨le_antisymm hle hpaisa, howed_left ▸ haccept₂⟩
  · intro hcond
    have haccept₂ : ¬ Credit.Exceeds fl
        (Credit.setBalance (left profile a) profile).outstandingBalance b := by
      show ¬ Credit.Exceeds fl (left profile a) b
      rw [hrest]
      rcases hcond with hcovered | ⟨-, haccept₂⟩
      · exact not_exceeds_of_le hrestHeld (by linarith)
      · exact haccept₂
    obtain ⟨t₁, ht₁, hfirst⟩ := exists_collect hHa ha h hprofile howed
      (not_exceeds_of_le howed hfit) note₁ method₁ createdBy₁ paymentId₁
    obtain ⟨t₂, ht₂, hcollected₂⟩ := exists_collect hHb hb
      (ordersHeld_collected hca h hfirst.orders) (hsecond hfirst) howed₂ haccept₂ note₂
      method₂ createdBy₂ paymentId₂
    exact ⟨t₁, t₂, ht₁, ht₂,
      same_of_collected ha.le hb.le (left_twice hfit) hfirst hcollected₂ hwhole⟩

/-- A shop that owes ₹250. -/
def owing : RetailerProfile :=
  { (default : RetailerProfile) with userId := 3, outstandingBalance := 250 }

/-- The shop with three open orders. -/
def owingShop : Db := { threeOrders with profiles := .ofList [owing] }

theorem ordersHeld_owingShop : OrdersHeld 3 owingShop := by
  have hrows : threeOrders.orders.All fun o =>
      o.finalAmount = 100 ∧ (o.paidAmount = 0 ∨ o.paidAmount = 50) := by decide +kernel
  have hheld {n : ℤ} (h : |(n : ℚ)| ≤ 2 ^ 40) : Held n := ⟨⟨n * 100, by push_cast; ring⟩, h⟩
  intro k o ho _
  obtain ⟨hfinal, hpaid⟩ := hrows.get? ho
  have hfinal' : Held o.finalAmount := hfinal ▸ hheld (n := 100) (by norm_num)
  rcases hpaid with hpaid | hpaid
  · have hdue : dueOf o = 100 := by rw [dueOf, hfinal, hpaid, sub_zero]
    exact ⟨hfinal', hpaid ▸ hheld (n := 0) (by norm_num), hdue ▸ hheld (n := 100) (by norm_num)⟩
  · have hdue : dueOf o = 50 := by
      rw [dueOf, hfinal, hpaid]
      norm_num
    exact ⟨hfinal', hpaid ▸ hheld (n := 50) (by norm_num), hdue ▸ hheld (n := 50) (by norm_num)⟩

/-- It pays ₹120: at once, or ₹70 and then ₹50. -/
theorem collect_owingShop : ∃ t, collect 3 (70 + 50) none none none none owingShop = .ok t ∧
    ∃ t₁ t₂, collect 3 70 none none none none owingShop = .ok t₁ ∧
      collect 3 50 none none none none t₁ = .ok t₂ ∧ Same t₂ t := by
  have hcents {n : ℤ} : IsCents n := ⟨n * 100, by push_cast; ring⟩
  have hprofile : profileOf owingShop 3 = some (1, owing) := by decide
  have howed : Held owing.outstandingBalance := ⟨hcents (n := 250), by decide +kernel⟩
  have hwhole : Held (70 + 50 : ℚ) :=
    ⟨(hcents (n := 70)).add (hcents (n := 50)), by norm_num⟩
  obtain ⟨t, ht, -⟩ := exists_collect hwhole (by norm_num) ordersHeld_owingShop hprofile howed
    (by decide +kernel) none none none none
  exact ⟨t, ht, (collect_add_iff hprofile howed ordersHeld_owingShop (hcents (n := 70))
    (hcents (n := 50)) (by norm_num) (by norm_num) hwhole ht).2 (.inl (by decide +kernel))⟩

/-- Of ₹250 it may pay ₹250.01 at once, and not ₹0.02 and then ₹249.99: the sum of ₹249.98 and a
paisa is below the float of ₹249.99. -/
theorem collect_owingShop_parts : ∃ t t₁,
    collect 3 (2 / 100 + 24999 / 100) none none none none owingShop = .ok t ∧
    collect 3 (2 / 100) none none none none owingShop = .ok t₁ ∧
    ∀ t₂, collect 3 (24999 / 100) none none none none t₁ ≠ .ok t₂ := by
  have hwhole : (collect 3 (2 / 100 + 24999 / 100) none none none none owingShop).toOption.isSome :=
    by decide +kernel
  have hparts : ((collect 3 (2 / 100) none none none none owingShop).toOption.map fun t₁ =>
      (collect 3 (24999 / 100) none none none none t₁).toOption.isSome) = some false := by
    decide +kernel
  cases ht : collect 3 (2 / 100 + 24999 / 100) none none none none owingShop with
  | error _ =>
    rw [ht] at hwhole
    cases hwhole
  | ok t =>
    cases ht₁ : collect 3 (2 / 100) none none none none owingShop with
    | error _ =>
      rw [ht₁] at hparts
      cases hparts
    | ok t₁ =>
      refine ⟨t, t₁, rfl, rfl, fun t₂ ht₂ => ?_⟩
      rw [ht₁] at hparts
      have hsecond : (collect 3 (24999 / 100) none none none none t₁).toOption.isSome = false :=
        Option.some.inj hparts
      rw [ht₂] at hsecond
      cases hsecond

end Instalments

end SweetCrust
