import SweetCrust.Lib.Binary64
import SweetCrust.Lib.Spread
import SweetCrust.StoreOps.Credit

/-!
# Spreading a collection over the unpaid orders

`_allocate_collection_to_orders` walks through a shop's unpaid orders, oldest first, with the
amount that is left, rounding at every step and comparing with a thousandth.  On orders in
whole paise it is `Spread.spread`: each order takes what it is due, as far as the amount
reaches.  That is so of exact amounts, and of the floats that stand for them up to a trillion.

* `Faithful` — an arithmetic in which what is rounded to paise is as on the exact amounts.
* `allocateFromIn_eq`, `allocateFrom_eq` — the loop, in terms of `Spread.takings`.
* `orders_foldl_writeApplied`, `latestPayment_foldl_writeApplied` — what it writes.
* `allocation_exact` — the orders and payments after a collection.
-/

namespace SweetCrust

open Tabular Rounding Spread

namespace Allocation

/-- An order of the shop from the bakery. -/
def IsShopOrder (u : ℕ) (o : Order) : Prop :=
  o.userId = u ∧ o.orderType = OrderType.b2bShopOrder.value

instance (u : ℕ) (o : Order) : Decidable (IsShopOrder u o) :=
  inferInstanceAs (Decidable (_ ∧ _))

/-- What is unpaid of an order. -/
def dueOf (o : Order) : ℚ := o.finalAmount - o.paidAmount

/-- The order's amounts are in whole paise. -/
structure InPaise (o : Order) : Prop where
  final : IsCents o.finalAmount
  paid : IsCents o.paidAmount

theorem InPaise.due {o : Order} (h : InPaise o) : IsCents (dueOf o) := h.final.sub h.paid

/-! ## The arithmetic -/

/-- On the amounts of `A`, all of them in whole paise, what is worked out by `fl` and rounded is
exact, and a thousandth is neither lost nor taken for a paisa. -/
structure Faithful (fl : ℚ → ℚ) (A : ℚ → Prop) : Prop where
  mono : Monotone fl
  zero : A 0
  cents {x : ℚ} : A x → IsCents x
  between {x y z : ℚ} : A x → A y → IsCents z → x ≤ z → z ≤ y → A z
  round2_fl {x : ℚ} : A x → round2 (fl x) = x
  round2_add {x y : ℚ} : A x → A y → round2 (fl (fl x + fl y)) = x + y
  round2_sub {x y : ℚ} : A x → A y → round2 (fl (fl x - fl y)) = x - y
  thousandth {x : ℚ} : A x → (fl x ≤ fl (1 / 1000) ↔ x ≤ 0)
  reaches {x y : ℚ} : A x → A y → (fl x ≤ fl (fl y + fl (1 / 1000)) ↔ x ≤ y)

/-- Exact amounts. -/
theorem faithful_id : Faithful id IsCents where
  mono := monotone_id
  zero := isCents_zero
  cents h := h
  between _ _ h _ _ := h
  round2_fl h := round2_of_isCents h
  round2_add hx hy := round2_of_isCents (hx.add hy)
  round2_sub hx hy := round2_of_isCents (hx.sub hy)
  thousandth h := by
    refine ⟨fun hle => h.le_of_lt_add isCents_zero ?_, fun hle => ?_⟩ <;>
      simp only [id_eq] at * <;> linarith
  reaches hx hy := by
    refine ⟨fun hle => hx.le_of_lt_add hy ?_, fun hle => ?_⟩ <;>
      simp only [id_eq] at * <;> linarith

section Floats

open Binary64

variable {x y : ℚ}

theorem fl_le_fl_thousandth_iff (h : IsCents x) : fl x ≤ fl (1 / 1000) ↔ x ≤ 0 := by
  refine ⟨fun hle => ?_, fun hle => fl_mono (by linarith)⟩
  by_contra hpos
  have hpaisa := isCents_zero.add_one_le h (not_le.1 hpos)
  rw [zero_add] at hpaisa
  have hlt : fl (1 / 1000) < fl (1 / 100) := by decide +kernel
  exact absurd ((fl_mono hpaisa).trans hle) (not_le.2 hlt)

/-- A thousandth closes the distance between floats, and not that between paise. -/
theorem fl_le_fl_add_thousandth_iff (hx : Held x) (hy : Held y) :
    fl x ≤ fl (fl y + fl (1 / 1000)) ↔ x ≤ y := by
  have hy' := abs_le.1 hy.abs_fl_sub_le
  have hsmall : 1 / 1001 ≤ fl (1 / 1000) ∧ fl (1 / 1000) ≤ 1 / 999 := by decide +kernel
  norm_num at hy' hsmall
  constructor
  · intro hle
    by_contra hlt
    have hnext := hy.cents.add_one_le hx.cents (not_le.1 hlt)
    have hx' := abs_le.1 hx.abs_fl_sub_le
    have habs : |fl y + fl (1 / 1000)| ≤ 2 ^ 41 := by
      have hle := abs_le.1 hy.le
      rw [abs_le]
      constructor <;> linarith
    have hround := (abs_le.1 ((Binary64.abs_fl_sub_le (fl y + fl (1 / 1000))).trans
      (div_le_div_of_nonneg_right habs (by norm_num)))).2
    norm_num at hx' hround hnext
    linarith
  · intro hle
    exact fl_mono (by linarith)

/-- Floats, up to about a trillion. -/
theorem faithful_fl : Faithful fl Held where
  mono _ _ := fl_mono
  zero := ⟨isCents_zero, by norm_num⟩
  cents h := h.cents
  between hx hy hz hxz hzy :=
    ⟨hz, abs_le.2 ⟨(abs_le.1 hx.le).1.trans hxz, hzy.trans (abs_le.1 hy.le).2⟩⟩
  round2_fl h := h.round2_fl
  round2_add hx hy := hx.round2_fl_add hy
  round2_sub hx hy := hx.round2_fl_sub hy
  thousandth h := fl_le_fl_thousandth_iff h.cents
  reaches hx hy := fl_le_fl_add_thousandth_iff hx hy

end Floats

/-! ## The loop -/

/-- The order's amounts, and what is due of it, are among `A`. -/
structure AmountsIn (A : ℚ → Prop) (o : Order) : Prop where
  final : A o.finalAmount
  paid : A o.paidAmount
  due : A (dueOf o)

theorem InPaise.amountsIn {o : Order} (h : InPaise o) : AmountsIn IsCents o :=
  ⟨h.final, h.paid, h.due⟩

section Collecting

variable {db t : Db} {u v : ℕ} {amount : ℚ} {l : List (ℕ × Order)}

/-- An order with what it takes of a collection. -/
abbrev Taking : Type := (ℕ × Order) × ℚ

/-- The order once it has taken its share. -/
def receive (x : Taking) (o : Order) : Order :=
  { o with
    paidAmount := x.1.2.paidAmount + x.2
    paymentStatus := if x.1.2.finalAmount ≤ x.1.2.paidAmount + x.2 then .paid else .partiallyPaid }

/-- The same as `_allocate_collection_to_orders` notes it. -/
def applied (db : Db) (x : Taking) : Credit.Applied where
  orderId := x.1.1
  paidAmount := x.1.2.paidAmount + x.2
  paymentStatus := if x.1.2.finalAmount ≤ x.1.2.paidAmount + x.2 then .paid else .partiallyPaid
  paymentId := (latestPayment db x.1.1).map Prod.fst

/-- What is unpaid of an order, with its key. -/
def rowDue (r : ℕ × Order) : ℚ := dueOf r.2

/-- `_allocate_collection_to_orders` spreads the amount over what is due. -/
theorem allocateFromIn_eq {fl : ℚ → ℚ} {A : ℚ → Prop} (hfl : Faithful fl A) (hA : A amount)
    (h0 : 0 ≤ amount) (hl : ∀ r ∈ l, AmountsIn A r.2) :
    Credit.allocateFromIn fl db amount l = (takings rowDue amount l).map (applied db) := by
  induction l generalizing amount with
  | nil => rfl
  | cons r l ih =>
    obtain ⟨orderId, order⟩ := r
    obtain ⟨htotal, halready, hdue⟩ : AmountsIn A order := hl _ (List.mem_cons_self ..)
    have hrest : ∀ r ∈ l, AmountsIn A r.2 := fun r hr => hl r (List.mem_cons_of_mem _ hr)
    have hrounddue : round2 (fl (fl (round2 (fl order.finalAmount)) -
        fl (round2 (fl order.paidAmount)))) = dueOf order := by
      rw [hfl.round2_fl htotal, hfl.round2_fl halready, hfl.round2_sub htotal halready]
      rfl
    unfold Credit.allocateFromIn
    simp only [hrounddue, hfl.thousandth hA, hfl.thousandth hdue]
    by_cases hzero : amount ≤ 0
    · -- nothing is left: nobody takes anything
      obtain rfl : amount = 0 := le_antisymm hzero h0
      rw [if_pos le_rfl, takings_zero]
      rfl
    rw [if_neg hzero]
    by_cases hpos : dueOf order ≤ 0
    · have hrow : rowDue (orderId, order) ≤ 0 := hpos
      rw [if_pos hpos, ih hA h0 hrest, takings_cons_of_nonpos h0 hrow]
    · have hcents := (hfl.cents hA).min (hfl.cents hdue)
      have hmin0 : 0 ≤ min amount (dueOf order) := le_min h0 (not_le.1 hpos).le
      have hmin : A (min amount (dueOf order)) :=
        hfl.between hfl.zero hA hcents hmin0 (min_le_left _ _)
      have hnew : A (order.paidAmount + min amount (dueOf order)) := by
        refine hfl.between halready htotal ((hfl.cents halready).add hcents)
          (le_add_of_nonneg_right hmin0) ?_
        have hle : min amount (dueOf order) ≤ order.finalAmount - order.paidAmount :=
          min_le_right _ _
        linarith
      have hleft : A (amount - min amount (dueOf order)) :=
        hfl.between hfl.zero hA ((hfl.cents hA).sub hcents) (sub_nonneg.2 (min_le_left _ _))
          (sub_le_self _ hmin0)
      have hrow : 0 < rowDue (orderId, order) := not_le.1 hpos
      rw [if_neg hpos, takings_cons_of_pos (not_le.1 hzero) hrow, List.map_cons,
        ← hfl.mono.map_min, hfl.round2_fl hmin, hfl.round2_sub hA hmin, hfl.round2_fl halready,
        hfl.round2_fl htotal, hfl.round2_add halready hmin,
        ih hleft (sub_nonneg.2 (min_le_left _ _)) hrest]
      simp only [hfl.reaches htotal hnew]
      rfl

/-- On exact amounts in whole paise. -/
theorem allocateFrom_eq (hc : IsCents amount) (h0 : 0 ≤ amount) (hl : ∀ r ∈ l, InPaise r.2) :
    Credit.allocateFrom db amount l = (takings rowDue amount l).map (applied db) :=
  allocateFromIn_eq faithful_id hc h0 fun r hr => (hl r hr).amountsIn

/-- Each order that takes something is rewritten. -/
theorem orders_foldl_writeApplied (xs : List Taking) (db t : Db) :
    ((xs.map (applied db)).foldl Credit.writeApplied t).orders =
      Table.modifyEach (fun x : Taking => x.1.1) receive xs t.orders := by
  induction xs generalizing t with
  | nil => rfl
  | cons x xs ih => exact ih (Credit.writeApplied t (applied db x))

/-- The orders of the shop that a collection looks at. -/
def looksAt (v : ℕ) (o : Order) : Bool :=
  o.userId = v ∧ o.orderType = OrderType.b2bShopOrder.value ∧
    o.paymentStatus ∈ [PaymentStatus.pending, .partiallyPaid, .processing]

theorem perm_openOrders (db : Db) (v : ℕ) :
    (Credit.openOrders db v).Perm (db.orders.select (looksAt v)) :=
  List.perm_insertionSort _ _

theorem mem_openOrders_iff {r : ℕ × Order} :
    r ∈ Credit.openOrders db v ↔ db.orders.get? r.1 = some r.2 ∧ looksAt v r.2 = true := by
  rw [(perm_openOrders db v).mem_iff, Table.select, List.mem_filter, Table.get?_eq_some]

theorem mem_openOrders {r : ℕ × Order} (h : r ∈ Credit.openOrders db v) :
    db.orders.get? r.1 = some r.2 ∧ IsShopOrder v r.2 := by
  obtain ⟨hget, hp⟩ := mem_openOrders_iff.1 h
  simp only [looksAt, decide_eq_true_eq] at hp
  exact ⟨hget, hp.1, hp.2.1⟩

theorem nodup_openOrders (db : Db) (v : ℕ) : ((Credit.openOrders db v).map Prod.fst).Nodup := by
  refine ((perm_openOrders db v).map Prod.fst).nodup_iff.2 ?_
  exact db.orders.keys_nodup.sublist ((List.filter_sublist (l := db.orders.rows)).map Prod.fst)

/-- Every order is looked at once. -/
theorem nodup_spread (h : (l.map Prod.fst).Nodup) (amount : ℚ) :
    ((spread rowDue amount l).map fun x : Taking => x.1.1).Nodup := by
  have hspread : (spread rowDue amount l).map (fun x : Taking => x.1.1) = l.map Prod.fst := by
    rw [← congrArg (List.map Prod.fst) (map_fst_spread rowDue amount l), List.map_map]
    rfl
  rw [hspread]
  exact h

/-- No order takes twice. -/
theorem nodup_takings (h : (l.map Prod.fst).Nodup) :
    ((takings rowDue amount l).map fun x : Taking => x.1.1).Nodup :=
  (nodup_spread h amount).sublist (List.filter_sublist.map _)

theorem row_of_mem_takings {x : Taking} (h : x ∈ takings rowDue amount (Credit.openOrders db v)) :
    db.orders.get? x.1.1 = some x.1.2 :=
  (mem_openOrders (fst_mem_of_mem_spread (mem_takings.1 h).1)).1

/-- The orders after a collection from the shop `v`. -/
def collected (v : ℕ) (amount : ℚ) (db : Db) : Table Order :=
  Table.modifyEach (fun x : Taking => x.1.1) receive
    (takings rowDue amount (Credit.openOrders db v)) db.orders

/-- An order that is not open stays. -/
theorem get?_collected_of_not {k : ℕ} {o : Order} (ho : db.orders.get? k = some o)
    (hnot : looksAt v o = false) : (collected v amount db).get? k = some o := by
  rw [collected, Table.get?_modifyEach_of_notMem, ho]
  intro hmem
  obtain ⟨x, hx, rfl⟩ := List.mem_map.1 hmem
  obtain ⟨hget, hlooks⟩ := mem_openOrders_iff.1 (fst_mem_of_mem_spread (mem_takings.1 hx).1)
  rw [ho] at hget
  cases hget
  rw [hnot] at hlooks
  cases hlooks

/-- What an open order looks like once it has taken its share. -/
theorem get?_collected {x : Taking} (hx : x ∈ spread rowDue amount (Credit.openOrders db v)) :
    (collected v amount db).get? x.1.1 = some (if 0 < x.2 then receive x x.1.2 else x.1.2) := by
  by_cases hpos : 0 < x.2
  · rw [if_pos hpos]
    exact Table.get?_modifyEach (nodup_takings (nodup_openOrders db v))
      (fun y hy => row_of_mem_takings hy) (mem_takings.2 ⟨hx, hpos⟩)
  · rw [if_neg hpos, collected, Table.get?_modifyEach_of_notMem]
    · exact (mem_openOrders_iff.1 (fst_mem_of_mem_spread hx)).1
    · intro hmem
      obtain ⟨y, hy, hkey⟩ := List.mem_map.1 hmem
      obtain ⟨hspread, hypos⟩ := mem_takings.1 hy
      have hsame : y = x :=
        List.inj_on_of_nodup_map (nodup_spread (nodup_openOrders db v) amount) hspread hx hkey
      exact hpos (hsame ▸ hypos)

/-! ## The payments -/

/-- The payment of an order once it has taken its share. -/
def settle (x : Taking) (p : Payment) : Payment :=
  { p with amount := (receive x x.1.2).paidAmount, status := (receive x x.1.2).paymentStatus }

theorem latestPayment_writeApplied {x : Taking} (hsame : latestPayment t x.1.1 =
    latestPayment db x.1.1) (k : ℕ) : latestPayment (Credit.writeApplied t (applied db x)) k =
      if k = x.1.1 then (latestPayment t k).map fun r => (r.1, settle x r.2)
      else latestPayment t k := by
  cases hp : latestPayment t x.1.1 with
  | none =>
    have hnone : (applied db x).paymentId = none := by rw [applied, ← hsame, hp]; rfl
    have hpayments : (Credit.writeApplied t (applied db x)).payments = t.payments := by
      unfold Credit.writeApplied
      rw [hnone]
    have heq : latestPayment (Credit.writeApplied t (applied db x)) k = latestPayment t k := by
      unfold latestPayment
      rw [hpayments]
    rw [heq]
    split_ifs with hk
    · rw [hk, hp]
      rfl
    · rfl
  | some r =>
    obtain ⟨i, p⟩ := r
    have hsome : (applied db x).paymentId = some i := by rw [applied, ← hsame, hp]; rfl
    have hpayments : (Credit.writeApplied t (applied db x)).payments =
        t.payments.modify i (settle x) := by
      unfold Credit.writeApplied
      rw [hsome]
      rfl
    split_ifs with hk
    · rw [hk, hp]
      exact latestPayment_modify hp hpayments fun q => rfl
    · exact latestPayment_modify_of_ne hp hpayments (fun q => rfl) hk

/-- The newest payment of each order that takes something follows it; the others stay. -/
theorem latestPayment_foldl_writeApplied (xs : List Taking)
    (hkeys : (xs.map fun x : Taking => x.1.1).Nodup)
    (hsame : ∀ x ∈ xs, latestPayment t x.1.1 = latestPayment db x.1.1) (k : ℕ) :
    (k ∉ xs.map (fun x : Taking => x.1.1) →
      latestPayment ((xs.map (applied db)).foldl Credit.writeApplied t) k = latestPayment t k) ∧
    ∀ x ∈ xs, x.1.1 = k →
      latestPayment ((xs.map (applied db)).foldl Credit.writeApplied t) k =
        (latestPayment t k).map fun r => (r.1, settle x r.2) := by
  induction xs generalizing t with
  | nil => exact ⟨fun _ => rfl, by simp⟩
  | cons x xs ih =>
    rw [List.map_cons, List.nodup_cons] at hkeys
    have hone := latestPayment_writeApplied (hsame x (List.mem_cons_self ..))
    have hrest : ∀ y ∈ xs, latestPayment (Credit.writeApplied t (applied db x)) y.1.1 =
        latestPayment db y.1.1 := by
      intro y hy
      have hne : y.1.1 ≠ x.1.1 := by
        intro heq
        exact hkeys.1 (List.mem_map.2 ⟨y, hy, heq⟩)
      rw [hone, if_neg hne]
      exact hsame y (List.mem_cons_of_mem x hy)
    obtain ⟨hout, hin⟩ := ih hkeys.2 hrest
    rw [List.map_cons, List.map_cons, List.foldl_cons]
    constructor
    · intro hk
      rw [List.mem_cons, not_or] at hk
      rw [hout hk.2, hone, if_neg hk.1]
    · intro y hy hk
      rcases List.mem_cons.1 hy with rfl | hy
      · subst hk
        rw [hout hkeys.1, hone, if_pos rfl]
      · have hne : k ≠ x.1.1 := by
          intro heq
          exact hkeys.1 (List.mem_map.2 ⟨y, hy, hk.trans heq⟩)
        rw [hin y hy hk, hone, if_neg hne]

end Collecting

/-! ## The orders and the payments after a collection -/

/-- The order is paid in part, in whole paise, and not more than in full. -/
structure WellPaid (o : Order) : Prop extends InPaise o where
  nonneg : 0 ≤ o.paidAmount
  le : o.paidAmount ≤ o.finalAmount

/-- What the shop's open orders are due. -/
def openDue (db : Db) (u : ℕ) : ℚ :=
  ((db.orders.select (looksAt u)).map fun r => dueOf r.2).sum

/-- The collection `amount` from the shop `u` has been spread from the oldest open order on. -/
structure Exact (u : ℕ) (amount : ℚ) (db t : Db) : Prop where
  /-- An order that is not open stays. -/
  others : ∀ k o, db.orders.get? k = some o → looksAt u o = false → t.orders.get? k = some o
  /-- What the amount covers has been paid. -/
  total : t.orders.total Order.paidAmount =
    db.orders.total Order.paidAmount + min (round2 amount) (openDue db u)
  bounded : ∀ k o, t.orders.get? k = some o → IsShopOrder u o → o.paidAmount ≤ o.finalAmount
  /-- Up to a point the orders are paid in full, and after it they stay.  Only the order at the
  point may now be paid in part. -/
  point : ∃ mark key, ∀ k o, db.orders.get? k = some o → looksAt u o = true → 0 < dueOf o →
    ∃ o', t.orders.get? k = some o' ∧
      (o.createdAt < mark → o'.paidAmount = o.finalAmount ∧ o'.paymentStatus = .paid) ∧
      (mark < o.createdAt → o' = o) ∧
      (o' ≠ o → o'.paymentStatus = .partiallyPaid → k = key ∧ o.createdAt = mark)
  /-- The newest payment of an order that has changed says the same. -/
  payments : ∀ k o, t.orders.get? k = some o → db.orders.get? k ≠ some o →
    ∀ i p, latestPayment t k = some (i, p) → p.amount = o.paidAmount ∧ p.status = o.paymentStatus

section Exact

variable {db : Db} {u : ℕ} {amount : ℚ}

theorem collected_cases {k : ℕ} {o : Order} (h : (collected u amount db).get? k = some o) :
    db.orders.get? k = some o ∨
      ∃ x ∈ takings rowDue amount (Credit.openOrders db u), x.1.1 = k ∧ o = receive x x.1.2 := by
  by_cases hk : k ∈ (takings rowDue amount (Credit.openOrders db u)).map fun x : Taking => x.1.1
  · obtain ⟨x, hx, rfl⟩ := List.mem_map.1 hk
    obtain ⟨hspread, hpos⟩ := mem_takings.1 hx
    rw [get?_collected hspread, if_pos hpos] at h
    exact Or.inr ⟨x, hx, rfl, (Option.some.inj h).symm⟩
  · rw [collected, Table.get?_modifyEach_of_notMem hk] at h
    exact Or.inl h

theorem owed_eq_openDue (h : ∀ k o, db.orders.get? k = some o → IsShopOrder u o → WellPaid o) :
    owed rowDue (Credit.openOrders db u) = openDue db u := by
  have hperm := (perm_openOrders db u).map fun r => dueOf r.2
  rw [openDue, owed, ← hperm.sum_eq]
  refine congrArg List.sum (List.map_congr_left fun r hr => ?_)
  obtain ⟨hget, hshop⟩ := mem_openOrders hr
  exact max_eq_left (sub_nonneg.2 (h r.1 r.2 hget hshop).le)

theorem total_collected (h0 : 0 ≤ amount) : (collected u amount db).total Order.paidAmount =
    db.orders.total Order.paidAmount + min amount (owed rowDue (Credit.openOrders db u)) := by
  have hpaid : ((takings rowDue amount (Credit.openOrders db u)).map fun x : Taking =>
      (receive x x.1.2).paidAmount - x.1.2.paidAmount).sum =
        min amount (owed rowDue (Credit.openOrders db u)) := by
    rw [← sum_snd_takings h0]
    refine congrArg List.sum (List.map_congr_left fun x _ => ?_)
    exact add_sub_cancel_left _ _
  rw [collected, Table.total_modifyEach _ (nodup_takings (nodup_openOrders db u))
    fun x hx => row_of_mem_takings hx, hpaid]

/-- What an order takes, it is due. -/
theorem le_due_of_mem_takings {x : Taking}
    (hx : x ∈ takings rowDue amount (Credit.openOrders db u)) : x.2 ≤ dueOf x.1.2 := by
  obtain ⟨hspread, hpos⟩ := mem_takings.1 hx
  have hmax : x.2 ≤ max (dueOf x.1.2) 0 := le_due_of_mem_spread hspread
  rcases le_max_iff.1 hmax with hdue | hzero
  · exact hdue
  · exact absurd hpos (not_lt.2 hzero)

/-- Of an amount in whole paise, orders in whole paise take whole paise. -/
theorem isCents_of_mem_takings (hc : IsCents amount) (h : ∀ r ∈ Credit.openOrders db u, InPaise r.2)
    {x : Taking} (hx : x ∈ takings rowDue amount (Credit.openOrders db u)) : IsCents x.2 :=
  forall_mem_spread (C := IsCents) (fun _ _ ha hd => ha.min (hd.max isCents_zero))
    (fun _ _ ha hb => ha.sub hb) hc (fun r hr => (h r hr).due) x (mem_takings.1 hx).1

/-- The open orders come in the order in which they were placed. -/
theorem sorted_openOrders (db : Db) (u : ℕ) :
    (Credit.openOrders db u).Pairwise fun a b => a.2.createdAt ≤ b.2.createdAt :=
  List.pairwise_insertionSort _ _

/-- An order that takes all it is due is paid. -/
theorem paid_of_full {r : ℕ × Order}
    (hx : (r, max (rowDue r) 0) ∈ spread rowDue amount (Credit.openOrders db u))
    (hdue : 0 < dueOf r.2) : ∃ o, (collected u amount db).get? r.1 = some o ∧
      o.paidAmount = r.2.finalAmount ∧ o.paymentStatus = .paid := by
  have hall : r.2.paidAmount + max (rowDue r) 0 = r.2.finalAmount := by
    rw [max_eq_left (show 0 ≤ rowDue r from hdue.le), rowDue, dueOf]
    ring
  have hpos : 0 < max (rowDue r) 0 := lt_max_of_lt_left hdue
  exact ⟨_, (get?_collected hx).trans (congrArg some (if_pos hpos)), hall, if_pos hall.ge⟩

/-- An order that takes nothing stays. -/
theorem kept_of_zero {r : ℕ × Order} (hx : (r, 0) ∈ spread rowDue amount (Credit.openOrders db u)) :
    (collected u amount db).get? r.1 = some r.2 :=
  (get?_collected hx).trans (congrArg some (if_neg (lt_irrefl 0)))

theorem point_collected (h0 : 0 ≤ amount) : ∃ mark key, ∀ k o, db.orders.get? k = some o →
    looksAt u o = true → 0 < dueOf o → ∃ o', (collected u amount db).get? k = some o' ∧
      (o.createdAt < mark → o'.paidAmount = o.finalAmount ∧ o'.paymentStatus = .paid) ∧
      (mark < o.createdAt → o' = o) ∧
      (o' ≠ o → o'.paymentStatus = .partiallyPaid → k = key ∧ o.createdAt = mark) := by
  rcases spread_shape rowDue h0 (Credit.openOrders db u) with
    hall | ⟨pre, r, post, hl, rest, -, hshape⟩
  · -- the amount covers everything: the point lies behind all orders
    refine ⟨((Credit.openOrders db u).map fun r => r.2.createdAt).sum + 1, 0,
      fun k o ho hlooks hdue => ?_⟩
    have hmem : (k, o) ∈ Credit.openOrders db u := mem_openOrders_iff.2 ⟨ho, hlooks⟩
    have hle : o.createdAt ≤ ((Credit.openOrders db u).map fun r => r.2.createdAt).sum :=
      List.single_le_sum (by simp) _ (List.mem_map_of_mem hmem)
    obtain ⟨o', hget, hpaid, hstatus⟩ := paid_of_full (hall ▸ List.mem_map_of_mem hmem) hdue
    refine ⟨o', hget, fun _ => ⟨hpaid, hstatus⟩, fun hlt => ?_, fun _ hpart => ?_⟩
    · omega
    · rw [hstatus] at hpart
      cases hpart
  · refine ⟨r.2.createdAt, r.1, fun k o ho hlooks hdue => ?_⟩
    have hsorted := sorted_openOrders db u
    rw [hl, List.pairwise_append, List.pairwise_cons] at hsorted
    obtain ⟨-, ⟨hafter, -⟩, hbefore⟩ := hsorted
    have hmem : (k, o) ∈ Credit.openOrders db u := mem_openOrders_iff.2 ⟨ho, hlooks⟩
    rw [hl, List.mem_append, List.mem_cons] at hmem
    rcases hmem with hpre | rfl | hpost
    · have hle : o.createdAt ≤ r.2.createdAt := hbefore _ hpre r (List.mem_cons_self ..)
      have hx : ((k, o), max (rowDue (k, o)) 0) ∈
          spread rowDue amount (Credit.openOrders db u) := by
        rw [hshape]
        exact List.mem_append_left _ (List.mem_map_of_mem hpre)
      obtain ⟨o', hget, hpaid, hstatus⟩ := paid_of_full hx hdue
      refine ⟨o', hget, fun _ => ⟨hpaid, hstatus⟩, fun hlt => ?_, fun _ hpart => ?_⟩
      · omega
      · rw [hstatus] at hpart
        cases hpart
    · have hx : ((k, o), rest) ∈ spread rowDue amount (Credit.openOrders db u) := by
        rw [hshape]
        exact List.mem_append_right _ (List.mem_cons_self ..)
      exact ⟨_, get?_collected hx, fun hlt => absurd hlt (lt_irrefl _),
        fun hlt => absurd hlt (lt_irrefl _), fun _ _ => ⟨rfl, rfl⟩⟩
    · have hle : r.2.createdAt ≤ o.createdAt := hafter _ hpost
      have hx : ((k, o), 0) ∈ spread rowDue amount (Credit.openOrders db u) := by
        rw [hshape]
        exact List.mem_append_right _ (List.mem_cons_of_mem _ (List.mem_map_of_mem hpost))
      refine ⟨o, kept_of_zero hx, fun hlt => ?_, fun _ => rfl, fun hne => absurd rfl hne⟩
      omega

/-- The payments follow the orders. -/
theorem payment_collected {t : Db} {k i : ℕ} {o : Order} {p : Payment}
    (ht : latestPayment t k = latestPayment (((takings rowDue amount
      (Credit.openOrders db u)).map (applied db)).foldl Credit.writeApplied db) k)
    (ho : (collected u amount db).get? k = some o) (hchanged : db.orders.get? k ≠ some o)
    (hp : latestPayment t k = some (i, p)) :
    p.amount = o.paidAmount ∧ p.status = o.paymentStatus := by
  rcases collected_cases ho with hsame | ⟨x, hx, rfl, rfl⟩
  · exact absurd hsame hchanged
  · have hwrite := (latestPayment_foldl_writeApplied (t := db) _
      (nodup_takings (nodup_openOrders db u)) (fun _ _ => rfl) x.1.1).2 x hx rfl
    rw [ht, hwrite] at hp
    obtain ⟨r, -, hr⟩ := Option.map_eq_some_iff.1 hp
    cases hr
    exact ⟨rfl, rfl⟩

/-- On orders in whole paise that are paid at most in full, a collection of any amount is spread
exactly. -/
theorem allocation_exact (hpos : 0 < amount)
    (h : ∀ k o, db.orders.get? k = some o → IsShopOrder u o → WellPaid o) :
    Exact u amount db
      ((Credit.allocateCollectionToOrders db u amount).foldl Credit.writeApplied db) := by
  have h0 : 0 ≤ round2 amount := round2_nonneg hpos.le
  have hwrites : Credit.allocateCollectionToOrders db u amount =
      (takings rowDue (round2 amount) (Credit.openOrders db u)).map (applied db) := by
    refine allocateFrom_eq (isCents_round2 amount) h0 fun r hr => ?_
    obtain ⟨hget, hshop⟩ := mem_openOrders hr
    exact (h r.1 r.2 hget hshop).toInPaise
  have horders : ((Credit.allocateCollectionToOrders db u amount).foldl
      Credit.writeApplied db).orders = collected u (round2 amount) db := by
    rw [hwrites, orders_foldl_writeApplied]
    rfl
  refine ⟨?_, ?_, ?_, ?_, ?_⟩ <;> rw [horders]
  · exact fun k o ho hnot => get?_collected_of_not ho hnot
  · rw [total_collected h0, owed_eq_openDue h]
  · intro k o ho hshop
    rcases collected_cases ho with hsame | ⟨x, hx, -, rfl⟩
    · exact (h k o hsame hshop).le
    · have hdue := le_due_of_mem_takings hx
      show x.1.2.paidAmount + x.2 ≤ x.1.2.finalAmount
      unfold dueOf at hdue
      linarith
  · exact point_collected h0
  · intro k o ho hchanged i p hp
    exact payment_collected (by rw [hwrites]) ho hchanged hp

end Exact

/-! ## Three orders, and ₹120 -/

/-- An order of shop 3 over ₹100 of which some is paid. -/
def hundred (paid : ℚ) (status : PaymentStatus) (createdAt : ℕ) : Order :=
  { (default : Order) with
    userId := 3, orderType := "b2b_shop_order", finalAmount := 100, paidAmount := paid,
    paymentStatus := status, createdAt }

/-- The oldest, in the last row, is due ₹50, the others ₹100. -/
def threeOrders : Db :=
  { Db.empty with
    orders := .ofList [hundred 0 .pending 2, hundred 0 .processing 3, hundred 50 .partiallyPaid 1] }

theorem allocation_threeOrders : Exact 3 120 threeOrders
    ((Credit.allocateCollectionToOrders threeOrders 3 120).foldl Credit.writeApplied
      threeOrders) := by
  have hrows : threeOrders.orders.All fun o =>
      o.finalAmount = 100 ∧ (o.paidAmount = 0 ∨ o.paidAmount = 50) := by decide +kernel
  refine allocation_exact (by norm_num) fun k o ho _ => ?_
  obtain ⟨hfinal, hpaid⟩ := hrows.get? ho
  rcases hpaid with hpaid | hpaid
  · refine ⟨⟨⟨10000, ?_⟩, ⟨0, ?_⟩⟩, ?_, ?_⟩ <;> norm_num [hfinal, hpaid]
  · refine ⟨⟨⟨10000, ?_⟩, ⟨5000, ?_⟩⟩, ?_, ?_⟩ <;> norm_num [hfinal, hpaid]

/-- The oldest is paid, the one after it in part, and the newest stays. -/
example : (((Credit.allocateCollectionToOrders threeOrders 3 120).foldl Credit.writeApplied
    threeOrders).orders.rows.map fun r => (r.2.paidAmount, r.2.paymentStatus)) =
      [(70, .partiallyPaid), (0, .processing), (100, .paid)] := by decide +kernel

end Allocation

end SweetCrust
