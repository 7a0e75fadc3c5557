import SweetCrust.Lib.Recent
import SweetCrust.StoreOps.CreditDues
import SweetCrust.StoreOps.Purchases

/-!
# What a shop owes: `billing.py`

The summary of a shop's account adds its udhaar to what its orders from the bakery are still due.
An order on credit is in both.

* `summary` — the figures.
* `youOwe_eq` — what the shop is said to owe is its balance and its dues.
* `OwedOnce` — it is what the orders are due, each once.
* `owedOnce_iff` — so it is throughout a run exactly if the shop orders nothing on credit.
-/

namespace SweetCrust

open Tabular Guard Rounding Decimal Runs Spread Allocation Dues

namespace Billing

/-- The times of the rows that keep them in columns of their own, by key, and the text of a
time. -/
structure Stamps where
  purchaseCreated : ℕ → ℕ
  purchasePaid : ℕ → Option ℕ
  ledgerCreated : ℕ → ℕ
  notificationCreated : ℕ → ℕ
  paymentCreated : ℕ → ℕ
  paymentPaid : ℕ → Option ℕ
  /-- `isoformat`. -/
  iso : ℕ → String

variable (stamps : Stamps)

/-- `_profile`: the profile of the shop. -/
def profile (db : Db) (userId : ℕ) : Except AppError RetailerProfile := do
  let r ← orRaise (profileOf db userId) (.notFound "Shop profile not found")
  return r.2

/-! ## Purchase orders as they are shown -/

structure PurchaseLine where
  productId : ℕ
  productName : String
  qty : ℤ
  unitCost : ℚ
  lineTotal : ℚ
  warehouseStockQty : Option ℤ
  supplierAvailableQty : Option ℤ

structure PurchaseOut where
  id : ℕ
  billNo : String
  supplierUserId : ℕ
  shopName : Option String
  productId : ℕ
  productName : String
  qty : ℤ
  unitCost : ℚ
  total : ℚ
  status : PurchaseStatus
  paymentStatus : String
  paidAmount : ℚ
  due : ℚ
  paidAt : Option String
  payMethod : Option String
  note : Option String
  createdAt : String
  payableBalance : ℚ
  warehouseStockQty : Option ℤ
  supplierAvailableQty : Option ℤ
  lines : List PurchaseLine

/-- How a purchase order is paid, in a word. -/
def paymentWord (p : SupplierPurchase) (due : ℚ) : String :=
  if p.status = .rejected then "n/a"
  else if p.status = .pending then "awaiting_accept"
  else if due ≤ 1 / 1000 then "paid"
  else if 0 < p.paidAmount then "partial"
  else if p.status = .received ∨ p.status = .partialPaid then "pending"
  else "unpaid"

/-- `purchase_dict`. -/
def purchaseDict (db : Db) (r : ℕ × SupplierPurchase) : PurchaseOut :=
  let (id, p) := r
  let profile := (profileOf db p.supplierUserId).map Prod.snd
  let product := db.products.get? p.productId
  let due := Purchase.due p
  { id
    billNo := Purchase.billNo id
    supplierUserId := p.supplierUserId
    shopName := profile.map (·.shopName)
    productId := p.productId
    productName := p.productName
    qty := p.qty
    unitCost := p.unitCost
    total := p.total
    status := p.status
    paymentStatus := paymentWord p due
    paidAmount := p.paidAmount
    due
    paidAt := (stamps.purchasePaid id).map stamps.iso
    payMethod := p.payMethod
    note := p.note
    createdAt := stamps.iso (stamps.purchaseCreated id)
    payableBalance := (profile.map (·.payableBalance)).getD 0
    warehouseStockQty := product.map (·.stockQty)
    supplierAvailableQty := product.map (·.supplierAvailableQty)
    lines :=
      [{ productId := p.productId
         productName := p.productName
         qty := p.qty
         unitCost := p.unitCost
         lineTotal := p.total
         warehouseStockQty := product.map (·.stockQty)
         supplierAvailableQty := product.map (·.supplierAvailableQty) }] }

/-- `list_purchases` of a supplier. -/
def listPurchases (db : Db) (supplierUserId : ℕ) : List PurchaseOut :=
  (Recent.latest (fun r => stamps.purchaseCreated r.1) 200
    (db.purchases.select fun p => p.supplierUserId = supplierUserId)).map (purchaseDict stamps db)

/-! ## The summary -/

structure Summary where
  shopName : String
  isWholesaler : Bool
  outstandingBalance : ℚ
  creditLimit : ℚ
  creditRemaining : ℚ
  unpaidB2bOrders : ℕ
  unpaidB2bAmount : ℚ
  payableBalance : ℚ
  supplierDue : ℚ
  youOwe : ℚ
  owesYou : ℚ
  netPosition : ℚ
  pendingSales : ℕ

/-- The shop's orders from the bakery that are not settled. -/
def unpaidOrders (db : Db) (userId : ℕ) : List (ℕ × Order) :=
  db.orders.select fun o => o.userId = userId ∧ o.orderType = OrderType.b2bShopOrder.value ∧
    o.paymentStatus ∈ [PaymentStatus.pending, .partiallyPaid, .processing]

/-- What they are due. -/
def unpaidDue (db : Db) (userId : ℕ) : ℚ :=
  round2 ((unpaidOrders db userId).map fun r => max 0 (r.2.finalAmount - r.2.paidAmount)).sum

/-- What the bakery has still to pay on the shop's purchase orders. -/
def pendingPoDue (db : Db) (userId : ℕ) (p : RetailerProfile) : ℚ :=
  let purchases := if p.isWholesaler then listPurchases stamps db userId else []
  let received := purchases.filter fun o => o.status = .received ∨ o.status = .partialPaid
  round2 (received.map (·.due)).sum

/-- `summary`. -/
def summary (userId : ℕ) (db : Db) : Except AppError Summary := do
  let p ← profile db userId
  let outstanding := p.outstandingBalance
  let due := unpaidDue db userId
  let poDue := pendingPoDue stamps db userId p
  let youOwe := round2 (outstanding + due)
  let owesYou := round2 (max p.payableBalance poDue)
  return {
    shopName := p.shopName
    isWholesaler := p.isWholesaler
    outstandingBalance := outstanding
    creditLimit := p.creditLimit
    creditRemaining := max 0 (round2 (p.creditLimit - outstanding))
    unpaidB2bOrders := (unpaidOrders db userId).length
    unpaidB2bAmount := due
    payableBalance := p.payableBalance
    supplierDue := poDue
    youOwe
    owesYou
    netPosition := round2 (owesYou - youOwe)
    pendingSales :=
      (db.orders.select fun o => o.shopUserId = some userId ∧ o.status = .placed).length }

/-! ## What is owed -/

/-- More is to be paid on the order. -/
def notPaid (o : Order) : Bool := o.paidAmount < o.finalAmount

/-- What the shop's orders that are not fully paid are due. -/
def owing (db : Db) (u : ℕ) : ℚ :=
  (((shopOrders db u).filter fun r => notPaid r.2).map fun r => dueOf r.2).sum

/-- Each rupee that an order is due is owed once, and it is this that the position is worked out
from. -/
def OwedOnce (u : ℕ) (db : Db) : Prop :=
  ∃ s, summary stamps u db = .ok s ∧ s.youOwe = owing db u ∧ s.netPosition = s.owesYou - s.youOwe

/-- The shop does not order on credit what totals more than nothing. -/
def NoDebt (u : ℕ) (db : Db) : Call → Prop
  | .order env _ _ userId phone lines payMode =>
    userId = u → ∀ q, BulkOrders.quote env userId phone lines payMode db = .ok q →
      q.method = .credit → round2 (worth db lines + round2 (worth db lines * (5 / 100))) ≤ 0
  | .collect .. => True

/-- What the code keeps true of an order: it is in whole paise, and open while it is due. -/
structure Counted (o : Order) : Prop extends InPaise o where
  isOpen : o.paidAmount < o.finalAmount →
    o.paymentStatus ∈ [PaymentStatus.pending, .partiallyPaid, .processing]

/-- What the code keeps true of a shop. -/
structure Whole (u : ℕ) (db : Db) : Prop where
  balance : ∃ b, Credit.balanceOf db u = some b ∧ IsCents b
  counted : ∀ r ∈ shopOrders db u, Counted r.2

section State

variable {stamps} {db : Db} {u i : ℕ} {p : RetailerProfile} {b : ℚ}

theorem owing_eq_total (db : Db) (u : ℕ) : owing db u =
    db.orders.total fun o => if decide (IsShopOrder u o) && notPaid o then dueOf o else 0 := by
  rw [← Table.sum_select db.orders (fun o => decide (IsShopOrder u o) && notPaid o) dueOf]
  unfold owing shopOrders Table.select
  rw [List.filter_filter]
  simp only [Bool.and_comm]

/-- An order that is due something is open, and the open orders are due what is not paid. -/
theorem due_open {o : Order} (h : IsShopOrder u o → Counted o) :
    (if looksAt u o then max 0 (dueOf o) else 0) =
      if decide (IsShopOrder u o) && notPaid o then dueOf o else 0 := by
  by_cases hshop : IsShopOrder u o
  · by_cases hdue : o.paidAmount < o.finalAmount
    · have hopen := (h hshop).isOpen hdue
      have hlooks : looksAt u o = true := by
        simpa [looksAt] using ⟨hshop.1, hshop.2, by simpa using hopen⟩
      have hpos : 0 ≤ dueOf o := (sub_pos.2 hdue).le
      simp [hlooks, hshop, notPaid, hdue, max_eq_right hpos]
    · have hneg : dueOf o ≤ 0 := sub_nonpos.2 (not_lt.1 hdue)
      simp [notPaid, hdue, max_eq_left hneg]
  · have hlooks : looksAt u o = false := by
      rw [Bool.eq_false_iff]
      intro hlooks
      simp only [looksAt, decide_eq_true_eq] at hlooks
      exact hshop ⟨hlooks.1, hlooks.2.1⟩
    simp [hlooks, hshop]

theorem isCents_owing (h : ∀ r ∈ shopOrders db u, Counted r.2) : IsCents (owing db u) := by
  refine isCents_sum fun x hx => ?_
  obtain ⟨r, hr, rfl⟩ := List.mem_map.1 hx
  exact (h r (List.mem_of_mem_filter hr)).due

/-- The unpaid orders of the summary are due what the shop's orders are. -/
theorem unpaidDue_eq (h : ∀ r ∈ shopOrders db u, Counted r.2) : unpaidDue db u = owing db u := by
  have hsum : ((unpaidOrders db u).map fun r => max 0 (r.2.finalAmount - r.2.paidAmount)).sum =
      owing db u := by
    rw [owing_eq_total]
    refine (Table.sum_select db.orders (looksAt u) fun o => max 0 (dueOf o)).trans ?_
    refine congrArg List.sum (List.map_congr_left fun r hr => due_open fun hshop => ?_)
    exact h r (List.mem_filter.2 ⟨hr, by simpa using hshop⟩)
  rw [unpaidDue, hsum, round2_of_isCents (isCents_owing h)]

/-- The shop is said to owe its balance and, beside it, all that its orders are due. -/
theorem summary_eq_ok (stamps : Stamps) (h : Whole u db) : ∃ s b, summary stamps u db = .ok s ∧
    Credit.balanceOf db u = some b ∧ s.youOwe = b + owing db u ∧
    s.netPosition = s.owesYou - s.youOwe := by
  obtain ⟨b, hb, hcents⟩ := h.balance
  obtain ⟨r, hr, rfl⟩ := Option.map_eq_some_iff.1 hb
  have hprofile : profile db u = .ok r.2 := by
    rw [profile, hr]
    rfl
  refine ⟨_, r.2.outstandingBalance, by rw [summary, hprofile]; rfl, hb, ?_, ?_⟩
  · show round2 (r.2.outstandingBalance + unpaidDue db u) = _
    rw [unpaidDue_eq h.counted, round2_of_isCents (hcents.add (isCents_owing h.counted))]
  · exact round2_of_isCents ((isCents_round2 _).sub (isCents_round2 _))

/-- In a state that the code has kept, each rupee is owed once exactly if the balance is zero. -/
theorem owedOnce_iff_balance (h : Whole u db) :
    OwedOnce stamps u db ↔ Credit.balanceOf db u = some 0 := by
  obtain ⟨s, b, hs, hb, howe, hnet⟩ := summary_eq_ok stamps h
  rw [hb, Option.some.injEq]
  constructor
  · rintro ⟨s', hs', howe', -⟩
    rw [hs] at hs'
    cases hs'
    linarith
  · rintro rfl
    exact ⟨s, hs, by rw [howe, zero_add], hnet⟩

end State

/-! ## One call -/

section Step

variable {stamps} {db t : Db} {u v : ℕ} {amount : ℚ} {c : Call}

theorem counted_collected (hc : IsCents amount) (ht : t.orders = collected u amount db)
    (h : ∀ r ∈ shopOrders db u, Counted r.2) : ∀ r ∈ shopOrders t u, Counted r.2 := by
  refine forall_collected ht h fun x hx => ?_
  have hbefore := h x.1 (shopOrder_of_mem_takings hx)
  have hshare : IsCents x.2 := by
    refine isCents_of_mem_takings hc (fun r hr => ?_) hx
    exact (h r (shopOrder_of_mem_openOrders hr)).toInPaise
  refine ⟨⟨hbefore.final, hbefore.paid.add hshare⟩, fun hlt => ?_⟩
  have hpart : (receive x x.1.2).paymentStatus = .partiallyPaid := if_neg (not_le.2 hlt)
  rw [hpart]
  decide

theorem whole_congr (horders : shopOrders t u = shopOrders db u)
    (hbalance : Credit.balanceOf t u = Credit.balanceOf db u) (h : Whole u db) : Whole u t :=
  ⟨by rw [hbalance]; exact h.balance, by rw [horders]; exact h.counted⟩

/-- Every call keeps the shop whole. -/
theorem Whole.step (h : Whole u db) (c : Call) : Whole u (step db c) := by
  cases c with
  | order env gateway draws v phone lines payMode =>
    cases hquote : BulkOrders.quote env v phone lines payMode db with
    | error e =>
      rw [step_order_of_error hquote]
      exact h
    | ok q =>
      have hq := BulkOrders.checked_of_quote hquote
      have ht := places gateway draws hquote
      have hrows := shopOrders_of_orders ht hq.user u
      by_cases hv : v = u
      · subst hv
        rw [if_pos rfl] at hrows
        refine ⟨?_, fun r hr => ?_⟩
        · rw [ht.balance]
          split
          · exact ⟨_, rfl, isCents_round2 _⟩
          · exact h.balance
        · rw [hrows, List.mem_append, List.mem_singleton] at hr
          rcases hr with hr | rfl
          · exact h.counted r hr
          · exact ⟨⟨hq.cents, isCents_zero⟩, fun _ => List.mem_cons_self ..⟩
      · rw [if_neg hv, List.append_nil] at hrows
        exact whole_congr hrows (ht.others u fun he => hv he.symm) h
  | collect v amount note method createdBy paymentId =>
    by_cases hacc : ∃ i p, profileOf db v = some (i, p) ∧ Credit.CollectAccepted p amount
    · obtain ⟨i, p, hp, hacc⟩ := hacc
      have ht := collects note method createdBy paymentId hp hacc
      by_cases hv : v = u
      · subst hv
        have horders := orders_of_collects hacc.1.le ht fun r hr =>
          (h.counted r (shopOrder_of_mem_openOrders hr)).toInPaise
        exact ⟨⟨_, ht.balance, isCents_round2 _⟩,
          counted_collected (isCents_round2 amount) horders h.counted⟩
      · exact whole_congr (shopOrders_of_collects ht hv) (ht.others u fun he => hv he.symm) h
    · rw [step_collect_of_not fun i p hp hc => hacc ⟨i, p, hp, hc⟩]
      exact h

/-- A call keeps a balance of zero exactly if it books no debt. -/
theorem balance_step_iff (hzero : Credit.balanceOf db u = some 0) (c : Call) :
    Credit.balanceOf (Dues.step db c) u = some 0 ↔ NoDebt u db c := by
  cases c with
  | order env gateway draws v phone lines payMode =>
    cases hquote : BulkOrders.quote env v phone lines payMode db with
    | error e =>
      rw [step_order_of_error hquote]
      refine iff_of_true hzero ?_
      intro _ q hq
      rw [hquote] at hq
      cases hq
    | ok q =>
      have hq := BulkOrders.checked_of_quote hquote
      have ht := places gateway draws hquote
      by_cases hv : v = u
      · subst hv
        obtain ⟨i, hprofile⟩ := hq.profile
        have hnone : q.profile.outstandingBalance = 0 :=
          Option.some.inj ((Credit.balanceOf_of_profileOf hprofile).symm.trans hzero)
        rw [ht.balance, hnone, zero_add, round2_of_isCents hq.cents, hzero]
        constructor
        · intro hbalance _ q' hq' hcredit
          rw [hquote] at hq'
          cases hq'
          rw [← final_of_quote hquote]
          by_contra hpos
          rw [if_pos ⟨hcredit, not_le.1 hpos⟩, Option.some.injEq] at hbalance
          exact hpos hbalance.le
        · intro hnodebt
          refine if_neg fun hdebit => ?_
          have hle := hnodebt rfl q hquote hdebit.1
          rw [← final_of_quote hquote] at hle
          exact absurd hdebit.2 (not_lt.2 hle)
      · rw [ht.others u fun he => hv he.symm]
        exact iff_of_true hzero fun hu => absurd hu hv
  | collect v amount note method createdBy paymentId =>
    refine iff_of_true ?_ trivial
    by_cases hacc : ∃ i p, profileOf db v = some (i, p) ∧ Credit.CollectAccepted p amount
    · obtain ⟨i, p, hp, hacc⟩ := hacc
      have ht := collects note method createdBy paymentId hp hacc
      by_cases hv : v = u
      · subst hv
        have hnone : p.outstandingBalance = 0 :=
          Option.some.inj ((Credit.balanceOf_of_profileOf hp).symm.trans hzero)
        have hnonneg : 0 ≤ round2 amount := round2_nonneg hacc.1.le
        rw [ht.balance, hnone, round2_zero, zero_sub, max_eq_left (neg_nonpos.2 hnonneg),
          round2_zero]
      · rw [ht.others u fun he => hv he.symm]
        exact hzero
    · rw [step_collect_of_not fun i p hp hc => hacc ⟨i, p, hp, hc⟩]
      exact hzero

end Step

/-! ## Runs -/

section Run

variable {stamps} {db : Db} {u i : ℕ} {p : RetailerProfile}

/-- In every state that a shop without orders and without a balance comes to, each rupee is owed
once exactly if the balance is zero. -/
theorem owedOnce_run_iff (hp : profileOf db u = some (i, p)) (hzero : p.outstandingBalance = 0)
    (hnone : shopOrders db u = []) (cs : List Call) :
    OwedOnce stamps u (run step db cs) ↔ Credit.balanceOf (run step db cs) u = some 0 := by
  refine owedOnce_iff_balance (run_induction (fun s c hs => hs.step c) ⟨?_, ?_⟩ cs)
  · exact ⟨_, Credit.balanceOf_of_profileOf hp, by rw [hzero]; exact isCents_zero⟩
  · rw [hnone]
    simp

/-- From a shop without orders and without a balance, each rupee is owed once after every call of
a run exactly when no order on credit totals more than nothing. -/
theorem owedOnce_iff (hp : profileOf db u = some (i, p)) (hzero : p.outstandingBalance = 0)
    (hnone : shopOrders db u = []) (cs : List Call) :
    Throughout step (OwedOnce stamps u) db cs ↔ Stepwise step (NoDebt u) db cs := by
  have hbalance : Credit.balanceOf db u = some 0 := by
    rw [Credit.balanceOf_of_profileOf hp, hzero]
  have hwhole : Whole u db := ⟨⟨0, hbalance, isCents_zero⟩, by rw [hnone]; simp⟩
  refine throughout_iff_of_inductive (J := fun s => Whole u s ∧ Credit.balanceOf s u = some 0)
    ?_ ?_ ?_ ⟨hwhole, hbalance⟩ cs
  · rintro s ⟨hs, hs0⟩
    exact (owedOnce_iff_balance hs).2 hs0
  · rintro s c ⟨hs, hs0⟩ hc
    exact ⟨hs.step c, (balance_step_iff hs0 c).2 hc⟩
  · rintro s c ⟨hs, hs0⟩ hafter
    exact (balance_step_iff hs0 c).1 ((owedOnce_iff_balance (hs.step c)).1 hafter)

end Run

/-! ## One cake -/

/-- The rows are as old as their keys say. -/
def plainStamps : Stamps where
  purchaseCreated := id
  purchasePaid := fun _ => none
  ledgerCreated := id
  notificationCreated := id
  paymentCreated := id
  paymentPaid := fun _ => none
  iso := fun n => String.ofList (natText n)

theorem upi_owedOnce :
    Throughout step (OwedOnce plainStamps 3) startDb [oneCake "upi" 1, collectCash (1 / 100)] := by
  refine (owedOnce_iff (i := 1) rfl rfl rfl _).2 ?_
  refine stepwise_cons.2 ⟨?_, stepwise_cons.2 ⟨trivial, stepwise_nil _ _⟩⟩
  rintro - q hq hcredit
  have hmethod := (BulkOrders.checked_of_quote hq).mode.2 hcredit
  have hupi : (BulkOrders.quote Payment.plainEnv 3 "9000000000" [⟨1, 1⟩] "upi" startDb).toOption.all
      (fun q => decide (q.mode ≠ "credit")) = true := by decide +kernel
  rw [hq] at hupi
  exact absurd hmethod (of_decide_eq_true hupi)

/-- A cake of ₹105 on credit, and the shop owes ₹210. -/
theorem credit_owedTwice :
    ((summary plainStamps 3 (run step startDb [oneCake "credit" 1])).toOption.map Summary.youOwe) =
        some 210 ∧ owing (run step startDb [oneCake "credit" 1]) 3 = 105 ∧
      ¬ Throughout step (OwedOnce plainStamps 3) startDb [oneCake "credit" 1] := by
  have howe : ((summary plainStamps 3 (run step startDb
      [oneCake "credit" 1])).toOption.map Summary.youOwe) = some 210 := by decide +kernel
  have hdue : owing (run step startDb [oneCake "credit" 1]) 3 = 105 := by decide +kernel
  refine ⟨howe, hdue, fun h => ?_⟩
  obtain ⟨s, hs, hright, -⟩ := h.final
  rw [hs] at howe
  have htwice : s.youOwe = 210 := Option.some.inj howe
  rw [hright, hdue] at htwice
  norm_num at htwice

end Billing

end SweetCrust
