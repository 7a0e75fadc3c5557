import SweetCrust.StoreOps.Allocation
import SweetCrust.StoreOps.BulkOrders
import SweetCrust.StoreOps.Khata

/-!
# The udhaar balance and the dues of the orders on credit

A shop orders in bulk, on credit or otherwise, and the bakery collects from it.  The balance
matches when it is what the shop's orders on credit are still due, and the shop's other
orders are not paid by collections.

An order on credit adds as much to both.  A collection is spread over all unpaid orders of
the shop, oldest first, whatever they are paid with: it is taken off the balance, and pays an
order by UPI or on delivery that happens to be older.  It keeps the balance matching exactly
when it is used up before it reaches one.

* `Matches` — the property.
* `creditDues_collected`, `unpaid_collected_iff` — what a collection does to both halves of it.
* `matches_iff` — the property along a run.
-/

namespace SweetCrust

open Tabular Session Rounding Runs Spread Allocation

namespace Dues

/-- A bulk order, or a collection. -/
inductive Call
  | order (env : Payment.Env) (gateway : Payment.Gateway) (draws : Checkout.Draws) (userId : ℕ)
      (phone : String) (lines : List BulkOrders.BulkLine) (payMode : String)
  | collect (userId : ℕ) (amount : ℚ) (note method : Option String)
      (createdBy paymentId : Option ℕ)

/-- The database after a call. -/
def step (db : Db) : Call → Db
  | .order env gateway draws userId phone lines payMode =>
    final (BulkOrders.createBulkOrder env gateway draws userId phone lines payMode) db
  | .collect userId amount note method createdBy paymentId =>
    Interleave.call Credit.plan db (.collect userId amount note method createdBy paymentId)

/-- The order is paid by khata. -/
def onCredit (o : Order) : Bool := o.paymentMethod = some .credit

/-- The shop's orders from the bakery. -/
def shopOrders (db : Db) (u : ℕ) : List (ℕ × Order) := db.orders.select fun o => IsShopOrder u o

/-- What the shop's orders on credit are due. -/
def creditDues (db : Db) (u : ℕ) : ℚ :=
  (((shopOrders db u).filter fun r => onCredit r.2).map fun r => dueOf r.2).sum

/-- The balance is what the orders on credit are due, and no other order has been paid. -/
structure Matches (u : ℕ) (db : Db) : Prop where
  balance : Credit.balanceOf db u = some (creditDues db u)
  unpaid : ∀ r ∈ shopOrders db u, onCredit r.2 = false → r.2.paidAmount = 0

/-! ## The condition on a call -/

/-- What the lines come to at shop prices. -/
def worth (db : Db) (lines : List BulkOrders.BulkLine) : ℚ :=
  (lines.map fun line => ((db.products.get? line.productId).elim 0 BulkOrders.shopUnitPrice) *
    (line.qty : ℚ)).sum

/-- An order of the shop on credit is not worth less than nothing. -/
def NotNegative (u : ℕ) (db : Db) (env : Payment.Env) (userId : ℕ) (phone : String)
    (lines : List BulkOrders.BulkLine) (payMode : String) : Prop :=
  userId = u → ∀ q, BulkOrders.quote env userId phone lines payMode db = .ok q →
    q.method = .credit → 0 ≤ round2 (worth db lines + round2 (worth db lines * (5 / 100)))

/-- A collection from the shop is used up by the unpaid orders that come before any that is
not on credit. -/
def UsedUp (u : ℕ) (db : Db) (userId : ℕ) (amount : ℚ) : Prop :=
  userId = u → ∀ i p, profileOf db u = some (i, p) → Credit.CollectAccepted p amount →
    ∀ pre r post, Credit.openOrders db u = pre ++ r :: post → onCredit r.2 = false →
      0 < dueOf r.2 → round2 amount ≤ owed (fun r => dueOf r.2) pre

/-- The condition. -/
def Fits (u : ℕ) (db : Db) : Call → Prop
  | .order env _ _ userId phone lines payMode => NotNegative u db env userId phone lines payMode
  | .collect userId amount _ _ _ _ => UsedUp u db userId amount

/-! ## The orders after a collection -/

/-- What the code keeps true of every order of the shop, beside the property. -/
structure Sound (o : Order) : Prop extends InPaise o where
  /-- A collection looks at every order that is due something. -/
  isOpen : o.paidAmount < o.finalAmount →
    o.paymentStatus ∈ [PaymentStatus.pending, .partiallyPaid, .processing]
  credit : onCredit o = true → o.paidAmount ≤ o.finalAmount

section Collecting

variable {db t : Db} {u v : ℕ} {amount : ℚ} {l : List (ℕ × Order)}

/-- The order is one of those that the shop pays by khata. -/
def counts (u : ℕ) (o : Order) : Bool := IsShopOrder u o ∧ onCredit o

theorem creditDues_eq_total (db : Db) (u : ℕ) :
    creditDues db u = db.orders.total fun o => if counts u o then dueOf o else 0 := by
  rw [← Table.sum_select db.orders (counts u) dueOf]
  unfold creditDues shopOrders Table.select
  rw [List.filter_filter]
  refine congrArg (fun l : List (ℕ × Order) => (l.map fun r => dueOf r.2).sum) ?_
  refine List.filter_congr fun r _ => ?_
  simp [counts, Bool.and_comm]

/-- An order pays off what it takes. -/
theorem due_receive (u : ℕ) (x : Taking) :
    (if counts u (receive x x.1.2) then dueOf (receive x x.1.2) else 0) -
      (if counts u x.1.2 then dueOf x.1.2 else 0) = -(if counts u x.1.2 then x.2 else 0) := by
  have hcounts : counts u (receive x x.1.2) = counts u x.1.2 := rfl
  rw [hcounts]
  by_cases h : counts u x.1.2
  · rw [if_pos h, if_pos h, if_pos h]
    show x.1.2.finalAmount - (x.1.2.paidAmount + x.2) - (x.1.2.finalAmount - x.1.2.paidAmount) = _
    ring
  · rw [if_neg h, if_neg h, if_neg h]
    simp

/-- The dues fall by what the orders on credit take. -/
theorem creditDues_collected (h0 : 0 ≤ amount) (ht : t.orders = collected v amount db) (u : ℕ) :
    creditDues t u = creditDues db u -
      taken rowDue (fun r => counts u r.2) amount (Credit.openOrders db v) := by
  rw [creditDues_eq_total, creditDues_eq_total, ht, collected,
    Table.total_modifyEach _ (nodup_takings (nodup_openOrders db v)) fun x hx =>
      row_of_mem_takings hx, ← sum_takings h0, sub_eq_add_neg]
  congr 1
  rw [List.sum_neg, List.map_map]
  exact congrArg List.sum (List.map_congr_left fun x _ => due_receive u x)

/-- An order on credit that a collection does not look at is paid in full. -/
theorem due_looksAt {o : Order} (h : IsShopOrder u o → Sound o) :
    (if counts u o && looksAt u o then max (dueOf o) 0 else 0) =
      if counts u o then dueOf o else 0 := by
  by_cases hcounts : counts u o
  · have hshop : IsShopOrder u o ∧ onCredit o = true := by simpa [counts] using hcounts
    have hle : o.paidAmount ≤ o.finalAmount := (h hshop.1).credit hshop.2
    have hnn : 0 ≤ dueOf o := sub_nonneg.2 hle
    rw [hcounts, Bool.true_and, if_pos rfl]
    by_cases hlooks : looksAt u o
    · rw [if_pos hlooks, max_eq_left hnn]
    · have hpaid : ¬ o.paidAmount < o.finalAmount := by
        intro hlt
        refine hlooks ?_
        simpa [looksAt] using ⟨hshop.1.1, hshop.1.2, by simpa using (h hshop.1).isOpen hlt⟩
      rw [if_neg hlooks, dueOf, le_antisymm hle (not_lt.1 hpaid), sub_self]
  · simp [hcounts]

/-- To the orders on credit that a collection looks at, all is owed that they are due. -/
theorem owed_openOrders (h : ∀ r ∈ shopOrders db u, Sound r.2) :
    owed rowDue ((Credit.openOrders db u).filter fun r => counts u r.2) = creditDues db u := by
  have hperm := ((perm_openOrders db u).filter fun r => counts u r.2).map fun r => max (rowDue r) 0
  have hselect := Table.sum_select db.orders (fun o => counts u o && looksAt u o)
    fun o => max (dueOf o) 0
  rw [owed, hperm.sum_eq, creditDues_eq_total]
  unfold Table.select at hselect ⊢
  rw [List.filter_filter]
  refine hselect.trans (congrArg List.sum (List.map_congr_left fun r hr => ?_))
  exact due_looksAt fun hshop => h r (List.mem_filter.2 ⟨hr, by simpa using hshop⟩)

theorem mem_shopOrders {r : ℕ × Order} :
    r ∈ shopOrders db u ↔ db.orders.get? r.1 = some r.2 ∧ IsShopOrder u r.2 := by
  rw [shopOrders, Table.select, List.mem_filter, decide_eq_true_eq, Table.get?_eq_some]

/-- An order that a collection looks at is one of the shop's. -/
theorem shopOrder_of_mem_openOrders {r : ℕ × Order} (h : r ∈ Credit.openOrders db u) :
    r ∈ shopOrders db u := mem_shopOrders.2 (mem_openOrders h)

theorem forall_shopOrders {P : Order → Prop} :
    (∀ r ∈ shopOrders db u, P r.2) ↔ db.orders.All fun o => IsShopOrder u o → P o := by
  constructor
  · intro h r hr hshop
    exact h r (List.mem_filter.2 ⟨hr, by simpa using hshop⟩)
  · intro h r hr
    obtain ⟨hrow, hshop⟩ := List.mem_filter.1 hr
    exact h r hrow (by simpa using hshop)

/-- Collecting keeps what every order of the shop has, if it is kept where something is
taken. -/
theorem forall_collected {P : Order → Prop} (ht : t.orders = collected u amount db)
    (h : ∀ r ∈ shopOrders db u, P r.2)
    (hkeep : ∀ x ∈ takings rowDue amount (Credit.openOrders db u), P (receive x x.1.2)) :
    ∀ r ∈ shopOrders t u, P r.2 := by
  rw [forall_shopOrders] at h ⊢
  rw [ht]
  exact h.modifyEach (nodup_takings (nodup_openOrders db u)) (fun x hx => row_of_mem_takings hx)
    fun x hx _ => hkeep x hx

theorem shopOrder_of_mem_takings {x : Taking}
    (hx : x ∈ takings rowDue amount (Credit.openOrders db u)) : x.1 ∈ shopOrders db u := by
  exact shopOrder_of_mem_openOrders (fst_mem_of_mem_spread (mem_takings.1 hx).1)

theorem sound_collected (hc : IsCents amount)
    (ht : t.orders = collected u amount db) (h : ∀ r ∈ shopOrders db u, Sound r.2) :
    ∀ r ∈ shopOrders t u, Sound r.2 := by
  refine forall_collected ht h fun x hx => ?_
  have hsound : Sound x.1.2 := h x.1 (shopOrder_of_mem_takings hx)
  have hle : x.2 ≤ dueOf x.1.2 := le_due_of_mem_takings hx
  have hshare : IsCents x.2 := by
    refine isCents_of_mem_takings hc (fun r hr => ?_) hx
    exact (h r (shopOrder_of_mem_openOrders hr)).toInPaise
  refine ⟨⟨hsound.final, hsound.paid.add hshare⟩, fun hlt => ?_, fun _ => ?_⟩
  · have hpart : (receive x x.1.2).paymentStatus = .partiallyPaid := if_neg (not_le.2 hlt)
    rw [hpart]
    decide
  · show x.1.2.paidAmount + x.2 ≤ x.1.2.finalAmount
    unfold dueOf at hle
    linarith

/-- The other orders stay unpaid exactly when they take nothing. -/
theorem unpaid_collected_iff (h0 : 0 ≤ amount) (ht : t.orders = collected u amount db)
    (h : ∀ r ∈ shopOrders db u, onCredit r.2 = false → r.2.paidAmount = 0) :
    (∀ r ∈ shopOrders t u, onCredit r.2 = false → r.2.paidAmount = 0) ↔
      Spares rowDue (fun r => counts u r.2) amount (Credit.openOrders db u) := by
  have hcounts : ∀ r ∈ Credit.openOrders db u, counts u r.2 = onCredit r.2 := by
    intro r hr
    simp [counts, (mem_openOrders hr).2]
  constructor
  · intro hunpaid x hx hp
    rcases (nonneg_of_mem_spread h0 hx).lt_or_eq with hpos | hzero
    · have htakes : x ∈ takings rowDue amount (Credit.openOrders db u) := mem_takings.2 ⟨hx, hpos⟩
      have hcredit : onCredit x.1.2 = false := by
        rw [← hcounts x.1 (fst_mem_of_mem_spread hx)]
        exact hp
      have hget : t.orders.get? x.1.1 = some (receive x x.1.2) := by
        rw [ht]
        exact Table.get?_modifyEach (nodup_takings (nodup_openOrders db u))
          (fun y hy => row_of_mem_takings hy) htakes
      have hbefore := h x.1 (shopOrder_of_mem_takings htakes) hcredit
      have hshop : IsShopOrder u (receive x x.1.2) := (mem_openOrders (fst_mem_of_mem_spread hx)).2
      have hafter : x.1.2.paidAmount + x.2 = 0 :=
        hunpaid (x.1.1, receive x x.1.2) (mem_shopOrders.2 ⟨hget, hshop⟩) hcredit
      rw [hbefore, zero_add] at hafter
      exact hafter
    · exact hzero.symm
  · intro hspares
    refine forall_collected (P := fun o => onCredit o = false → o.paidAmount = 0) ht h ?_
    intro x hx hcredit
    obtain ⟨hspread, hpos⟩ := mem_takings.1 hx
    have hzero : x.2 = 0 :=
      hspares x hspread ((hcounts x.1 (fst_mem_of_mem_spread hspread)).trans hcredit)
    exact absurd hzero hpos.ne'

/-- The others take nothing exactly when the amount is used up before it reaches them. -/
theorem spares_openOrders_iff (h0 : 0 ≤ amount) :
    Spares rowDue (fun r => counts u r.2) amount (Credit.openOrders db u) ↔
      ∀ pre r post, Credit.openOrders db u = pre ++ r :: post → onCredit r.2 = false →
        0 < dueOf r.2 → amount ≤ owed (fun r => dueOf r.2) pre := by
  rw [spares_iff h0]
  refine forall_congr' fun pre => forall_congr' fun r => forall_congr' fun post =>
    forall_congr' fun hl => ?_
  have hmem : r ∈ Credit.openOrders db u := by
    rw [hl]
    simp
  have hcounts : counts u r.2 = onCredit r.2 := by simp [counts, (mem_openOrders hmem).2]
  rw [hcounts]
  rfl

/-- A collection that the others take nothing of is taken off the dues, as far as there are
any. -/
theorem creditDues_of_spares (h0 : 0 ≤ amount) (ht : t.orders = collected u amount db)
    (h : ∀ r ∈ shopOrders db u, Sound r.2)
    (hspares : Spares rowDue (fun r => counts u r.2) amount (Credit.openOrders db u)) :
    creditDues t u = max 0 (creditDues db u - amount) := by
  rw [creditDues_collected h0 ht, sum_of_spares h0 hspares, owed_openOrders h]
  rcases le_total amount (creditDues db u) with hle | hle
  · rw [min_eq_left hle, max_eq_right (sub_nonneg.2 hle)]
  · rw [min_eq_right hle, sub_self, max_eq_left (sub_nonpos.2 hle)]

end Collecting

/-! ## What a call does to one shop -/

section Calls

variable {db t : Db} {u v i : ℕ} {p : RetailerProfile} {amount : ℚ} {note method : Option String}
  {createdBy paymentId : Option ℕ} {env : Payment.Env} {gateway : Payment.Gateway}
  {draws : Checkout.Draws} {phone payMode : String} {lines : List BulkOrders.BulkLine}
  {q : BulkOrders.Quote}

/-- What an accepted collection from the shop `v` writes. -/
structure Collects (v : ℕ) (p : RetailerProfile) (amount : ℚ) (db t : Db) : Prop where
  orders : t.orders = ((Credit.allocateFrom db (round2 amount) (Credit.openOrders db v)).foldl
    Credit.writeApplied db).orders
  balance : Credit.balanceOf t v =
    some (round2 (max 0 (round2 p.outstandingBalance - round2 amount)))
  others : ∀ u, u ≠ v → Credit.balanceOf t u = Credit.balanceOf db u

theorem collects (note method : Option String) (createdBy paymentId : Option ℕ)
    (hp : profileOf db v = some (i, p)) (hacc : Credit.CollectAccepted p amount) :
    Collects v p amount db (step db (.collect v amount note method createdBy paymentId)) := by
  obtain ⟨write, hplan⟩ : ∃ write,
      Credit.creditPayment v amount note method createdBy paymentId db = .ok write :=
    ⟨_, Credit.creditPayment_eq_ok.2 ⟨i, p, hp, hacc, rfl⟩⟩
  have hstep : step db (.collect v amount note method createdBy paymentId) = write db :=
    Interleave.call_of_ok hplan
  obtain ⟨j, q, hq, -, rfl⟩ := Credit.creditPayment_eq_ok.1 hplan
  rw [hp] at hq
  cases hq
  have hbase := Credit.foldl_writeApplied
    (Credit.allocateCollectionToOrders db v (round2 amount)) db
  rw [hstep]
  refine ⟨?_, (Credit.posted hp hbase rfl).1, fun u hu =>
    (Credit.posted_of_ne hp hbase rfl hu.symm).1⟩
  have hspread : Credit.allocateCollectionToOrders db v (round2 amount) =
      Credit.allocateFrom db (round2 amount) (Credit.openOrders db v) := by
    unfold Credit.allocateCollectionToOrders
    rw [round2_round2]
  rw [← hspread]
  rfl

theorem step_collect_of_not
    (h : ∀ i p, profileOf db v = some (i, p) → ¬ Credit.CollectAccepted p amount) :
    step db (.collect v amount note method createdBy paymentId) = db := by
  rcases Interleave.call_cases Credit.plan db (.collect v amount note method createdBy paymentId)
    with ⟨e, -, hcall⟩ | ⟨write, hwrite, -⟩
  · exact hcall
  · obtain ⟨i, p, hp, hacc, -⟩ := Credit.creditPayment_eq_ok.1 hwrite
    exact absurd hacc (h i p hp)

/-- What a checked order of the shop `v` writes. -/
structure Orders (v : ℕ) (q : BulkOrders.Quote) (draws : Checkout.Draws) (db t : Db) : Prop where
  orders : t.orders = db.orders.insert (BulkOrders.orderOf draws q)
  balance : Credit.balanceOf t v =
    if q.method = .credit ∧ 0 < q.final then
      some (round2 (q.profile.outstandingBalance + q.final))
    else Credit.balanceOf db v
  others : ∀ u, u ≠ v → Credit.balanceOf t u = Credit.balanceOf db u

theorem places (gateway : Payment.Gateway) (draws : Checkout.Draws)
    (h : BulkOrders.quote env v phone lines payMode db = .ok q) :
    Orders v q draws db (step db (.order env gateway draws v phone lines payMode)) := by
  obtain ⟨horders, hprofiles⟩ := BulkOrders.final_createBulkOrder gateway draws h
  obtain ⟨i, hi⟩ := (BulkOrders.checked_of_quote h).profile
  have hwrite := hprofiles i hi
  by_cases hdebit : q.method = .credit ∧ 0 < q.final
  · rw [if_pos hdebit] at hwrite
    refine ⟨horders, ?_, fun u hu => ?_⟩
    · rw [if_pos hdebit, Credit.balanceOf, step, profileOf_modify hi hwrite fun p => rfl]
      rfl
    · rw [Credit.balanceOf, step, profileOf_modify_of_ne hi hwrite (fun p => rfl) hu]
      rfl
  · rw [if_neg hdebit] at hwrite
    have hsame : ∀ u, Credit.balanceOf
        (step db (.order env gateway draws v phone lines payMode)) u = Credit.balanceOf db u := by
      intro u
      unfold Credit.balanceOf profileOf step
      rw [hwrite]
    exact ⟨horders, by rw [if_neg hdebit, hsame], fun u _ => hsame u⟩

theorem step_order_of_error {e : AppError}
    (h : BulkOrders.quote env v phone lines payMode db = .error e) :
    step db (.order env gateway draws v phone lines payMode) = db :=
  BulkOrders.final_createBulkOrder_of_error h

/-! ### The shop's own orders -/

/-- Two databases with the same orders of the shop and the same balance. -/
theorem matches_congr (horders : shopOrders t u = shopOrders db u)
    (hbalance : Credit.balanceOf t u = Credit.balanceOf db u) : Matches u t ↔ Matches u db := by
  have hdues : creditDues t u = creditDues db u := by rw [creditDues, creditDues, horders]
  constructor
  · rintro ⟨h1, h2⟩
    exact ⟨by rw [← hbalance, h1, hdues], by rwa [horders] at h2⟩
  · rintro ⟨h1, h2⟩
    exact ⟨by rw [hbalance, h1, hdues], by rwa [horders]⟩

theorem mem_allocateFrom {db' : Db} {l : List (ℕ × Order)} {a : Credit.Applied}
    (h : a ∈ Credit.allocateFrom db' amount l) : ∃ r ∈ l, r.1 = a.orderId := by
  induction l generalizing amount with
  | nil => exact absurd h (by simp [Credit.allocateFrom_nil])
  | cons r l ih =>
    obtain ⟨key, order⟩ := r
    rw [Credit.allocateFrom_cons] at h
    simp only at h
    by_cases hleft : amount ≤ 1 / 1000
    · rw [if_pos hleft] at h
      exact absurd h (by simp)
    rw [if_neg hleft] at h
    split at h
    · obtain ⟨s, hs, hkey⟩ := ih h
      exact ⟨s, List.mem_cons_of_mem _ hs, hkey⟩
    · rcases List.mem_cons.1 h with rfl | h
      · exact ⟨_, List.mem_cons_self .., rfl⟩
      · obtain ⟨s, hs, hkey⟩ := ih h
        exact ⟨s, List.mem_cons_of_mem _ hs, hkey⟩

/-- Writing to another shop's orders. -/
theorem shopOrders_foldl_writeApplied (as : List Credit.Applied)
    (h : ∀ a ∈ as, ∀ o, db.orders.get? a.orderId = some o → ¬ IsShopOrder u o) :
    shopOrders (as.foldl Credit.writeApplied db) u = shopOrders db u := by
  induction as generalizing db with
  | nil => rfl
  | cons a as ih =>
    have hmodify : (Credit.writeApplied db a).orders = db.orders.modify a.orderId fun o =>
        { o with paidAmount := a.paidAmount, paymentStatus := a.paymentStatus } := rfl
    have hone : shopOrders (Credit.writeApplied db a) u = shopOrders db u := by
      unfold shopOrders
      rw [hmodify]
      refine Table.select_modify_of_not fun o ho => ?_
      have hnot := h a (List.mem_cons_self ..) o ho
      exact ⟨decide_eq_false hnot, decide_eq_false hnot⟩
    rw [List.foldl_cons, ih, hone]
    intro b hb o ho
    rw [hmodify, Table.get?_modify] at ho
    by_cases hkey : b.orderId = a.orderId
    · rw [if_pos hkey] at ho
      obtain ⟨o', ho', rfl⟩ := Option.map_eq_some_iff.1 ho
      exact h b (List.mem_cons_of_mem a hb) o' ho'
    · rw [if_neg hkey] at ho
      exact h b (List.mem_cons_of_mem a hb) o ho

/-- A collection from another shop. -/
theorem shopOrders_of_collects {p : RetailerProfile} (ht : Collects v p amount db t)
    (hne : v ≠ u) : shopOrders t u = shopOrders db u := by
  unfold shopOrders
  rw [ht.orders]
  refine shopOrders_foldl_writeApplied _ fun a ha o ho => ?_
  obtain ⟨r, hr, hkey⟩ := mem_allocateFrom ha
  obtain ⟨hget, hshop⟩ := mem_openOrders hr
  rw [← hkey, hget] at ho
  cases ho
  exact fun hu => hne (hshop.1.symm.trans hu.1)

/-- The orders after a collection from the shop. -/
theorem orders_of_collects {p : RetailerProfile} (h0 : 0 ≤ amount) (ht : Collects u p amount db t)
    (h : ∀ r ∈ Credit.openOrders db u, InPaise r.2) :
    t.orders = collected u (round2 amount) db := by
  rw [ht.orders, allocateFrom_eq (isCents_round2 amount) (round2_nonneg h0) h,
    orders_foldl_writeApplied]
  rfl

/-- An order of a shop. -/
theorem shopOrders_of_orders (ht : Orders v q draws db t) (hq : q.userId = v) (u : ℕ) :
    shopOrders t u = shopOrders db u ++
      if v = u then [(db.orders.next, BulkOrders.orderOf draws q)] else [] := by
  unfold shopOrders
  rw [ht.orders, Table.select_insert]
  congr 1
  refine if_congr ?_ rfl rfl
  simp [IsShopOrder, BulkOrders.orderOf, hq]

end Calls

/-! ## One call, and a run -/

section Runs

variable {db t : Db} {u v i : ℕ} {p : RetailerProfile} {amount : ℚ} {env : Payment.Env}
  {draws : Checkout.Draws} {phone payMode : String} {lines : List BulkOrders.BulkLine}
  {q : BulkOrders.Quote}

/-- The property, with what the code keeps true beside it. -/
structure Kept (u : ℕ) (db : Db) : Prop where
  holds : Matches u db
  sound : ∀ r ∈ shopOrders db u, Sound r.2

theorem kept_congr (horders : shopOrders t u = shopOrders db u)
    (hbalance : Credit.balanceOf t u = Credit.balanceOf db u) (h : Kept u db) : Kept u t :=
  ⟨(matches_congr horders hbalance).2 h.holds, by rw [horders]; exact h.sound⟩

theorem Kept.cents (h : Kept u db) : IsCents (creditDues db u) := by
  refine isCents_sum fun x hx => ?_
  obtain ⟨r, hr, rfl⟩ := List.mem_map.1 hx
  exact (h.sound r (List.mem_of_mem_filter hr)).due

theorem Kept.balance (h : Kept u db) (hp : profileOf db u = some (i, p)) :
    p.outstandingBalance = creditDues db u :=
  Option.some.inj ((Credit.balanceOf_of_profileOf hp).symm.trans h.holds.balance)

/-- A collection from the shop keeps the property exactly when the others take nothing. -/
theorem kept_collects (h : Kept u db) (hp : profileOf db u = some (i, p))
    (hacc : Credit.CollectAccepted p amount) (ht : Collects u p amount db t) :
    (Matches u t → Spares rowDue (fun r => counts u r.2) (round2 amount)
        (Credit.openOrders db u)) ∧
      (Spares rowDue (fun r => counts u r.2) (round2 amount) (Credit.openOrders db u) →
        Kept u t) := by
  have h0 : 0 ≤ round2 amount := round2_nonneg hacc.1.le
  have hc : IsCents (round2 amount) := isCents_round2 amount
  have hopen : ∀ r ∈ Credit.openOrders db u, Sound r.2 := by
    intro r hr
    exact h.sound r (shopOrder_of_mem_openOrders hr)
  have horders : t.orders = collected u (round2 amount) db :=
    orders_of_collects hacc.1.le ht fun r hr => (hopen r hr).toInPaise
  have hunpaid := unpaid_collected_iff h0 horders h.holds.unpaid
  refine ⟨fun hm => hunpaid.1 hm.unpaid, fun hspares => ⟨⟨?_, hunpaid.2 hspares⟩,
    sound_collected hc horders h.sound⟩⟩
  have hround : round2 p.outstandingBalance = creditDues db u := by
    rw [h.balance hp, round2_of_isCents h.cents]
  rw [ht.balance, creditDues_of_spares h0 horders h.sound hspares, hround,
    round2_of_isCents (isCents_zero.max (h.cents.sub hc))]

/-- What an order of the shop adds to the dues. -/
theorem creditDues_of_orders (ht : Orders u q draws db t) (hq : q.userId = u) :
    creditDues t u = creditDues db u + if q.method = .credit then q.final else 0 := by
  have hcredit : onCredit (BulkOrders.orderOf draws q) = decide (q.method = .credit) := by
    simp [onCredit, BulkOrders.orderOf]
  unfold creditDues
  rw [shopOrders_of_orders ht hq, if_pos rfl, List.filter_append, List.map_append, List.sum_append]
  congr 1
  by_cases h : q.method = .credit
  · rw [List.filter_cons_of_pos (by simpa [hcredit] using h), if_pos h]
    simp [dueOf, BulkOrders.orderOf]
  · rw [List.filter_cons_of_neg (by simpa [hcredit] using h), if_neg h]
    rfl

/-- An order of the shop keeps the property exactly when it does not total less than nothing
on credit. -/
theorem kept_orders (h : Kept u db) (hq : BulkOrders.Checked db u q) (ht : Orders u q draws db t) :
    (Matches u t → q.method = .credit → 0 ≤ q.final) ∧
      ((q.method = .credit → 0 ≤ q.final) → Kept u t) := by
  have hdues := creditDues_of_orders ht hq.user
  have hbalance := ht.balance
  obtain ⟨i, hprofile⟩ := hq.profile
  rw [h.balance hprofile, round2_of_isCents (h.cents.add hq.cents), h.holds.balance] at hbalance
  constructor
  · intro hm hcredit
    by_contra hneg
    have hnot : ¬ (q.method = .credit ∧ 0 < q.final) := fun hc => hneg hc.2.le
    rw [if_neg hnot, hm.balance, hdues, if_pos hcredit] at hbalance
    have hzero : q.final = 0 := by
      have := Option.some.inj hbalance
      linarith
    exact hneg hzero.ge
  · intro hnn
    have hrows := shopOrders_of_orders ht hq.user u
    rw [if_pos rfl] at hrows
    refine ⟨⟨?_, ?_⟩, ?_⟩
    · rw [hbalance, hdues]
      by_cases hcredit : q.method = .credit
      · rw [if_pos hcredit]
        rcases (hnn hcredit).lt_or_eq with hpos | hzero
        · rw [if_pos ⟨hcredit, hpos⟩]
        · rw [if_neg fun hc => hc.2.ne hzero, ← hzero, add_zero]
      · rw [if_neg fun hc => hcredit hc.1, if_neg hcredit, add_zero]
    · intro r hr hother
      rw [hrows, List.mem_append, List.mem_singleton] at hr
      rcases hr with hr | rfl
      · exact h.holds.unpaid r hr hother
      · rfl
    · intro r hr
      rw [hrows, List.mem_append, List.mem_singleton] at hr
      rcases hr with hr | rfl
      · exact h.sound r hr
      · refine ⟨⟨hq.cents, isCents_zero⟩, fun _ => List.mem_cons_self .., fun hcredit => hnn ?_⟩
        simpa [onCredit, BulkOrders.orderOf] using hcredit

/-! ### What the lines are worth -/

theorem worth_of_buildLine {line : BulkOrders.BulkLine} {b : BulkOrders.Built}
    (h : BulkOrders.buildLine db line = .ok b) :
    b.unit * (b.qty : ℚ) =
      ((db.products.get? line.productId).elim 0 BulkOrders.shopUnitPrice) * (line.qty : ℚ) := by
  unfold BulkOrders.buildLine at h
  rw [Guard.orRaise_bind_eq_ok] at h
  obtain ⟨product, hproduct, h⟩ := h
  obtain ⟨-, h⟩ := Guard.raiseIf_bind_eq_ok.1 h
  cases Guard.pure_eq_ok.1 h
  rw [(Option.filter_eq_some_iff.1 hproduct).1]
  rfl

theorem worth_of_built {built : List BulkOrders.Built}
    (h : lines.mapM (BulkOrders.buildLine db) = .ok built) :
    (built.map fun b => b.unit * (b.qty : ℚ)).sum = worth db lines := by
  induction lines generalizing built with
  | nil =>
    cases h
    rfl
  | cons line lines ih =>
    rw [List.mapM_cons] at h
    obtain ⟨b, hb, h⟩ := Guard.bind_eq_ok.1 h
    obtain ⟨bs, hbs, h⟩ := Guard.bind_eq_ok.1 h
    cases Guard.pure_eq_ok.1 h
    rw [List.map_cons, List.sum_cons, ih hbs, worth_of_buildLine hb]
    rfl

theorem final_of_quote (h : BulkOrders.quote env v phone lines payMode db = .ok q) :
    q.final = round2 (worth db lines + round2 (worth db lines * (5 / 100))) := by
  unfold BulkOrders.quote at h
  obtain ⟨-, ⟨i, profile⟩, -, -, -, -, -, h⟩ := by
    simpa only [Guard.raiseIf_bind_eq_ok, Guard.orRaise_bind_eq_ok] using h
  obtain ⟨built, hbuilt, h⟩ := Guard.bind_eq_ok.1 h
  obtain ⟨method, -, h⟩ := Guard.bind_eq_ok.1 h
  cases Guard.pure_eq_ok.1 h
  rw [← worth_of_built hbuilt]

/-! ### The run -/

theorem kept_step (db : Db) (c : Call) (h : Kept u db) (hfits : Fits u db c) :
    Kept u (step db c) := by
  cases c with
  | order env gateway draws v phone lines payMode =>
    cases hquote : BulkOrders.quote env v phone lines payMode db with
    | error e =>
      rw [step_order_of_error hquote]
      exact h
    | ok q =>
      have hq := BulkOrders.checked_of_quote hquote
      have ht := places gateway draws hquote
      by_cases hv : v = u
      · subst hv
        refine (kept_orders h hq ht).2 fun hcredit => ?_
        rw [final_of_quote hquote]
        exact hfits rfl q hquote hcredit
      · have hrows := shopOrders_of_orders ht hq.user u
        rw [if_neg hv, List.append_nil] at hrows
        exact kept_congr hrows (ht.others u fun he => hv he.symm) h
  | collect v amount note method createdBy paymentId =>
    by_cases hacc : ∃ i p, profileOf db v = some (i, p) ∧ Credit.CollectAccepted p amount
    · obtain ⟨i, p, hp, hacc⟩ := hacc
      have ht := collects note method createdBy paymentId hp hacc
      by_cases hv : v = u
      · subst hv
        refine (kept_collects h hp hacc ht).2 ?_
        exact (spares_openOrders_iff (round2_nonneg hacc.1.le)).2 (hfits rfl i p hp hacc)
      · exact kept_congr (shopOrders_of_collects ht hv) (ht.others u fun he => hv he.symm) h
    · rw [step_collect_of_not fun i p hp hc => hacc ⟨i, p, hp, hc⟩]
      exact h

theorem fits_of_matches (db : Db) (c : Call) (h : Kept u db) (hm : Matches u (step db c)) :
    Fits u db c := by
  cases c with
  | order env gateway draws v phone lines payMode =>
    rintro rfl q hquote hcredit
    have ht := places gateway draws hquote
    rw [← final_of_quote hquote]
    exact (kept_orders h (BulkOrders.checked_of_quote hquote) ht).1 hm hcredit
  | collect v amount note method createdBy paymentId =>
    rintro rfl i p hp hacc
    have ht := collects note method createdBy paymentId hp hacc
    exact (spares_openOrders_iff (round2_nonneg hacc.1.le)).1 ((kept_collects h hp hacc ht).1 hm)

/-- From a shop without orders and without a balance, the balance matches after every call of
a run exactly when no order on credit totals less than nothing and every collection is used
up before it reaches an order that is not on credit. -/
theorem matches_iff (hp : profileOf db u = some (i, p)) (hzero : p.outstandingBalance = 0)
    (hnone : shopOrders db u = []) (cs : List Call) :
    Throughout step (Matches u) db cs ↔ Stepwise step (Fits u) db cs := by
  have hdues : creditDues db u = 0 := by rw [creditDues, hnone]; rfl
  have hkept : Kept u db := by
    refine ⟨⟨?_, ?_⟩, ?_⟩
    · rw [Credit.balanceOf_of_profileOf hp, hzero, hdues]
    · rw [hnone]
      simp
    · rw [hnone]
      simp
  exact throughout_iff_of_inductive (fun s hs => hs.holds) kept_step fits_of_matches hkept cs

end Runs

/-! ## An order by UPI before one on credit -/

/-- A shop that may buy on credit, and a cake at ₹100. -/
def startDb : Db :=
  { Db.empty with
    profiles := .ofList
      [{ (default : RetailerProfile) with
          userId := 3, approvalStatus := "approved", creditAllowed := true, creditLimit := 5000 }]
    products := .ofList
      [{ (default : Product) with
          name := "Cake", sellingPrice := 100, isActive := true, minOrderQty := 1 }] }

/-- One cake, which comes to ₹105. -/
def oneCake (payMode : String) (createdAt : ℕ) : Call :=
  .order Payment.plainEnv ⟨fun _ => .error "", fun _ => .error ""⟩ ⟨"SC-1", "TXN-1", createdAt⟩ 3
    "9000000000" [⟨1, 1⟩] payMode

/-- Cash is collected from the shop. -/
def collectCash (amount : ℚ) : Call := .collect 3 amount none (some "cash") none none

theorem matches_credit_orders :
    Throughout step (Matches 3) startDb [oneCake "credit" 1, collectCash 50] := by
  refine (matches_iff (i := 1) rfl rfl rfl _).2 ?_
  refine stepwise_cons.2 ⟨?_, stepwise_cons.2 ⟨?_, stepwise_nil _ _⟩⟩
  · rintro - q - -
    decide +kernel
  · rintro - i p - - pre r post hopen hother
    have hall : ∀ r ∈ Credit.openOrders (step startDb (oneCake "credit" 1)) 3,
        onCredit r.2 = true := by decide +kernel
    have hcredit := hall r (by rw [hopen]; simp)
    rw [hother] at hcredit
    cases hcredit

/-- A cake by UPI, another on credit, and ₹105 collected: nothing is owed any more, the order
on credit is due in full, and the one by UPI is paid. -/
theorem upi_order_collected :
    let db := run step startDb [oneCake "upi" 1, oneCake "credit" 2, collectCash 105]
    Credit.balanceOf db 3 = some 0 ∧ creditDues db 3 = 105 ∧
      (shopOrders db 3).map (fun r => (r.2.paymentMethod, r.2.paidAmount)) =
        [(some .upi, 105), (some .credit, 0)] ∧
      ¬ Throughout step (Matches 3) startDb
        [oneCake "upi" 1, oneCake "credit" 2, collectCash 105] := by
  intro db
  have hbalance : Credit.balanceOf db 3 = some 0 := by decide +kernel
  have hdues : creditDues db 3 = 105 := by decide +kernel
  refine ⟨hbalance, hdues, by decide +kernel, fun h => ?_⟩
  have hmatch := h.final.balance
  rw [hbalance, hdues] at hmatch
  exact absurd hmatch (by decide)

end Dues

end SweetCrust
