import SweetCrust.Lib.Grouping
import SweetCrust.Sell.Subscription
import SweetCrust.StoreOps.Billing

/-!
# The payment history of a shop: `payment_history`

A shop sees its money by the day: its sell plans, what it paid the bakery and owes it, what the
bakery paid it and owes it, and what its customers paid.

* `paymentHistory` — the entries, their days and their totals.
* `Grouped` — every entry is in the group of its day, and in no other.
* `moneyReceived`, `surplus` — the money that has come in, and what the history counts besides.
* `cash_iff` — the history counts the money that has come in exactly if the surplus is nothing.
* `refund_counted` — a payment that is paid back, or being processed, is counted.
-/

namespace SweetCrust

open Tabular Guard Rounding Decimal Text Grouping

namespace Billing

/-! ## Entries -/

/-- Where the money of an entry goes: `in`, `out`, `due` or `due_in`. -/
inductive Direction
  | inward | out | due | dueIn
  deriving DecidableEq

inductive HistoryLine
  | bought (line : PurchaseLine)
  | sold (productName : String) (qty : ℤ) (unitPrice lineTotal : ℚ)

/-- The further fields of an entry, by its source. -/
inductive Extra
  | nothing
  | plan (cadence : String) (expiresAt : Option String)
  | ledger (balanceAfter : ℚ) (orderId : Option ℕ)
  | paid (billNo productName : String) (due : ℚ)
  | due (billNo : String) (total paidAmount : ℚ)
  | order (orderId : ℕ) (orderNumber : String)

structure HistoryEntry where
  id : String
  source : String
  purpose : String
  kind : String
  title : String
  amount : ℚ
  direction : Direction
  status : String
  note : Option String
  createdAt : Option String
  day : Option String
  lines : List HistoryLine
  extra : Extra

/-- `_add`: the entry that is appended. -/
def entry (eid source purpose title : String) (amount : ℚ) (direction : Direction)
    (status : String) (createdAt note : Option String) (lines : List HistoryLine)
    (extra : Extra) : HistoryEntry where
  id := eid
  source := source
  purpose := purpose
  kind := purpose
  title := title
  amount := round2 amount
  direction := direction
  status := status
  note := note
  createdAt := createdAt
  day := truthy (some (String.ofList ((createdAt.getD "").toList.take 10)))
  lines := lines
  extra := extra

variable (stamps : Stamps)

def keyText (text : String) (key : ℕ) : String := text ++ String.ofList (natText key)

/-- The entry of a paid sell plan, of a notification that tells of one. -/
def planEntry (r : ℕ × Notification) : Option HistoryEntry := do
  let data ← r.2.data
  let bill ← data.subscription
  return entry (keyText "sub-" r.1) "subscription" "subscription"
    ((truthy (some r.2.title)).getD "Sell subscription") (data.amount.getD 0) .out "paid"
    (some (stamps.iso bill.paidAt)) (some r.2.body) []
    (.plan bill.cadence (some (stamps.iso bill.expiresAt)))

/-- The entry of the current plan. -/
def currentPlan (db : Db) (p : RetailerProfile) : HistoryEntry :=
  let expiresAt := p.sellSubscriptionExpiresAt
  let cadence := String.ofList (lower ((truthy p.sellPlan).getD "monthly").toList)
  entry "sub-current" "subscription" "subscription" ("Sell plan · " ++ cadence)
    ((Sell.planPrices db).of cadence) .out "active" (expiresAt.map stamps.iso)
    (some (match expiresAt with
      | some time => "Active until " ++ Sell.isoDate time
      | none => "Active sell plan")) []
    (.plan cadence (expiresAt.map stamps.iso))

/-- The sell plans, or the current one if there is no payment of one. -/
def planEntries (db : Db) (userId : ℕ) (p : RetailerProfile) : List HistoryEntry :=
  let notes := Recent.latest (fun r => stamps.notificationCreated r.1) 50
    (db.notifications.select fun n => n.userId = userId ∧ n.type = .payment)
  let paid := notes.filterMap (planEntry stamps)
  if paid.isEmpty ∧ p.sellSubscriptionStatus = "approved" then [currentPlan stamps db p] else paid

/-- The entry of a row of the khata ledger; adjustments have none. -/
def ledgerEntry (r : ℕ × CreditLedgerEntry) : Option HistoryEntry :=
  let createdAt := some (stamps.iso (stamps.ledgerCreated r.1))
  match r.2.entryType with
  | .credit => some (entry (keyText "ledger-" r.1) "bakery" "bakery_payment" "Paid to bakery"
      r.2.amount .out "paid" createdAt r.2.note [] (.ledger r.2.balanceAfter r.2.orderId))
  | .debit => some (entry (keyText "ledger-" r.1) "bakery" "bakery_bill" "Bakery bill (udhaar)"
      r.2.amount .due "due" createdAt r.2.note [] (.ledger r.2.balanceAfter r.2.orderId))
  | .adjustment => none

/-- `list_ledger`. -/
def listLedger (db : Db) (userId limit : ℕ) : List (ℕ × CreditLedgerEntry) :=
  Recent.latest (fun r => stamps.ledgerCreated r.1) limit
    (db.ledger.select fun e => e.retailerUserId = userId)

def ledgerEntries (db : Db) (userId : ℕ) : List HistoryEntry :=
  (listLedger stamps db userId 200).filterMap (ledgerEntry stamps)

def paidEntry (p : PurchaseOut) : HistoryEntry :=
  entry (keyText "po-paid-" p.id) "admin" "admin_payment" ("Admin paid · " ++ p.billNo)
    p.paidAmount .inward (if p.due ≤ 1 / 1000 then "paid" else "partial")
    (p.paidAt.or (some p.createdAt)) (some ((truthy p.payMethod).getD "admin"))
    (p.lines.map .bought) (.paid p.billNo p.productName p.due)

def dueEntry (p : PurchaseOut) : HistoryEntry :=
  entry (keyText "po-due-" p.id) "admin" "admin_due" ("Due from bakery · " ++ p.billNo)
    p.due .dueIn "due" (some p.createdAt) (some p.productName)
    (p.lines.map .bought) (.due p.billNo p.total p.paidAmount)

/-- The entries of a purchase order: what is paid, and what is due. -/
def purchaseEntries (p : PurchaseOut) : List HistoryEntry :=
  (if 0 < p.paidAmount then [paidEntry p] else []) ++
    if 1 / 1000 < p.due ∧ p.status ≠ .rejected then [dueEntry p] else []

/-- The entry of a payment of an order.  It is skipped if it is pending or failed; no payment is
`cancelled`. -/
def paymentEntries (order : ℕ × Order) (lines : List HistoryLine) (r : ℕ × Payment) :
    List HistoryEntry :=
  if r.2.status ∈ [PaymentStatus.pending, .failed] then []
  else
    let time := (stamps.paymentPaid r.1).getD (stamps.paymentCreated r.1)
    [entry (keyText "pay-" r.1) "customer" "customer_payment"
      ("Customer paid · " ++ order.2.orderNumber) r.2.amount .inward "paid"
      (some (stamps.iso time)) (some ((r.2.method.map PaymentMethod.value).getD "")) lines
      (.order order.1 order.2.orderNumber)]

/-- The entries of an order that customers placed with the shop. -/
def orderEntries (db : Db) (order : ℕ × Order) : List HistoryEntry :=
  let lines := (db.orderItems.select fun i => i.orderId = order.1).map fun r =>
    HistoryLine.sold r.2.productName r.2.quantity r.2.unitPrice r.2.totalPrice
  let pays := (db.payments.select fun p => p.orderId = order.1).insertionSort
    fun a b => stamps.paymentCreated b.1 ≤ stamps.paymentCreated a.1
  pays.flatMap (paymentEntries stamps order lines)

def customerEntries (db : Db) (userId : ℕ) : List HistoryEntry :=
  (Recent.latest (fun r : ℕ × Order => r.2.createdAt) 100
    (db.orders.select fun o => o.shopUserId = some userId)).flatMap (orderEntries stamps db)

/-- What the shop owes the bakery. -/
def outstandingEntries (p : RetailerProfile) : List HistoryEntry :=
  if 1 / 1000 < p.outstandingBalance then
    [entry "due-bakery-outstanding" "bakery" "bakery_due" "Outstanding to bakery"
      p.outstandingBalance .due "due" none
      (some ("Credit left " ++ Credit.rupees (max 0 (p.creditLimit - p.outstandingBalance)))) []
      .nothing]
  else []

/-! ## Days and totals -/

/-- `e.get("day") or "open"`. -/
def dayName (e : HistoryEntry) : String := e.day.getD "open"

/-- `_day_key`. -/
def dayKey (day : String) : String := if day = "open" then "0000-00-00" else day

/-- The entries that go in a direction, added up. -/
def directed (entries : List HistoryEntry) (d : Direction) : ℚ :=
  ((entries.filter fun e => e.direction = d).map HistoryEntry.amount).sum

structure HistoryDay where
  date : String
  net : ℚ
  count : ℕ
  entries : List HistoryEntry

structure HistoryTotals where
  inward : ℚ
  out : ℚ
  cashNet : ℚ
  dues : ℚ
  subscription : ℚ

structure History where
  days : List HistoryDay
  entries : List HistoryEntry
  totalEntries : ℕ
  totals : HistoryTotals

/-- What an entry adds to the total of its day. -/
def cash (e : HistoryEntry) : ℚ :=
  match e.direction with
  | .inward => e.amount
  | .out => -e.amount
  | _ => 0

/-- The days of the entries, the latest first and the open one last. -/
def dayNames (entries : List HistoryEntry) : List String :=
  (Recent.firsts (entries.map dayName)).insertionSort fun a b => dayKey b ≤ dayKey a

def daysOf (entries : List HistoryEntry) : List HistoryDay :=
  (dayNames entries).map fun day =>
    let own := group dayName entries day
    { date := day, net := round2 (own.map cash).sum, count := own.length, entries := own }

def totalsOf (entries : List HistoryEntry) : HistoryTotals :=
  let moneyIn := round2 (directed entries .inward)
  let moneyOut := round2 (directed entries .out)
  { inward := moneyIn
    out := moneyOut
    cashNet := round2 (moneyIn - moneyOut)
    dues := round2 ((entries.filter fun e => e.direction ∈ [Direction.due, .dueIn]).map
      HistoryEntry.amount).sum
    subscription := round2 ((entries.filter fun e => e.purpose = "subscription").map
      HistoryEntry.amount).sum }

/-- The entries of a shop, the latest first. -/
def historyEntries (db : Db) (userId : ℕ) (p : RetailerProfile) : List HistoryEntry :=
  (planEntries stamps db userId p ++ ledgerEntries stamps db userId ++
    (listPurchases stamps db userId).flatMap purchaseEntries ++ customerEntries stamps db userId ++
    outstandingEntries p).insertionSort fun a b => b.createdAt.getD "" ≤ a.createdAt.getD ""

/-- `payment_history`. -/
def paymentHistory (userId : ℕ) (db : Db) : Except AppError History := do
  let p ← profile db userId
  let entries := historyEntries stamps db userId p
  return ⟨daysOf entries, entries, entries.length, totalsOf entries⟩

/-! ## What is received -/

/-- The payments of the orders that customers placed with the shop. -/
def shopPayments (db : Db) (userId : ℕ) : List Payment :=
  (db.orders.select fun o => o.shopUserId = some userId).flatMap fun r =>
    (db.payments.select fun p => p.orderId = r.1).map Prod.snd

/-- The purchase orders that the bakery placed with the shop. -/
def shopPurchases (db : Db) (userId : ℕ) : List SupplierPurchase :=
  (db.purchases.select fun p => p.supplierUserId = userId).map Prod.snd

/-- What has come in with a payment; of one that is paid in part, as much as `part` says. -/
def received (part : Payment → ℚ) (p : Payment) : ℚ :=
  match p.status with
  | .pending | .processing | .failed => 0
  | .paid => p.amount
  | .partiallyPaid => part p
  | .refunded | .partiallyRefunded => p.amount - p.refundAmount

/-- The money that the shop has received. -/
def moneyReceived (part : Payment → ℚ) (db : Db) (userId : ℕ) : ℚ :=
  ((shopPurchases db userId).map SupplierPurchase.paidAmount).sum +
    ((shopPayments db userId).map (received part)).sum

/-- What the history counts of a payment besides what has come in. -/
def paymentSurplus (part : Payment → ℚ) (p : Payment) : ℚ :=
  match p.status with
  | .pending | .failed => 0
  | .processing => round2 p.amount
  | .paid => round2 p.amount - p.amount
  | .partiallyPaid => round2 p.amount - part p
  | .refunded | .partiallyRefunded => round2 p.amount - p.amount + p.refundAmount

/-- What the history counts of a purchase order besides what is paid. -/
def purchaseSurplus (p : SupplierPurchase) : ℚ :=
  (if 0 < p.paidAmount then round2 p.paidAmount else 0) - p.paidAmount

/-- What the history counts besides the money that the shop has received. -/
def surplus (part : Payment → ℚ) (db : Db) (userId : ℕ) : ℚ :=
  ((shopPurchases db userId).map purchaseSurplus).sum +
    ((shopPayments db userId).map (paymentSurplus part)).sum

/-- The money of a shop is in whole paise, and none of it is negative. -/
structure Coined (part : Payment → ℚ) (db : Db) (userId : ℕ) : Prop where
  purchases : ∀ p ∈ shopPurchases db userId, IsCents p.paidAmount ∧ 0 ≤ p.paidAmount
  amounts : ∀ p ∈ shopPayments db userId, IsCents p.amount ∧ 0 ≤ p.amount
  refunds : ∀ p ∈ shopPayments db userId, 0 ≤ p.refundAmount
  parts : ∀ p ∈ shopPayments db userId, part p ≤ p.amount

/-- Nothing is being processed, refunded or paid in part. -/
def AllCash (part : Payment → ℚ) (db : Db) (userId : ℕ) : Prop :=
  ∀ p ∈ shopPayments db userId,
    match p.status with
    | .pending | .failed | .paid => True
    | .processing => p.amount = 0
    | .partiallyPaid => part p = p.amount
    | .refunded | .partiallyRefunded => p.refundAmount = 0

/-- Every entry is in the group of its day, and in no other. -/
structure Grouped (h : History) : Prop where
  dates : (h.days.map HistoryDay.date).Nodup
  own : ∀ d ∈ h.days, d.entries = h.entries.filter fun e => dayName e = d.date
  all : (h.days.flatMap HistoryDay.entries).Perm h.entries

section Sums

variable {es fs : List HistoryEntry} {d : Direction} {α : Type}

theorem directed_append : directed (es ++ fs) d = directed es d + directed fs d := by
  simp [directed]

theorem directed_perm (h : es.Perm fs) : directed es d = directed fs d :=
  ((h.filter _).map _).sum_eq

theorem directed_flatMap (l : List α) (f : α → List HistoryEntry) :
    directed (l.flatMap f) d = (l.map fun a => directed (f a) d).sum := by
  induction l with
  | nil => rfl
  | cons a l ih => rw [List.flatMap_cons, directed_append, ih, List.map_cons, List.sum_cons]

theorem directed_eq_zero (h : ∀ e ∈ es, e.direction ≠ d) : directed es d = 0 := by
  have hnone : es.filter (fun e => e.direction = d) = [] :=
    List.filter_eq_nil_iff.2 fun e he => by simpa using h e he
  rw [directed, hnone]
  rfl

theorem isCents_directed (h : ∀ e ∈ es, IsCents e.amount) : IsCents (directed es d) := by
  refine isCents_sum fun x hx => ?_
  obtain ⟨e, he, rfl⟩ := List.mem_map.1 hx
  exact h e (List.mem_filter.1 he).1

/-- The money of the entries is what comes in less what goes out. -/
theorem sum_cash (es : List HistoryEntry) :
    (es.map cash).sum = directed es .inward - directed es .out := by
  induction es with
  | nil => exact (sub_zero 0).symm
  | cons e es ih =>
    rw [List.map_cons, List.sum_cons, ih]
    cases hd : e.direction <;> simp [cash, directed, hd] <;> ring

theorem isCents_cash {e : HistoryEntry} (h : IsCents e.amount) : IsCents (cash e) := by
  unfold cash
  cases e.direction with
  | inward => exact h
  | out => simpa using isCents_zero.sub h
  | due => exact isCents_zero
  | dueIn => exact isCents_zero

end Sums

/-! ## What the entries are -/

section Entries

variable {stamps : Stamps} {db : Db} {u : ℕ} {p : RetailerProfile} {e : HistoryEntry}

/-- A sell plan is paid out. -/
theorem planEntries_out (he : e ∈ planEntries stamps db u p) :
    e.direction = .out ∧ IsCents e.amount := by
  unfold planEntries at he
  dsimp only at he
  split_ifs at he
  · rw [List.mem_singleton] at he
    rw [he]
    exact ⟨rfl, isCents_round2 _⟩
  · obtain ⟨r, _, hr⟩ := List.mem_filterMap.1 he
    simp only [planEntry, Option.bind_eq_bind, Option.bind_eq_some_iff, Option.pure_def,
      Option.some.injEq] at hr
    obtain ⟨data, _, bill, _, rfl⟩ := hr
    exact ⟨rfl, isCents_round2 _⟩

/-- The khata ledger pays nothing in. -/
theorem ledgerEntries_ne (he : e ∈ ledgerEntries stamps db u) :
    e.direction ≠ .inward ∧ IsCents e.amount := by
  obtain ⟨r, _, hr⟩ := List.mem_filterMap.1 he
  unfold ledgerEntry at hr
  cases htype : r.2.entryType with
  | debit =>
    simp only [htype, Option.some.injEq] at hr
    rw [← hr]
    exact ⟨Direction.noConfusion, isCents_round2 _⟩
  | credit =>
    simp only [htype, Option.some.injEq] at hr
    rw [← hr]
    exact ⟨Direction.noConfusion, isCents_round2 _⟩
  | adjustment =>
    simp only [htype] at hr
    cases hr

theorem outstandingEntries_ne (he : e ∈ outstandingEntries p) :
    e.direction ≠ .inward ∧ IsCents e.amount := by
  unfold outstandingEntries at he
  split_ifs at he
  · rw [List.mem_singleton] at he
    rw [he]
    exact ⟨Direction.noConfusion, isCents_round2 _⟩
  · cases he

theorem isCents_purchaseEntries {out : PurchaseOut} (he : e ∈ purchaseEntries out) :
    IsCents e.amount := by
  unfold purchaseEntries at he
  rcases List.mem_append.1 he with he | he
  · split_ifs at he
    · rw [List.mem_singleton] at he
      rw [he]
      exact isCents_round2 _
    · cases he
  · split_ifs at he
    · rw [List.mem_singleton] at he
      rw [he]
      exact isCents_round2 _
    · cases he

/-- What is paid of a purchase order comes in. -/
theorem directed_purchaseEntries (out : PurchaseOut) :
    directed (purchaseEntries out) .inward =
      if 0 < out.paidAmount then round2 out.paidAmount else 0 := by
  have hdue : directed (if 1 / 1000 < out.due ∧ out.status ≠ .rejected then [dueEntry out]
      else []) .inward = 0 := by
    split_ifs <;> rfl
  unfold purchaseEntries
  rw [directed_append, hdue, add_zero]
  split_ifs
  · exact add_zero _
  · rfl

theorem isCents_paymentEntries {order : ℕ × Order} {lines : List HistoryLine} {r : ℕ × Payment}
    (he : e ∈ paymentEntries stamps order lines r) : IsCents e.amount := by
  unfold paymentEntries at he
  dsimp only at he
  split_ifs at he
  · cases he
  · rw [List.mem_singleton] at he
    rw [he]
    exact isCents_round2 _

/-- What the history counts of a payment. -/
theorem directed_paymentEntries (part : Payment → ℚ) (order : ℕ × Order)
    (lines : List HistoryLine) (r : ℕ × Payment) :
    directed (paymentEntries stamps order lines r) .inward =
      received part r.2 + paymentSurplus part r.2 := by
  unfold paymentEntries received paymentSurplus
  cases hst : r.2.status with
  | pending => exact (add_zero 0).symm
  | failed => exact (add_zero 0).symm
  | processing =>
    show round2 r.2.amount + 0 = 0 + round2 r.2.amount
    ring
  | paid =>
    show round2 r.2.amount + 0 = r.2.amount + (round2 r.2.amount - r.2.amount)
    ring
  | partiallyPaid =>
    show round2 r.2.amount + 0 = part r.2 + (round2 r.2.amount - part r.2)
    ring
  | refunded =>
    show round2 r.2.amount + 0 = r.2.amount - r.2.refundAmount +
      (round2 r.2.amount - r.2.amount + r.2.refundAmount)
    ring
  | partiallyRefunded =>
    show round2 r.2.amount + 0 = r.2.amount - r.2.refundAmount +
      (round2 r.2.amount - r.2.amount + r.2.refundAmount)
    ring

theorem directed_orderEntries (part : Payment → ℚ) (order : ℕ × Order) :
    directed (orderEntries stamps db order) .inward =
      (((db.payments.select fun p => p.orderId = order.1).map Prod.snd).map
        fun p => received part p + paymentSurplus part p).sum := by
  unfold orderEntries
  rw [directed_flatMap, List.map_map]
  exact (((List.perm_insertionSort _ _).map _).sum_eq).trans
    (congrArg List.sum (List.map_congr_left fun r _ => directed_paymentEntries part order _ r))

/-- The payments of the shop's orders, of which there are not too many. -/
theorem directed_customerEntries (part : Payment → ℚ)
    (horders : (db.orders.select fun o => o.shopUserId = some u).length ≤ 100) :
    directed (customerEntries stamps db u) .inward =
      ((shopPayments db u).map fun p => received part p + paymentSurplus part p).sum := by
  unfold customerEntries shopPayments
  rw [directed_flatMap, ((Recent.perm_latest horders).map _).sum_eq, List.map_flatMap,
    List.flatMap_def, List.sum_flatten, List.map_map]
  exact congrArg List.sum (List.map_congr_left fun r _ => directed_orderEntries part r)

/-- The purchase orders of the shop, of which there are not too many. -/
theorem directed_purchases
    (hpurchases : (db.purchases.select fun p => p.supplierUserId = u).length ≤ 200) :
    directed ((listPurchases stamps db u).flatMap purchaseEntries) .inward =
      ((shopPurchases db u).map fun p => p.paidAmount + purchaseSurplus p).sum := by
  unfold listPurchases shopPurchases
  rw [directed_flatMap, List.map_map, ((Recent.perm_latest hpurchases).map _).sum_eq, List.map_map]
  refine congrArg List.sum (List.map_congr_left fun r _ => ?_)
  show directed (purchaseEntries (purchaseDict stamps db r)) .inward = _
  rw [directed_purchaseEntries]
  show (if 0 < r.2.paidAmount then round2 r.2.paidAmount else 0) = _
  simp only [Function.comp_apply, purchaseSurplus]
  ring

theorem isCents_historyEntries (he : e ∈ historyEntries stamps db u p) : IsCents e.amount := by
  simp only [historyEntries, List.mem_insertionSort, List.mem_append] at he
  rcases he with (((he | he) | he) | he) | he
  · exact (planEntries_out he).2
  · exact (ledgerEntries_ne he).2
  · obtain ⟨out, _, he⟩ := List.mem_flatMap.1 he
    exact isCents_purchaseEntries he
  · obtain ⟨order, _, he⟩ := List.mem_flatMap.1 he
    obtain ⟨r, _, he⟩ := List.mem_flatMap.1 he
    exact isCents_paymentEntries he
  · exact (outstandingEntries_ne he).2

/-- The history counts what is received, and the surplus. -/
theorem directed_historyEntries (part : Payment → ℚ)
    (horders : (db.orders.select fun o => o.shopUserId = some u).length ≤ 100)
    (hpurchases : (db.purchases.select fun p => p.supplierUserId = u).length ≤ 200) :
    directed (historyEntries stamps db u p) .inward =
      moneyReceived part db u + surplus part db u := by
  have hplans : directed (planEntries stamps db u p) .inward = 0 :=
    directed_eq_zero fun e he => by
      rw [(planEntries_out he).1]
      exact Direction.noConfusion
  have hledger : directed (ledgerEntries stamps db u) .inward = 0 :=
    directed_eq_zero fun e he => (ledgerEntries_ne he).1
  have hopen : directed (outstandingEntries p) .inward = 0 :=
    directed_eq_zero fun e he => (outstandingEntries_ne he).1
  unfold historyEntries
  rw [directed_perm (List.perm_insertionSort _ _), directed_append, directed_append,
    directed_append, directed_append, hplans, hledger, hopen, directed_purchases hpurchases,
    directed_customerEntries part horders, List.sum_map_add, List.sum_map_add]
  unfold moneyReceived surplus
  ring

end Entries

/-! ## Days and totals add up -/

section Totals

variable {stamps : Stamps} {db : Db} {u : ℕ} {part : Payment → ℚ} {es : List HistoryEntry}

theorem nodup_dayNames (es : List HistoryEntry) : (dayNames es).Nodup :=
  (List.perm_insertionSort _ _).nodup_iff.2 (Recent.nodup_firsts _)

theorem dayName_mem {e : HistoryEntry} (he : e ∈ es) : dayName e ∈ dayNames es := by
  rw [dayNames, List.mem_insertionSort, Recent.mem_firsts]
  exact List.mem_map_of_mem he

theorem grouped_daysOf (es : List HistoryEntry) (n : ℕ) (totals : HistoryTotals) :
    Grouped ⟨daysOf es, es, n, totals⟩ := by
  have hdates : (daysOf es).map HistoryDay.date = dayNames es := by
    rw [daysOf, List.map_map]
    exact List.map_id _
  have hentries : (daysOf es).flatMap HistoryDay.entries =
      (dayNames es).flatMap (group dayName es) := by
    rw [daysOf, List.flatMap_map]
  refine ⟨?_, fun d hd => ?_, ?_⟩
  · rw [hdates]
    exact nodup_dayNames es
  · obtain ⟨day, _, rfl⟩ := List.mem_map.1 hd
    rfl
  · rw [hentries]
    exact perm_groups (nodup_dayNames es) fun e he => dayName_mem he

/-- The nets of the days add up to the net of the whole. -/
theorem sum_nets (h : ∀ e ∈ es, IsCents e.amount) :
    ((daysOf es).map HistoryDay.net).sum = (totalsOf es).cashNet := by
  have hin : IsCents (directed es .inward) := isCents_directed h
  have hout : IsCents (directed es .out) := isCents_directed h
  have hnets : (daysOf es).map HistoryDay.net =
      (dayNames es).map fun day => ((group dayName es day).map cash).sum := by
    rw [daysOf, List.map_map]
    refine List.map_congr_left fun day _ => round2_of_isCents (isCents_sum fun x hx => ?_)
    obtain ⟨e, he, rfl⟩ := List.mem_map.1 hx
    exact isCents_cash (h e (mem_group.1 he).1)
  calc ((daysOf es).map HistoryDay.net).sum
      = (es.map cash).sum := by
        rw [hnets]
        exact sum_groups (nodup_dayNames es) (fun e he => dayName_mem he) cash
    _ = directed es .inward - directed es .out := sum_cash es
    _ = (totalsOf es).cashNet := by
        simp only [totalsOf]
        rw [round2_of_isCents hin, round2_of_isCents hout, round2_of_isCents (hin.sub hout)]

/-- Of money in whole paise the history counts too much, never too little. -/
theorem paymentSurplus_nonneg (h : Coined part db u) {p : Payment} (hp : p ∈ shopPayments db u) :
    0 ≤ paymentSurplus part p := by
  obtain ⟨hcents, hnonneg⟩ := h.amounts p hp
  have hrefund := h.refunds p hp
  have hpart := h.parts p hp
  unfold paymentSurplus
  cases p.status <;> simp only [round2_of_isCents hcents] <;> linarith

theorem purchaseSurplus_eq_zero (h : Coined part db u) {p : SupplierPurchase}
    (hp : p ∈ shopPurchases db u) : purchaseSurplus p = 0 := by
  obtain ⟨hcents, hnonneg⟩ := h.purchases p hp
  unfold purchaseSurplus
  split_ifs with hpos
  · rw [round2_of_isCents hcents, sub_self]
  · rw [le_antisymm (not_lt.1 hpos) hnonneg, sub_self]

/-- There is no surplus exactly if nothing is being processed, refunded or paid in part. -/
theorem surplus_eq_zero_iff (h : Coined part db u) : surplus part db u = 0 ↔ AllCash part db u := by
  have hpurchases : ((shopPurchases db u).map purchaseSurplus).sum = 0 := by
    refine List.sum_eq_zero fun x hx => ?_
    obtain ⟨p, hp, rfl⟩ := List.mem_map.1 hx
    exact purchaseSurplus_eq_zero h hp
  have hone : ∀ p ∈ shopPayments db u, paymentSurplus part p = 0 ↔
      match p.status with
      | .pending | .failed | .paid => True
      | .processing => p.amount = 0
      | .partiallyPaid => part p = p.amount
      | .refunded | .partiallyRefunded => p.refundAmount = 0 := by
    intro p hp
    have hcents := (h.amounts p hp).1
    unfold paymentSurplus
    cases p.status <;> simp only [round2_of_isCents hcents, sub_self, zero_add]
    exact sub_eq_zero.trans eq_comm
  unfold surplus AllCash
  rw [hpurchases, zero_add]
  constructor
  · intro hsum p hp
    rw [← hone p hp]
    refine List.all_zero_of_le_zero_le_of_sum_eq_zero (fun x hx => ?_) hsum
      (List.mem_map_of_mem hp)
    obtain ⟨q, hq, rfl⟩ := List.mem_map.1 hx
    exact paymentSurplus_nonneg h hq
  · intro hall
    refine List.sum_eq_zero fun x hx => ?_
    obtain ⟨p, hp, rfl⟩ := List.mem_map.1 hx
    exact (hone p hp).2 (hall p hp)

/-- The history of a shop is grouped by day, its nets add up, and it counts the money that has
come in exactly if there is no surplus: of money in whole paise, exactly if nothing is being
processed, refunded or paid in part. -/
theorem cash_iff {r : ℕ × RetailerProfile} (hprofile : profileOf db u = some r)
    (horders : (db.orders.select fun o => o.shopUserId = some u).length ≤ 100)
    (hpurchases : (db.purchases.select fun p => p.supplierUserId = u).length ≤ 200)
    (stamps : Stamps) (part : Payment → ℚ) :
    ∃ h, paymentHistory stamps u db = .ok h ∧ Grouped h ∧
      (h.days.map HistoryDay.net).sum = h.totals.cashNet ∧
      (h.totals.inward = moneyReceived part db u ↔ surplus part db u = 0) ∧
      (Coined part db u → (surplus part db u = 0 ↔ AllCash part db u)) := by
  set es := historyEntries stamps db u r.2 with hes
  have hcents : ∀ e ∈ es, IsCents e.amount := fun e he => isCents_historyEntries he
  have hrun : paymentHistory stamps u db = .ok ⟨daysOf es, es, es.length, totalsOf es⟩ := by
    simp only [paymentHistory, profile, hprofile]
    rfl
  have hin : (totalsOf es).inward = moneyReceived part db u + surplus part db u := by
    simp only [totalsOf]
    rw [round2_of_isCents (isCents_directed hcents), hes,
      directed_historyEntries part horders hpurchases]
  refine ⟨_, hrun, grouped_daysOf _ _ _, sum_nets hcents, ?_, surplus_eq_zero_iff⟩
  rw [show (totalsOf es).inward = _ from hin]
  exact add_eq_left

end Totals

/-! ## A cake that is paid back -/

/-- The payment of a cake, ₹105. -/
def cakePayment (status : PaymentStatus) (refundAmount : ℚ) : Payment :=
  { (default : Payment) with
    orderId := 1, userId := 2, amount := 105, status := status, refundAmount := refundAmount }

/-- A shop, user 1, with the order and the payment of a customer. -/
def cakePaid (payment : Payment) : Db :=
  { Db.empty with
    profiles := .ofList [{ (default : RetailerProfile) with userId := 1 }]
    orders := .ofList [{ (default : Order) with userId := 2, shopUserId := some 1 }]
    payments := .ofList [payment] }

/-- The order is paid, paid again and that paid back by an amount, and paid in part. -/
def cakeMix (back : ℚ) : Db :=
  { cakePaid default with
    payments := .ofList
      [cakePayment .paid 0, cakePayment .refunded back, cakePayment .partiallyPaid 0] }

/-- The history counts the money where nothing was paid back and the part has come in in full, and
not where 50 were paid back. -/
theorem paid_cash :
    (∃ h, paymentHistory plainStamps 1 (cakeMix 0) = .ok h ∧
      h.totals.inward = moneyReceived (fun _ => 105) (cakeMix 0) 1) ∧
    ∃ h, paymentHistory plainStamps 1 (cakeMix 50) = .ok h ∧
      h.totals.inward ≠ moneyReceived (fun _ => 40) (cakeMix 50) 1 := by
  have hprofile : ∀ back, profileOf (cakeMix back) 1 =
      some (1, { (default : RetailerProfile) with userId := 1 }) := fun _ => rfl
  have hpays : ∀ back, shopPayments (cakeMix back) 1 =
      [cakePayment .paid 0, cakePayment .refunded back, cakePayment .partiallyPaid 0] :=
    fun _ => rfl
  have hpurchases : ∀ back, shopPurchases (cakeMix back) 1 = [] := fun _ => rfl
  have hmem : ∀ {back : ℚ} {p : Payment}, p ∈ shopPayments (cakeMix back) 1 →
      p = cakePayment .paid 0 ∨ p = cakePayment .refunded back ∨
        p = cakePayment .partiallyPaid 0 := by
    intro back p hp
    rw [hpays] at hp
    simpa using hp
  have hmoney : ∀ back part : ℚ, 0 ≤ back → part ≤ 105 →
      Coined (fun _ => part) (cakeMix back) 1 := by
    intro back part hback hpart
    refine ⟨?_, fun p hp => ?_, fun p hp => ?_, fun p hp => ?_⟩
    · rw [hpurchases]
      exact fun p hp => absurd hp List.not_mem_nil
    · have hamount : p.amount = 105 := by
        obtain rfl | rfl | rfl := hmem hp <;> rfl
      rw [hamount]
      exact ⟨⟨10500, by norm_num⟩, by norm_num⟩
    · obtain rfl | rfl | rfl := hmem hp
      · exact le_rfl
      · exact hback
      · exact le_rfl
    · obtain rfl | rfl | rfl := hmem hp <;> exact hpart
  constructor
  · obtain ⟨h, hrun, -, -, hiff, hcash⟩ := cash_iff (hprofile 0) (by decide +kernel)
      (by decide +kernel) plainStamps fun _ => 105
    refine ⟨h, hrun, hiff.2 ((hcash (hmoney 0 105 le_rfl le_rfl)).2 fun p hp => ?_)⟩
    obtain rfl | rfl | rfl := hmem hp
    · trivial
    · rfl
    · rfl
  · obtain ⟨h, hrun, -, -, hiff, hcash⟩ := cash_iff (hprofile 50) (by decide +kernel)
      (by decide +kernel) plainStamps fun _ => 40
    refine ⟨h, hrun, fun heq => ?_⟩
    have hall := (hcash (hmoney 50 40 (by norm_num) (by norm_num))).1 (hiff.1 heq)
    have hback : (50 : ℚ) = 0 := hall (cakePayment .refunded 50) (by simp [hpays])
    norm_num at hback

/-- Nothing is left of a payment that is paid back, or has come in of one that is being processed,
and the history counts both. -/
theorem refund_counted :
    (paymentHistory plainStamps 1 (cakePaid (cakePayment .refunded 105))).toOption.map
        (fun h => h.totals.inward) = some 105 ∧
      moneyReceived Payment.amount (cakePaid (cakePayment .refunded 105)) 1 = 0 ∧
      (paymentHistory plainStamps 1 (cakePaid (cakePayment .processing 0))).toOption.map
        (fun h => h.totals.inward) = some 105 ∧
      moneyReceived Payment.amount (cakePaid (cakePayment .processing 0)) 1 = 0 := by
  decide +kernel

end Billing

end SweetCrust
