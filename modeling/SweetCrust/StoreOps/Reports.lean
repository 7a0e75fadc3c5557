import SweetCrust.Checkout.Money
import SweetCrust.Lib.Grouping
import SweetCrust.Lib.Recent
import SweetCrust.Lib.RunningTotal

/-!
# The admin's reports: `reports`

The report of a day, a week or a month: what was sold, what it cost, and what each rider, customer
and retailer has brought.  The lines of the orders are gone through three times, for the cost of
the goods, for the riders and for the customers.

Amounts are exact here, and what is said of them is for orders in whole paise: there each sum of
floats rounds to the exact one.

* `reports` — the figures.
* `Reconciles` — the profit is that of the sales, a line has one cost, and the customers make up
  the whole.
* `Coined`, `AddUp` — orders in whole paise that add up.
* `reconciles_iff` — exactly when the report of such orders reconciles.
* `discount_uncounted` — the profit of a cake that is sold at a discount.
-/

namespace SweetCrust

open Tabular Rounding Text Decimal Grouping

namespace Reports

/-- The columns that the rows leave out, by key. -/
structure Columns where
  paymentCreated : ℕ → ℕ
  returnCreated : ℕ → ℕ
  ledgerCreated : ℕ → ℕ
  purchaseCreated : ℕ → ℕ
  /-- `default_trip_cost` of a rider. -/
  tripCost : ℕ → ℚ

variable (cols : Columns)

/-! ## Orders and their lines -/

def daysOf (period : String) : ℕ :=
  if period = "daily" then 1 else if period = "monthly" then 30 else 7

def since (period : String) (now : ℕ) : ℕ := now - daysOf period * 86400

/-- The orders of the period. -/
def ordersSince (db : Db) (start : ℕ) : List (ℕ × Order) :=
  db.orders.select fun o => start ≤ o.createdAt

/-- `items_by_order`. -/
def itemsOf (db : Db) (o : ℕ × Order) : List OrderItem :=
  (db.orderItems.select fun i => i.orderId = o.1).map Prod.snd

/-- The order counts as paid. -/
def isPaid (o : Order) : Bool :=
  o.paymentStatus = .paid ∨ o.orderType = "b2b_shop_order" ∧ o.status = .delivered

def paidOrders (db : Db) (start : ℕ) : List (ℕ × Order) :=
  (ordersSince db start).filter fun r => isPaid r.2

/-- The rider who has delivered the order. -/
def riderOf (o : Order) : Option ℕ :=
  if o.status = .delivered then o.deliveryPersonId.filter fun k => k ≠ 0 else none

/-- The orders that riders have delivered, paid or not. -/
def riddenOrders (db : Db) (start : ℕ) : List (ℕ × Order) :=
  (ordersSince db start).filter fun r => (riderOf r.2).isSome

/-! ## What a line costs -/

/-- What the product of a line costs now. -/
def productCost (db : Db) (it : OrderItem) : ℚ :=
  ((db.products.get? it.productId).bind Product.purchaseCost).getD 0

/-- The cost of a line in `cogs`: where none is recorded, that of the product. -/
def cogsCost (db : Db) (it : OrderItem) : ℚ :=
  if it.unitCost ≤ 0 then productCost db it else it.unitCost

/-- The cost of a line in `by_customer` and `by_retailer`: the same again. -/
def customerCost (db : Db) (it : OrderItem) : ℚ :=
  if it.unitCost ≤ 0 then productCost db it else it.unitCost

/-- The cost of a line in `by_rider`: what is recorded. -/
def riderCost (it : OrderItem) : ℚ := it.unitCost

def cogsLine (db : Db) (it : OrderItem) : ℚ := cogsCost db it * it.quantity

/-! ## Riders -/

structure RiderRow where
  riderId : ℕ
  name : String
  trips : ℕ
  tripCost : ℚ
  orderRevenue : ℚ
  itemMargin : ℚ
  contribution : ℚ

/-- What a trip of the rider costs. -/
def tripOf (db : Db) (riderId : ℕ) : ℚ :=
  if (db.deliveryPersons.get? riderId).isSome then cols.tripCost riderId else 40

def riderRow (db : Db) (start riderId : ℕ) : RiderRow :=
  let own := group (fun r : ℕ × Order => riderOf r.2) (riddenOrders db start) (some riderId)
  let tripCost := runningRound (own.map fun _ => tripOf cols db riderId)
  let itemMargin := runningRound ((own.flatMap (itemsOf db)).map fun it =>
    it.totalPrice - riderCost it * it.quantity)
  { riderId
    name := ((db.deliveryPersons.get? riderId).map DeliveryPerson.name).getD "Rider"
    trips := own.length
    tripCost
    orderRevenue := runningRound (own.map fun r => r.2.finalAmount)
    itemMargin
    contribution := round2 (itemMargin - tripCost) }

def byRider (db : Db) (start : ℕ) : List RiderRow :=
  ((Recent.firsts ((riddenOrders db start).filterMap fun r => riderOf r.2)).map
    (riderRow cols db start)).insertionSort fun a b => b.contribution ≤ a.contribution

def riderCostTotal (db : Db) (start : ℕ) : ℚ :=
  (((riddenOrders db start).filterMap fun r => riderOf r.2).map (tripOf cols db)).sum

/-! ## Customers and retailers -/

structure CustomerRow where
  userId : ℕ
  name : String
  orders : ℕ
  revenue : ℚ
  margin : ℚ

/-- `str(o.order_type or "").startswith("b2b")`. -/
def isB2b (r : ℕ × Order) : Bool := "b2b".toList.isPrefixOf r.2.orderType.toList

def customerName (db : Db) (userId : ℕ) : String :=
  match db.users.get? userId with
  | some u => (truthy u.name).getD u.phone
  | none => String.ofList (natText userId)

def retailerName (db : Db) (userId : ℕ) : String :=
  (truthy ((profileOf db userId).map fun r => r.2.shopName)).getD (customerName db userId)

/-- What an order brings beyond the cost of its lines. -/
def marginOf (db : Db) (o : ℕ × Order) : ℚ :=
  ((itemsOf db o).map fun it => it.totalPrice - customerCost db it * it.quantity).sum

/-- The users whose orders they are, in the order in which they come up. -/
def usersOf (orders : List (ℕ × Order)) : List ℕ := Recent.firsts (orders.map fun r => r.2.userId)

/-- The orders, user by user. -/
def rowsBy (db : Db) (name : ℕ → String) (orders : List (ℕ × Order)) : List CustomerRow :=
  ((usersOf orders).map fun u =>
    let own := group (fun r => r.2.userId) orders u
    { userId := u
      name := name u
      orders := own.length
      revenue := runningRound (own.map fun r => r.2.finalAmount)
      margin := runningRound (own.map (marginOf db)) }).insertionSort
    fun a b => b.margin ≤ a.margin

def customerOrders (db : Db) (start : ℕ) : List (ℕ × Order) :=
  (paidOrders db start).filter fun r => !isB2b r

def retailerOrders (db : Db) (start : ℕ) : List (ℕ × Order) :=
  (paidOrders db start).filter isB2b

/-! ## The report -/

structure Report where
  period : String
  salesTotal : ℚ
  revenue : ℚ
  orderCount : ℕ
  paymentCount : ℕ
  returnCount : ℕ
  gstTotal : ℚ
  cogs : ℚ
  itemMargin : ℚ
  deliveryRevenue : ℚ
  riderCost : ℚ
  grossProfit : ℚ
  netProfit : ℚ
  profit : ℚ
  collections : ℚ
  purchaseSpend : ℚ
  purchasePaid : ℚ
  payableOutstanding : ℚ
  productSales : List (String × ℤ)
  byRider : List RiderRow
  byRetailer : List CustomerRow
  byCustomer : List CustomerRow

/-- The quantities of the lines, by the name of the product. -/
def productSales (items : List OrderItem) : List (String × ℤ) :=
  (Recent.firsts (items.map OrderItem.productName)).map fun name =>
    (name, ((group OrderItem.productName items name).map OrderItem.quantity).sum)

/-- The rows of a table that were created in the period, by their key. -/
def rowsSince {α : Type} (created : ℕ → ℕ) (t : Table α) (start : ℕ) : List α :=
  (t.rows.filter fun r => start ≤ created r.1).map Prod.snd

/-- The lines of the paid orders. -/
def paidLines (db : Db) (start : ℕ) : List OrderItem := (paidOrders db start).flatMap (itemsOf db)

/-- `reports`. -/
def reports (db : Db) (period : String) (now : ℕ) : Report :=
  let start := since period now
  let orders := ordersSince db start
  let paid := paidOrders db start
  let lines := paidLines db start
  let purchases := rowsSince cols.purchaseCreated db.purchases start
  let salesTotal := round2 (paid.map fun r => r.2.finalAmount).sum
  let deliveryRevenue := round2 (paid.map fun r => r.2.deliveryFee).sum
  let itemMargin := round2 (lines.map fun it => it.totalPrice - cogsLine db it).sum
  let riderCost := round2 (riderCostTotal cols db start)
  let grossProfit := round2 (itemMargin + deliveryRevenue)
  let netProfit := round2 (grossProfit - riderCost)
  { period
    salesTotal
    revenue := salesTotal
    orderCount := orders.length
    paymentCount := (rowsSince cols.paymentCreated db.payments start).length
    returnCount := (rowsSince cols.returnCreated db.returns start).length
    gstTotal := round2 (orders.map fun r => r.2.gstAmount).sum
    cogs := round2 (lines.map (cogsLine db)).sum
    itemMargin
    deliveryRevenue
    riderCost
    grossProfit
    netProfit
    profit := netProfit
    collections := round2 (((rowsSince cols.ledgerCreated db.ledger start).filter fun e =>
      e.entryType = .credit).map CreditLedgerEntry.amount).sum
    purchaseSpend := round2 (purchases.map SupplierPurchase.total).sum
    purchasePaid := round2 (purchases.map SupplierPurchase.paidAmount).sum
    payableOutstanding := round2 (db.profiles.rows.map fun r => r.2.payableBalance).sum
    productSales := productSales
      ((db.orderItems.select fun i => i.orderId ∈ orders.map Prod.fst).map Prod.snd)
    byRider := byRider cols db start
    byRetailer := rowsBy db (retailerName db) (retailerOrders db start)
    byCustomer := (rowsBy db (customerName db) (customerOrders db start)).take 40 }

/-! ## What reconciles -/

/-- The tax of the paid orders. -/
def gstPaid (db : Db) (start : ℕ) : ℚ := ((paidOrders db start).map fun r => r.2.gstAmount).sum

/-- The costs that are used for a line of an order. -/
def costsOf (db : Db) (o : ℕ × Order) (it : OrderItem) : List ℚ :=
  (if isPaid o.2 then [cogsCost db it, customerCost db it] else []) ++
    if (riderOf o.2).isSome then [riderCost it] else []

/-- There are at most forty customers. -/
def FewCustomers (db : Db) (start : ℕ) : Prop := (usersOf (customerOrders db start)).length ≤ 40

/-- The profit is that of the sales, a line has one cost, and what the customers and retailers have
brought makes up the sales and the margin. -/
structure Reconciles (db : Db) (period : String) (now : ℕ) : Prop where
  profit : (reports cols db period now).grossProfit =
    (reports cols db period now).salesTotal - gstPaid db (since period now) -
      (reports cols db period now).cogs
  oneCost : ∀ o ∈ ordersSince db (since period now), ∀ it ∈ itemsOf db o,
    ∀ x ∈ costsOf db o it, ∀ y ∈ costsOf db o it, x = y
  revenues : FewCustomers db (since period now) →
    ((reports cols db period now).byCustomer.map CustomerRow.revenue).sum +
        ((reports cols db period now).byRetailer.map CustomerRow.revenue).sum =
      (reports cols db period now).salesTotal
  margins : FewCustomers db (since period now) →
    ((reports cols db period now).byCustomer.map CustomerRow.margin).sum +
        ((reports cols db period now).byRetailer.map CustomerRow.margin).sum =
      (reports cols db period now).itemMargin

/-- What the paid orders charge, tax included. -/
def finals (db : Db) (start : ℕ) : ℚ := ((paidOrders db start).map fun r => r.2.finalAmount).sum

def fees (db : Db) (start : ℕ) : ℚ := ((paidOrders db start).map fun r => r.2.deliveryFee).sum

/-- What their lines come to. -/
def worth (db : Db) (start : ℕ) : ℚ := ((paidLines db start).map OrderItem.totalPrice).sum

/-- What their lines cost. -/
def goods (db : Db) (start : ℕ) : ℚ := ((paidLines db start).map (cogsLine db)).sum

/-- What the paid orders charge less, tax aside, than their lines and their delivery come to. -/
def takenOff (db : Db) (start : ℕ) : ℚ :=
  worth db start + fees db start - (finals db start - gstPaid db start)

/-- The cost of a line is recorded, or that of its product is the same. -/
def Recorded (db : Db) (it : OrderItem) : Prop := 0 < it.unitCost ∨ productCost db it = it.unitCost

/-- The lines that are paid for and that a rider has delivered have their costs recorded. -/
def CostsRecorded (db : Db) (start : ℕ) : Prop :=
  ∀ o ∈ ordersSince db start, isPaid o.2 → (riderOf o.2).isSome → ∀ it ∈ itemsOf db o,
    Recorded db it

/-- The money of the paid orders is in whole paise. -/
structure Coined (db : Db) (start : ℕ) : Prop where
  finals : ∀ r ∈ paidOrders db start, IsCents r.2.finalAmount
  fees : ∀ r ∈ paidOrders db start, IsCents r.2.deliveryFee
  lines : ∀ it ∈ paidLines db start, IsCents it.totalPrice
  costs : ∀ it ∈ paidLines db start, IsCents (cogsLine db it)

/-- The paid orders add up. -/
def AddUp (db : Db) (start : ℕ) : Prop :=
  ∀ r ∈ paidOrders db start,
    Checkout.AddsUp r.2.subtotal r.2.discount r.2.gstAmount r.2.deliveryFee r.2.finalAmount ∧
      r.2.subtotal = Checkout.itemsTotal db r.1

/-! ## Sums -/

section Sums

variable {cols} {db : Db} {start now : ℕ} {period : String} {orders : List (ℕ × Order)}
  {name : ℕ → String} {f : ℕ × Order → ℚ} {it : OrderItem} {o : ℕ × Order}

/-- What is added up user by user is the whole. -/
theorem sum_users (h : ∀ r ∈ orders, IsCents (f r)) :
    ((usersOf orders).map fun u =>
        runningRound ((group (fun r => r.2.userId) orders u).map f)).sum =
      (orders.map f).sum := by
  have hgroups : ((usersOf orders).map fun u =>
      ((group (fun r => r.2.userId) orders u).map f).sum).sum = (orders.map f).sum := by
    refine sum_groups (Recent.nodup_firsts _) (fun r hr => ?_) f
    exact Recent.mem_firsts.2 (List.mem_map_of_mem hr)
  rw [← hgroups]
  refine congrArg List.sum (List.map_congr_left fun u _ => runningRound_of_isCents fun x hx => ?_)
  obtain ⟨r, hr, rfl⟩ := List.mem_map.1 hx
  exact h r (mem_group.1 hr).1

theorem sum_revenues (h : ∀ r ∈ orders, IsCents r.2.finalAmount) :
    ((rowsBy db name orders).map CustomerRow.revenue).sum =
      (orders.map fun r => r.2.finalAmount).sum := by
  rw [rowsBy, ((List.perm_insertionSort _ _).map _).sum_eq, List.map_map, ← sum_users h]
  rfl

theorem sum_margins (h : ∀ r ∈ orders, IsCents (marginOf db r)) :
    ((rowsBy db name orders).map CustomerRow.margin).sum = (orders.map (marginOf db)).sum := by
  rw [rowsBy, ((List.perm_insertionSort _ _).map _).sum_eq, List.map_map, ← sum_users h]
  rfl

/-- The customers and the retailers have the paid orders between them. -/
theorem sum_paid (f : ℕ × Order → ℚ) : ((customerOrders db start).map f).sum +
    ((retailerOrders db start).map f).sum = ((paidOrders db start).map f).sum := by
  have hsplit := List.filter_append_perm isB2b (paidOrders db start)
  rw [add_comm, ← List.sum_append, ← List.map_append]
  exact (hsplit.map f).sum_eq

theorem length_rowsBy (db : Db) (name : ℕ → String) (orders : List (ℕ × Order)) :
    (rowsBy db name orders).length = (usersOf orders).length := by
  rw [rowsBy, List.length_insertionSort, List.length_map]

/-- The forty customers are all of them. -/
theorem byCustomer_eq (h : FewCustomers db (since period now)) :
    (reports cols db period now).byCustomer =
      rowsBy db (customerName db) (customerOrders db (since period now)) :=
  List.take_of_length_le ((length_rowsBy _ _ _).trans_le h)

theorem sum_lines (db : Db) (start : ℕ) :
    ((paidLines db start).map fun it => it.totalPrice - cogsLine db it).sum =
      worth db start - goods db start := by
  unfold worth goods
  induction paidLines db start with
  | nil => exact (sub_zero 0).symm
  | cons it lines ih =>
    rw [List.map_cons, List.sum_cons, ih, List.map_cons, List.sum_cons, List.map_cons,
      List.sum_cons]
    ring

/-- The margins of the paid orders are those of their lines. -/
theorem sum_marginOf (db : Db) (start : ℕ) :
    ((paidOrders db start).map (marginOf db)).sum = worth db start - goods db start := by
  rw [← sum_lines, paidLines, List.map_flatMap, List.flatMap_def, List.sum_flatten, List.map_map]
  rfl

theorem isCents_sum_map {α : Type} {l : List α} {f : α → ℚ} (h : ∀ a ∈ l, IsCents (f a)) :
    IsCents (l.map f).sum := by
  refine isCents_sum fun x hx => ?_
  obtain ⟨a, ha, rfl⟩ := List.mem_map.1 hx
  exact h a ha

theorem isCents_marginOf (h : Coined db start) {r : ℕ × Order} (hr : r ∈ paidOrders db start) :
    IsCents (marginOf db r) := by
  refine isCents_sum_map fun it hit => ?_
  have hline : it ∈ paidLines db start := List.mem_flatMap.2 ⟨r, hr, hit⟩
  exact (h.lines it hline).sub (h.costs it hline)

theorem salesTotal_eq (h : Coined db (since period now)) :
    (reports cols db period now).salesTotal = finals db (since period now) :=
  round2_of_isCents (isCents_sum_map h.finals)

theorem cogs_eq (h : Coined db (since period now)) :
    (reports cols db period now).cogs = goods db (since period now) :=
  round2_of_isCents (isCents_sum_map h.costs)

theorem itemMargin_eq (h : Coined db (since period now)) :
    (reports cols db period now).itemMargin =
      worth db (since period now) - goods db (since period now) := by
  rw [← sum_lines]
  exact round2_of_isCents (isCents_sum_map fun it hit => (h.lines it hit).sub (h.costs it hit))

/-- The profit is the margin and what is taken for delivery; discounts do not lessen it. -/
theorem grossProfit_eq (h : Coined db (since period now)) :
    (reports cols db period now).grossProfit =
      worth db (since period now) - goods db (since period now) + fees db (since period now) := by
  have hfees : (reports cols db period now).deliveryRevenue = fees db (since period now) :=
    round2_of_isCents (isCents_sum_map h.fees)
  have hmargin : (reports cols db period now).itemMargin =
      worth db (since period now) - goods db (since period now) := itemMargin_eq h
  rw [← hmargin, ← hfees]
  exact round2_of_isCents ((isCents_round2 _).add (isCents_round2 _))

theorem profit_iff (h : Coined db (since period now)) :
    (reports cols db period now).grossProfit =
      (reports cols db period now).salesTotal - gstPaid db (since period now) -
        (reports cols db period now).cogs ↔ takenOff db (since period now) = 0 := by
  rw [grossProfit_eq h, salesTotal_eq h, cogs_eq h]
  unfold takenOff
  constructor <;> intro h <;> linarith

/-- The riders' loop uses another cost exactly where none is recorded and the product has one. -/
theorem riderCost_eq_iff : cogsCost db it = riderCost it ↔ Recorded db it := by
  unfold cogsCost riderCost Recorded
  split_ifs with hzero
  · exact (or_iff_right (not_lt.2 hzero)).symm
  · exact iff_of_true rfl (Or.inl (not_le.1 hzero))

/-- The loops use one cost for a line of an order, unless it is paid for and delivered and its cost
is not recorded. -/
theorem oneCost_iff : (∀ x ∈ costsOf db o it, ∀ y ∈ costsOf db o it, x = y) ↔
    (isPaid o.2 → (riderOf o.2).isSome → Recorded db it) := by
  have hsame : customerCost db it = cogsCost db it := rfl
  unfold costsOf
  rw [hsame, ← riderCost_eq_iff]
  by_cases hpaid : isPaid o.2 = true
  · by_cases hrider : (riderOf o.2).isSome = true
    · simp only [hpaid, hrider, if_true]
      constructor
      · intro h _ _
        exact h _ (by simp) _ (by simp)
      · intro h
        simp [h]
    · simp [hpaid, hrider]
  · by_cases hrider : (riderOf o.2).isSome = true <;> simp [hpaid, hrider]

end Sums

/-! ## When the report reconciles -/

section Balance

variable {db : Db} {start now : ℕ} {period : String}

/-- The customers and the retailers make up the sales. -/
theorem revenues_eq (h : Coined db (since period now)) (hfew : FewCustomers db (since period now)) :
    ((reports cols db period now).byCustomer.map CustomerRow.revenue).sum +
        ((reports cols db period now).byRetailer.map CustomerRow.revenue).sum =
      (reports cols db period now).salesTotal := by
  have hretail : (reports cols db period now).byRetailer =
    rowsBy db (retailerName db) (retailerOrders db (since period now)) := rfl
  have hcustomers : ∀ r ∈ customerOrders db (since period now), IsCents r.2.finalAmount :=
    fun r hr => h.finals r (List.mem_filter.1 hr).1
  have hretailers : ∀ r ∈ retailerOrders db (since period now), IsCents r.2.finalAmount :=
    fun r hr => h.finals r (List.mem_filter.1 hr).1
  rw [byCustomer_eq hfew, hretail, salesTotal_eq h, sum_revenues hcustomers,
    sum_revenues hretailers]
  exact sum_paid _

/-- And the margin. -/
theorem margins_eq (h : Coined db (since period now)) (hfew : FewCustomers db (since period now)) :
    ((reports cols db period now).byCustomer.map CustomerRow.margin).sum +
        ((reports cols db period now).byRetailer.map CustomerRow.margin).sum =
      (reports cols db period now).itemMargin := by
  have hretail : (reports cols db period now).byRetailer =
    rowsBy db (retailerName db) (retailerOrders db (since period now)) := rfl
  have hcustomers : ∀ r ∈ customerOrders db (since period now), IsCents (marginOf db r) :=
    fun r hr => isCents_marginOf h (List.mem_filter.1 hr).1
  have hretailers : ∀ r ∈ retailerOrders db (since period now), IsCents (marginOf db r) :=
    fun r hr => isCents_marginOf h (List.mem_filter.1 hr).1
  rw [byCustomer_eq hfew, hretail, itemMargin_eq h, sum_margins hcustomers,
    sum_margins hretailers, sum_paid, sum_marginOf]

/-- The items of an order, added up. -/
theorem itemsTotal_eq (db : Db) (o : ℕ × Order) :
    Checkout.itemsTotal db o.1 = ((itemsOf db o).map OrderItem.totalPrice).sum := by
  unfold Checkout.itemsTotal itemsOf
  rw [List.map_map]
  have hsum := Table.sum_select db.orderItems (fun i => i.orderId = o.1) OrderItem.totalPrice
  simp only [decide_eq_true_eq] at hsum
  exact hsum.symm

/-- What is taken off orders that add up are their discounts. -/
theorem takenOff_eq (h : AddUp db start) :
    takenOff db start = ((paidOrders db start).map fun r => r.2.discount).sum := by
  have hworth : worth db start = ((paidOrders db start).map fun r =>
      ((itemsOf db r).map OrderItem.totalPrice).sum).sum := by
    rw [worth, paidLines, List.map_flatMap, List.flatMap_def, List.sum_flatten, List.map_map]
    rfl
  unfold takenOff finals fees gstPaid
  rw [hworth]
  unfold AddUp at h
  generalize paidOrders db start = paid at h ⊢
  induction paid with
  | nil => norm_num
  | cons r rest ih =>
    have hrest := ih fun q hq => h q (List.mem_cons_of_mem r hq)
    obtain ⟨hadd, hsub⟩ := h r List.mem_cons_self
    have hfinal := hadd.sum
    rw [itemsTotal_eq] at hsub
    simp only [List.map_cons, List.sum_cons]
    linarith

/-- Of orders that add up nothing is taken off exactly if none has a discount. -/
theorem takenOff_eq_zero_iff (h : AddUp db start) :
    takenOff db start = 0 ↔ ∀ r ∈ paidOrders db start, r.2.discount = 0 := by
  rw [takenOff_eq h]
  constructor
  · intro hsum r hr
    refine List.all_zero_of_le_zero_le_of_sum_eq_zero (fun x hx => ?_) hsum
      (List.mem_map.2 ⟨r, hr, rfl⟩)
    obtain ⟨q, hq, rfl⟩ := List.mem_map.1 hx
    exact (h q hq).1.nonneg
  · intro hnone
    refine List.sum_eq_zero fun x hx => ?_
    obtain ⟨r, hr, rfl⟩ := List.mem_map.1 hx
    exact hnone r hr

/-- The report of orders in whole paise that add up reconciles exactly if none that is paid has a
discount, and the costs are recorded. -/
theorem reconciles_iff (cols : Columns) {db : Db} {period : String} {now : ℕ}
    (hcoined : Coined db (since period now)) (hadd : AddUp db (since period now)) :
    Reconciles cols db period now ↔
      (∀ r ∈ paidOrders db (since period now), r.2.discount = 0) ∧
        CostsRecorded db (since period now) := by
  have hprofit : (reports cols db period now).grossProfit =
      (reports cols db period now).salesTotal - gstPaid db (since period now) -
        (reports cols db period now).cogs ↔ takenOff db (since period now) = 0 := profit_iff hcoined
  rw [← takenOff_eq_zero_iff hadd, ← hprofit]
  constructor
  · intro h
    exact ⟨h.profit, fun o ho hpaid hrider it hit =>
      oneCost_iff.1 (h.oneCost o ho it hit) hpaid hrider⟩
  · rintro ⟨hprofit, hrecorded⟩
    exact ⟨hprofit,
      fun o ho it hit => oneCost_iff.2 fun hpaid hrider => hrecorded o ho hpaid hrider it hit,
      revenues_eq cols hcoined, margins_eq cols hcoined⟩

end Balance

/-! ## A cake and its discount -/

def plainColumns : Columns where
  paymentCreated := id
  returnCreated := id
  ledgerCreated := id
  purchaseCreated := id
  tripCost := fun _ => 40

/-- The line of a cake of ₹100 that cost ₹60. -/
def cakeLine : OrderItem :=
  { (default : OrderItem) with
    orderId := 1, quantity := 1, unitPrice := 100, totalPrice := 100, unitCost := 60 }

/-- The order of the cake, paid for and delivered for ₹40. -/
def cakeOrder (discount gst final : ℚ) : Order :=
  { (default : Order) with
    userId := 2, orderType := "b2c_local_order", status := .delivered, paymentStatus := .paid
    subtotal := 100, discount := discount, gstAmount := gst, deliveryFee := 40
    finalAmount := final, deliveryPersonId := some 1 }

def cakeSold (discount gst final : ℚ) : Db :=
  { Db.empty with
    orders := .ofList [cakeOrder discount gst final]
    orderItems := .ofList [cakeLine] }

theorem fullPrice_reconciles : Reconciles plainColumns (cakeSold 0 5 145) "weekly" 0 := by
  have hpaid : paidOrders (cakeSold 0 5 145) 0 = [(1, cakeOrder 0 5 145)] := rfl
  have hlines : paidLines (cakeSold 0 5 145) 0 = [cakeLine] := rfl
  have hcost : cogsLine (cakeSold 0 5 145) cakeLine = 60 := by decide +kernel
  have hcoined : Coined (cakeSold 0 5 145) (since "weekly" 0) := by
    refine ⟨?_, ?_, ?_, ?_⟩
    · exact List.forall_mem_singleton.2 ⟨14500, by norm_num [cakeOrder]⟩
    · exact List.forall_mem_singleton.2 ⟨4000, by norm_num [cakeOrder]⟩
    · exact List.forall_mem_singleton.2 ⟨10000, by norm_num [cakeLine]⟩
    · refine List.forall_mem_singleton.2 ?_
      rw [hcost]
      exact ⟨6000, by norm_num⟩
  have hadd : AddUp (cakeSold 0 5 145) (since "weekly" 0) := by
    refine List.forall_mem_singleton.2 ⟨⟨?_, le_rfl, ?_⟩, by decide +kernel⟩
    · norm_num [cakeOrder]
    · norm_num [cakeOrder]
  have hrecorded : CostsRecorded (cakeSold 0 5 145) (since "weekly" 0) := by
    have hstart : since "weekly" 0 = 0 := Nat.zero_sub _
    have horders : ordersSince (cakeSold 0 5 145) 0 = [(1, cakeOrder 0 5 145)] := rfl
    have hitems : itemsOf (cakeSold 0 5 145) (1, cakeOrder 0 5 145) = [cakeLine] := rfl
    intro o ho _ _ it hit
    rw [hstart, horders, List.mem_singleton] at ho
    rw [ho, hitems, List.mem_singleton] at hit
    rw [hit]
    exact Or.inl (by norm_num [cakeLine])
  exact (reconciles_iff plainColumns hcoined hadd).2 ⟨List.forall_mem_singleton.2 rfl, hrecorded⟩

/-- A discount of ₹10, that the order has and the profit has not. -/
theorem discount_uncounted : AddUp (cakeSold 10 (9 / 2) (269 / 2)) (since "weekly" 0) ∧
    (reports plainColumns (cakeSold 10 (9 / 2) (269 / 2)) "weekly" 0).grossProfit = 80 ∧
    (reports plainColumns (cakeSold 10 (9 / 2) (269 / 2)) "weekly" 0).salesTotal -
      gstPaid (cakeSold 10 (9 / 2) (269 / 2)) (since "weekly" 0) -
      (reports plainColumns (cakeSold 10 (9 / 2) (269 / 2)) "weekly" 0).cogs = 70 ∧
    ¬ Reconciles plainColumns (cakeSold 10 (9 / 2) (269 / 2)) "weekly" 0 := by
  have hadd : AddUp (cakeSold 10 (9 / 2) (269 / 2)) (since "weekly" 0) := by
    refine List.forall_mem_singleton.2 ⟨⟨?_, ?_, ?_⟩, by decide +kernel⟩
    · norm_num [cakeOrder]
    · norm_num [cakeOrder]
    · norm_num [cakeOrder]
  have hprofit : (reports plainColumns (cakeSold 10 (9 / 2) (269 / 2)) "weekly" 0).grossProfit =
      80 := by decide +kernel
  have hsales : (reports plainColumns (cakeSold 10 (9 / 2) (269 / 2)) "weekly" 0).salesTotal -
      gstPaid (cakeSold 10 (9 / 2) (269 / 2)) (since "weekly" 0) -
      (reports plainColumns (cakeSold 10 (9 / 2) (269 / 2)) "weekly" 0).cogs = 70 := by
    decide +kernel
  refine ⟨hadd, hprofit, hsales, fun h => ?_⟩
  have hsame := h.profit
  rw [hprofit, hsales] at hsame
  norm_num at hsame

end Reports

end SweetCrust
