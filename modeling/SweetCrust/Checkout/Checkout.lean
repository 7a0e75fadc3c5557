import SweetCrust.Cart.Requests

/-!
# Checkout

`checkout` in its steps: it reads the summary of the cart and validates the request
(`quote`), commits the order (`placeOrder`), and then reads the products and commits the
order's items, the stock, the payment and the emptied cart (`fulfil`).  The last step
writes absolute values, computed from the database it read, so what it writes (`finish`)
has two arguments: the database it read, and the one it commits to.

The distance to the bakery is computed and never compared, so only a missing location
refuses an address.  What is drawn at random, and the time, are arguments (`Draws`).
-/

namespace SweetCrust

open Tabular Session Decimal Carts

namespace Checkout

/-- The fields of a checkout request that the handler reads. -/
structure CheckoutIn where
  addressId : ℕ
  paymentMethod : String
  customerPhone : String
  deriving DecidableEq

/-- `generate_order_number`, `generate_txn_id` and `utc_now`. -/
structure Draws where
  orderNumber : String
  transactionId : String
  createdAt : ℕ
  deriving DecidableEq

/-- What a validated checkout goes on with. -/
structure Quote where
  userId : ℕ
  shopUserId : ℕ
  addressId : ℕ
  address : Address
  method : PaymentMethod
  customerPhone : String
  summary : Summary
  /-- The customer, as the session read the row when it authenticated the request. -/
  user : Option User
  deriving DecidableEq

/-! ## The order -/

/-- The address as an order keeps it. -/
def snapshotOf (address : Address) : AddressSnapshot where
  fullName := some address.fullName
  shopName := none
  phone := some address.phone
  line1 := some address.line1
  city := some address.city
  pincode := some address.pincode

def orderOf (draws : Draws) (q : Quote) : Order where
  orderNumber := draws.orderNumber
  userId := q.userId
  shopUserId := some q.shopUserId
  orderType := "b2c_local_order"
  addressId := some q.addressId
  status := .placed
  paymentStatus := .pending
  paymentMethod := some q.method
  subtotal := q.summary.subtotal
  discount := q.summary.discount
  couponCode := q.summary.couponCode
  gstAmount := q.summary.gst
  deliveryFee := q.summary.deliveryFee
  finalAmount := q.summary.finalTotal
  paidAmount := 0
  customerPhone := some q.customerPhone
  addressSnapshot := some (snapshotOf q.address)
  createdAt := draws.createdAt

/-- The database with the order. -/
def place (draws : Draws) (q : Quote) (db : Db) : Db :=
  { db with orders := db.orders.insert (orderOf draws q) }

/-! ## The stock -/

/-- A product of which a quantity is sold.  The stock stops at zero. -/
def sell (quantity : ℤ) (p : Product) : Product :=
  { p with
    stockQty := max 0 (p.stockQty - quantity)
    stockStatus := stockStatusFor (max 0 (p.stockQty - quantity)) p.lowStockThreshold
    salesCount := p.salesCount + quantity }

/-- The products after the lines of an order, taken one after another. -/
def sellLines (lines : List Line) (products : Table Product) : Table Product :=
  lines.foldl (fun products line => products.modify line.productId (sell line.quantity)) products

/-- A product with the columns that a sale computed. -/
def copyStock (sold p : Product) : Product :=
  { p with
    stockQty := sold.stockQty
    stockStatus := sold.stockStatus
    salesCount := sold.salesCount }

/-- The order has a line of the product. -/
def buys (lines : List Line) (productId : ℕ) : Prop := ∃ line ∈ lines, line.productId = productId

instance (lines : List Line) (productId : ℕ) : Decidable (buys lines productId) :=
  inferInstanceAs (Decidable (∃ line ∈ lines, line.productId = productId))

/-- The products bought, written with what was computed from the products seen. -/
def writeStock (lines : List Line) (seen products : Table Product) : Table Product :=
  products.mapRows fun y p =>
    if buys lines y then
      match (sellLines lines seen).get? y with
      | some sold => copyStock sold p
      | none => p
    else p

/-! ## The order's items, its payment and its notices -/

def orderItem (orderId : ℕ) (seen : Table Product) (line : Line) : OrderItem where
  orderId := orderId
  productId := line.productId
  productName := line.productName
  productImage := line.productImage
  variant := line.variant
  flavor := line.flavor
  isEggless := false
  quantity := line.quantity
  unitPrice := line.unitPrice
  totalPrice := line.totalPrice
  unitCost := ((seen.get? line.productId).bind Product.purchaseCost).getD 0

def paymentOf (orderId : ℕ) (draws : Draws) (q : Quote) : Payment where
  orderId := orderId
  userId := q.userId
  amount := q.summary.finalTotal
  method := some q.method
  status := .pending
  transactionId := some draws.transactionId
  upiId := none
  gatewayResponse := .empty
  failureReason := none

def placedHistory (orderId : ℕ) (q : Quote) : OrderStatusHistory :=
  ⟨orderId, .placed, some "Order placed", some q.userId⟩

/-- The notices of a new order: to the first admin, and to the shop. -/
def notices (orderId : ℕ) (draws : Draws) (q : Quote) (users : Table User) : List Notification :=
  let admin := (users.first? fun u => u.role = .admin).map fun r =>
    { userId := r.1
      type := .order
      title := "New order"
      body := "Order " ++ draws.orderNumber ++ " received"
      data := some { orderId := some orderId } }
  admin.toList ++
    [{ userId := q.shopUserId
       type := .order
       title := "New customer order"
       body := "Order " ++ draws.orderNumber ++ " · ₹" ++ String.ofList (fixed0 q.summary.finalTotal)
       data := some
         { orderId := some orderId
           orderNumber := some draws.orderNumber
           amount := some q.summary.finalTotal } }]

/-! ## The emptied cart -/

/-- The lines that emptying the customer's cart deletes. -/
def emptied (seen : Db) (userId : ℕ) : List ℕ :=
  match cartOf seen userId with
  | some (cartId, _) => (activeItems seen cartId).map Prod.fst
  | none => []

/-- The customer's cart without its coupon. -/
def clearCoupon (seen : Db) (userId : ℕ) (carts : Table Cart) : Table Cart :=
  match cartOf seen userId with
  | some (cartId, _) => carts.modify cartId fun c => { c with couponCode := none }
  | none => carts.insert ⟨userId, none⟩

/-- The customer's count of orders, one more than the session read. -/
def countOrder (q : Quote) (users : Table User) : Table User :=
  match q.user with
  | some user => users.modify q.userId fun u => { u with totalOrders := user.totalOrders + 1 }
  | none => users

/-- What the last step of a checkout that saw the database `seen` commits to `db`. -/
def finish (orderId : ℕ) (draws : Draws) (q : Quote) (seen db : Db) : Db :=
  { db with
    products := writeStock q.summary.items seen.products db.products
    orderItems := db.orderItems.insertAll (q.summary.items.map (orderItem orderId seen.products))
    history := db.history.insert (placedHistory orderId q)
    payments := db.payments.insert (paymentOf orderId draws q)
    cartItems := db.cartItems.remove fun k _ => k ∈ emptied seen q.userId
    carts := clearCoupon seen q.userId db.carts
    users := countOrder q db.users
    notifications := db.notifications.insertAll (notices orderId draws q seen.users) }

/-! ## The handler -/

/-- `assert_within_radius`. -/
def assertWithinRadius (address : Address) : Service Unit :=
  raiseIf (address.latitude = none ∨ address.longitude = none)
    (.badRequest "Delivery address must include map location (latitude/longitude)")

/-- The summary of the cart, and every check of the request. -/
def quote (userId : ℕ) (data : CheckoutIn) : Service Quote := do
  let summary ← cartSummary userId
  raiseIf (summary.items = []) (.badRequest "Cart is empty")
  let s ← settings
  raiseIf (summary.finalTotal < s.minOrderValue)
    (.badRequest ("Minimum order value is ₹" ++ String.ofList (shortest s.minOrderValue)))
  let db ← get
  let address ← orRaise ((db.addresses.get? data.addressId).filter fun a => a.userId = userId)
    (.notFound "Address not found")
  assertWithinRadius address
  let method ← orRaise (PaymentMethod.ofValue? data.paymentMethod)
    (.badRequest ("Invalid payment method: " ++ data.paymentMethod))
  raiseIf (method = .cod ∧ s.codEnabled = false) (.badRequest "Cash on delivery is disabled")
  let shopUserId ← orRaise summary.shopUserId (.badRequest "Cart items must belong to a shop")
  return {
    userId, shopUserId, address, method, summary
    addressId := data.addressId
    customerPhone := data.customerPhone
    user := db.users.get? userId }

/-- The order, committed. -/
def placeOrder (draws : Draws) (q : Quote) : Service ℕ := do
  let db ← get
  modify (place draws q)
  commit
  return db.orders.next

/-- The order's items, the stock, the payment and the emptied cart, committed. -/
def fulfil (orderId : ℕ) (draws : Draws) (q : Quote) : Service Unit := do
  let seen ← get
  modify (finish orderId draws q seen)
  commit

/-- `checkout`: the key of the created order. -/
def checkout (userId : ℕ) (data : CheckoutIn) (draws : Draws) : Service ℕ := do
  let q ← quote userId data
  let orderId ← placeOrder draws q
  fulfil orderId draws q
  return orderId

/-! ## What a checkout leaves in the database -/

section Effects

variable {s t : Db} {u : ℕ} {data : CheckoutIn} {draws : Draws} {q : Quote}

/-- Validating a request commits at most the rows that the summary creates. -/
theorem final_quote (u : ℕ) (data : CheckoutIn) (s : Db) :
    final (quote u data) s = prepared u s := by
  unfold quote
  rw [(cartSummary_returns u s).final_bind]
  apply Reads.final
  refine (reads_raiseIf _ _ _).bind fun _ => ?_
  refine (settings_reads (withCart u s)).bind fun _ => ?_
  refine (reads_raiseIf _ _ _).bind fun _ => ?_
  refine (reads_get _).bind fun _ => ?_
  refine (reads_orRaise _ _ _).bind fun _ => ?_
  refine (reads_raiseIf _ _ _).bind fun _ => ?_
  refine (reads_orRaise _ _ _).bind fun _ => ?_
  refine (reads_raiseIf _ _ _).bind fun _ => ?_
  exact (reads_orRaise _ _ _).bind fun _ => reads_pure _ _

/-- A validated request is for the customer's own cart, which holds a line, and goes to the shop
of its summary. -/
theorem quote_eq_ok (h : (quote u data s).2 = .ok (q, t)) :
    t = prepared u s ∧ q.userId = u ∧ q.summary = summaryFor s u ∧ q.summary.items ≠ [] ∧
      q.summary.shopUserId = some q.shopUserId := by
  unfold quote at h
  rw [(cartSummary_returns u s).outcome_bind, outcome_raiseIf_bind] at h
  obtain ⟨hitems, h⟩ := h
  obtain ⟨_, t₁, hsettings, h⟩ := bind_outcome_eq_ok.1 h
  obtain rfl : t₁ = prepared u s := (settings_reads (withCart u s)).same _ _ hsettings
  rw [outcome_raiseIf_bind, outcome_get_bind, outcome_orRaise_bind] at h
  obtain ⟨_, address, _, h⟩ := h
  rw [assertWithinRadius, outcome_raiseIf_bind, outcome_orRaise_bind] at h
  obtain ⟨_, method, _, h⟩ := h
  rw [outcome_raiseIf_bind, outcome_orRaise_bind] at h
  obtain ⟨_, shopUserId, hshop, h⟩ := h
  cases h
  exact ⟨rfl, rfl, rfl, hitems, hshop⟩

/-- The validated request, if nothing refuses it. -/
def quoted (db : Db) (userId : ℕ) (data : CheckoutIn) : Option Quote :=
  (quote userId data db).2.toOption.map Prod.fst

theorem quoted_eq_some (h : quoted s u data = some q) :
    Returns (quote u data) s q (prepared u s) := by
  unfold quoted at h
  cases hq : (quote u data s).2 with
  | error e => rw [hq] at h; cases h
  | ok r =>
    obtain ⟨q', t⟩ := r
    rw [hq] at h
    cases h
    obtain ⟨rfl, _⟩ := quote_eq_ok hq
    exact ⟨hq, final_quote u data s⟩

theorem quoted_eq_none (h : quoted s u data = none) :
    ∃ e, (quote u data s).2 = .error e := by
  unfold quoted at h
  cases hq : (quote u data s).2 with
  | error e => exact ⟨e, rfl⟩
  | ok r => rw [hq] at h; cases h

theorem placeOrder_returns (draws : Draws) (q : Quote) (s : Db) :
    Returns (placeOrder draws q) s s.orders.next (place draws q s) :=
  (returns_get s).bind (Returns.modify_commit (returns_pure _ _))

theorem fulfil_returns (o : ℕ) (draws : Draws) (q : Quote) (s : Db) :
    Returns (fulfil o draws q) s () (finish o draws q s s) := by
  unfold fulfil
  exact (returns_get s).bind ⟨rfl, rfl⟩

/-- The summary of an accepted checkout has the lines of the cart. -/
theorem items_of_quoted (hq : quoted s u data = some q) :
    q.summary.items = (activeItems s (cartFor s u).1).map (lineOf s) ∧ q.summary.items ≠ [] := by
  obtain ⟨_, _, hsummary, hne, _⟩ := quote_eq_ok (quoted_eq_some hq).outcome
  refine ⟨?_, hne⟩
  have hline : lineOf (prepared u s) = lineOf s := by
    funext r
    unfold lineOf
    rw [(frame_prepared u s).products]
  rw [hsummary, items_summaryFor, hline]

/-- The database of a customer whose checkout is accepted, after it. -/
def checkedOut (draws : Draws) (q : Quote) (db : Db) : Db :=
  finish db.orders.next draws q (place draws q db) (place draws q db)

/-- An accepted checkout returns the key of a new order. -/
theorem checkout_returns (h : quoted s u data = some q) (draws : Draws) :
    Returns (checkout u data draws) s (prepared u s).orders.next
      (checkedOut draws q (prepared u s)) :=
  (quoted_eq_some h).bind ((placeOrder_returns draws q _).bind
    ((fulfil_returns _ draws q _).bind (returns_pure _ _)))

/-- A refused checkout commits at most the rows that the summary creates. -/
theorem checkout_refused (h : quoted s u data = none) (draws : Draws) :
    final (checkout u data draws) s = prepared u s ∧
      ∃ e, (checkout u data draws s).2 = .error e := by
  obtain ⟨e, he⟩ := quoted_eq_none h
  have hrun : checkout u data draws s = (commits (quote u data) s, .error e) :=
    bind_run_of_error he
  refine ⟨?_, e, congrArg Prod.snd hrun⟩
  rw [← final_quote u data s]
  unfold final
  rw [show commits (checkout u data draws) s = _ from congrArg Prod.fst hrun]

/-- A checkout that returns was accepted. -/
theorem checkout_eq_ok {o : ℕ} (h : (checkout u data draws s).2 = .ok (o, t)) :
    ∃ q, quoted s u data = some q ∧ o = (prepared u s).orders.next ∧
      t = checkedOut draws q (prepared u s) := by
  cases hq : quoted s u data with
  | none =>
    obtain ⟨e, he⟩ := (checkout_refused hq draws).2
    rw [he] at h
    cases h
  | some q =>
    rw [(checkout_returns hq draws).outcome] at h
    cases h
    exact ⟨q, rfl, rfl, rfl⟩

/-- The order of an accepted checkout. -/
theorem order_checkedOut (draws : Draws) (q : Quote) (s : Db) :
    (checkedOut draws q s).orders.get? s.orders.next = some (orderOf draws q) := by
  have hnew : (s.orders.insert (orderOf draws q)).get? s.orders.next = some (orderOf draws q) := by
    simp
  exact hnew

/-- The items of the order of an accepted checkout are made of its lines. -/
theorem total_checkedOut {A : Type} [AddCommGroup A]
    (h : s.orderItems.All fun i => i.orderId < s.orders.next) (draws : Draws) (q : Quote)
    (f : OrderItem → A) :
    (checkedOut draws q s).orderItems.total
        (fun i => if i.orderId = s.orders.next then f i else 0) =
      (q.summary.items.map fun line => f (orderItem s.orders.next s.products line)).sum := by
  have hold : (s.orderItems.total fun i => if i.orderId = s.orders.next then f i else 0) = 0 := by
    refine List.sum_eq_zero fun x hx => ?_
    obtain ⟨r, hr, rfl⟩ := List.mem_map.1 hx
    have hlt := h r hr
    exact if_neg (by omega)
  show (s.orderItems.insertAll (q.summary.items.map (orderItem s.orders.next s.products))).total
    (fun i => if i.orderId = s.orders.next then f i else 0) = _
  rw [Table.total_insertAll, hold, zero_add, List.map_map]
  congr 1
  refine List.map_congr_left fun line _ => ?_
  simp [orderItem]

end Effects

end Checkout

end SweetCrust
