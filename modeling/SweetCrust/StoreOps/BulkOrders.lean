import SweetCrust.Checkout.Checkout
import SweetCrust.Payment.Razorpay
import SweetCrust.StoreOps.Credit

/-!
# A shop's bulk order: `create_bulk_order`

A shop orders from the bakery at shop prices.  The order is committed first, then its items
and its payment; an order on credit is then debited, and one through Razorpay gets a gateway
order and a payment link, in a transaction of their own.  What raises by then leaves the
order standing.

When and how the order is delivered, and the remaining address of the shop, are columns no
modelled function reads.

* `quote` — the checks, and what they work out.
* `createBulkOrder` — the handler.
* `final_createBulkOrder` — the orders and the profiles it leaves.
-/

namespace SweetCrust

open Tabular Session Guard Rounding Decimal Text Payment

namespace BulkOrders

/-- A handler of the admin service. -/
abbrev Service (α : Type) : Type := Sess AppError Db α

/-- `BulkLineIn`. -/
structure BulkLine where
  productId : ℕ
  qty : ℤ

/-- A line with its product and its unit price. -/
structure Built where
  productId : ℕ
  product : Product
  qty : ℤ
  unit : ℚ

/-- A number in a message. -/
def intText (n : ℤ) : String :=
  (if n < 0 then "-" else "") ++ String.ofList (natText n.natAbs)

/-- `_shop_unit_price`. -/
def shopUnitPrice (product : Product) : ℚ :=
  (product.shopPrice.or product.customerPrice).getD product.sellingPrice

/-- Look up the product of a line and check the quantity. -/
def buildLine (db : Db) (line : BulkLine) : Except AppError Built := do
  let product ← orRaise ((db.products.get? line.productId).filter Product.isActive)
    (.notFound ("Product " ++ String.ofList (natText line.productId) ++ " not found"))
  let minQty := if product.minOrderQty = 0 then 1 else product.minOrderQty
  raiseIf (line.qty < minQty)
    (.badRequest (product.name ++ ": min order qty is " ++ intText minQty))
  return { productId := line.productId, product, qty := line.qty, unit := shopUnitPrice product }

/-! ## The checks -/

/-- What a checked order goes on with. -/
structure Quote where
  userId : ℕ
  phone : String
  profile : RetailerProfile
  built : List Built
  /-- `pay_mode`, in lower case. -/
  mode : String
  method : PaymentMethod
  subtotal : ℚ
  gst : ℚ
  final : ℚ

/-- The payment method of a mode, if the shop may use it for the amount. -/
def methodFor (env : Env) (profile : RetailerProfile) (final : ℚ) (mode : String) :
    Except AppError PaymentMethod :=
  if mode = "credit" then do
    raiseIf (profile.creditAllowed = false) (.badRequest "Credit not allowed for this shop")
    raiseIf (profile.creditLimit < round2 (profile.outstandingBalance + final))
      (.badRequest ("Order " ++ Credit.rupees final ++ " would exceed credit limit (outstanding " ++
        Credit.rupees profile.outstandingBalance ++ " / limit " ++
        Credit.rupees profile.creditLimit ++ ")"))
    return .credit
  else if mode = "upi" then return .upi
  else if mode = "razorpay" then do
    raiseIf (¬ env.settings.razorpayConfigured) (.unavailable "Razorpay not configured")
    return .razorpay
  else return .cod

/-- The checks of `create_bulk_order`. -/
def quote (env : Env) (userId : ℕ) (phone : String) (lines : List BulkLine) (payMode : String)
    (db : Db) : Except AppError Quote := do
  raiseIf (lines = []) (.badRequest "Add at least one line item")
  let (_, profile) ← orRaise (profileOf db userId) (.badRequest "Shop profile required")
  let status := (truthy (some profile.approvalStatus)).getD "approved"
  raiseIf (status = "incomplete")
    (.forbidden "Complete your shop profile and submit for approval first")
  raiseIf (status = "pending") (.forbidden "Shop awaiting owner approval")
  raiseIf (status ≠ "approved") (.forbidden "Shop not approved")
  raiseIf (profile.isBlocked = true) (.forbidden "Shop is blocked")
  let built ← lines.mapM (buildLine db)
  let subtotal := (built.map fun b => b.unit * (b.qty : ℚ)).sum
  let gst := round2 (subtotal * (5 / 100))
  let final := round2 (subtotal + gst)
  let mode := String.ofList (lower ((truthy (some payMode)).getD "credit").toList)
  let method ← methodFor env profile final mode
  return { userId, phone, profile, built, mode, method, subtotal, gst, final }

/-! ## The rows -/

def orderOf (draws : Checkout.Draws) (q : Quote) : Order where
  orderNumber := draws.orderNumber
  userId := q.userId
  shopUserId := none
  orderType := OrderType.b2bShopOrder.value
  addressId := none
  status := .placed
  paymentStatus := .pending
  paymentMethod := some q.method
  subtotal := q.subtotal
  discount := 0
  couponCode := none
  gstAmount := q.gst
  deliveryFee := 0
  finalAmount := q.final
  paidAmount := 0
  customerPhone := some q.phone
  addressSnapshot := some
    ⟨none, some q.profile.shopName, none, none, some q.profile.city, none, q.profile.addressLine⟩
  createdAt := draws.createdAt
  internalNotes := some "retailer_b2b"

/-- The database with the order. -/
def place (draws : Checkout.Draws) (q : Quote) (db : Db) : Db :=
  { db with orders := db.orders.insert (orderOf draws q) }

def itemOf (orderId : ℕ) (b : Built) : OrderItem where
  orderId := orderId
  productId := b.productId
  productName := b.product.name
  productImage := b.product.coverImageUrl
  variant := none
  flavor := none
  isEggless := b.product.isEggless
  quantity := b.qty
  unitPrice := b.unit
  totalPrice := round2 (b.unit * b.qty)
  unitCost := b.product.purchaseCost.getD 0

def paymentOf (draws : Checkout.Draws) (q : Quote) (orderId : ℕ) : SweetCrust.Payment where
  orderId := orderId
  userId := q.userId
  amount := q.final
  method := some q.method
  status := .pending
  transactionId := some draws.transactionId
  upiId := none
  gatewayResponse := .empty
  failureReason := none

/-- The database with the items and the payment. -/
def furnish (draws : Checkout.Draws) (q : Quote) (orderId : ℕ) (db : Db) : Db :=
  { db with
    orderItems := db.orderItems.insertAll (q.built.map (itemOf orderId))
    payments := db.payments.insert (paymentOf draws q orderId) }

/-! ## Razorpay -/

/-- The contact of a payment link: the phone without signs and blanks, its last fifteen
characters. -/
def contactOf (phone : Option String) : Option String :=
  (truthy phone).bind fun p =>
    let digits := p.toList.filter fun c => c ≠ '+' ∧ c ≠ ' '
    truthy (some (String.ofList (digits.drop (digits.length - 15))))

/-- A client call that is not checked for keys. -/
def post {ρ α : Type} (endpoint : ρ → Except String α) (request : ρ) (failure : String) :
    Except AppError α :=
  match endpoint request with
  | .ok data => .ok data
  | .error text => .error (.badGateway (failure ++ clip 200 text))

/-- What a Razorpay order shows the shop. -/
structure RazorpayCheckout where
  razorpayOrder : RazorpayOrder
  paymentLink : PaymentLink

/-- `create_razorpay_order` and `create_payment_link` for the order. -/
def razorpayCheckout (env : Env) (gateway : Gateway) (draws : Checkout.Draws) (q : Quote)
    (orderId : ℕ) : Except AppError RazorpayCheckout := do
  let notes : Payment.Notes :=
    { orderId := String.ofList (natText orderId)
      orderNumber := draws.orderNumber
      userId := String.ofList (natText q.userId) }
  let razorpayOrder ← post gateway.orders
    { amount := paise q.final, currency := "INR", receipt := clip 40 draws.orderNumber, notes }
    "Razorpay order failed: "
  let paymentLink ← post gateway.paymentLinks
    { amount := paise q.final
      currency := "INR"
      acceptPartial := false
      description := clip 2048 ("SweetCrust " ++ draws.orderNumber)
      referenceId := clip 40 draws.orderNumber
      reminderEnable := false
      notes
      customerName := none
      customerContact := contactOf ((truthy q.profile.contactPhone).or (some q.phone)) }
    "Razorpay payment link failed: "
  return ⟨{ razorpayOrder with keyId := env.settings.razorpayKeyId }, paymentLink⟩

/-- The database with the payment on its way through Razorpay. -/
def process (paymentId : ℕ) (checkout : RazorpayCheckout) (db : Db) : Db :=
  { db with
    payments := db.payments.modify paymentId fun p =>
      { p with
        method := some .razorpay
        status := .processing
        gatewayResponse :=
          { GatewayResponse.empty with
            razorpayOrder := some checkout.razorpayOrder
            paymentLink := some checkout.paymentLink } } }

/-! ## The handler -/

/-- The answer: `order_detail`, and what Razorpay returned. -/
structure BulkDetail where
  order : Order
  items : List (ℕ × OrderItem)
  razorpay : Option RazorpayCheckout

/-- `order_detail`. -/
def orderDetail (orderId : ℕ) : Service (Order × List (ℕ × OrderItem)) := do
  let db ← get
  let order ← orRaise (db.orders.get? orderId) (.notFound "Order not found")
  return (order, db.orderItems.select fun i => i.orderId = orderId)

/-- Send an order to Razorpay. -/
def sendToRazorpay (env : Env) (gateway : Gateway) (draws : Checkout.Draws) (q : Quote)
    (orderId paymentId : ℕ) : Service RazorpayCheckout := do
  let checkout ← ofExcept (razorpayCheckout env gateway draws q orderId)
  modify (process paymentId checkout)
  commit
  return checkout

/-- Book an order on credit. -/
def bookOnCredit (draws : Checkout.Draws) (q : Quote) (orderId : ℕ) : Service Unit := do
  let db ← get
  let write ← ofExcept (Credit.debitCredit q.userId q.final (some orderId)
    (some ("Order " ++ draws.orderNumber)) (some q.userId) db)
  modify write
  commit
  return ()

/-- What is done about the payment of an order, according to its mode. -/
def settle (env : Env) (gateway : Gateway) (draws : Checkout.Draws) (q : Quote)
    (orderId paymentId : ℕ) : Service (Option RazorpayCheckout) :=
  if q.mode = "razorpay" then do
    return some (← sendToRazorpay env gateway draws q orderId paymentId)
  else if q.mode = "credit" then do
    bookOnCredit draws q orderId
    return none
  else return none

/-- `create_bulk_order`. -/
def createBulkOrder (env : Env) (gateway : Gateway) (draws : Checkout.Draws) (userId : ℕ)
    (phone : String) (lines : List BulkLine) (payMode : String) : Service BulkDetail := do
  let db ← get
  let q ← ofExcept (quote env userId phone lines payMode db)
  modify (place draws q)
  commit
  modify (furnish draws q db.orders.next)
  commit
  let razorpay ← settle env gateway draws q db.orders.next db.payments.next
  let (order, items) ← orderDetail db.orders.next
  return { order, items, razorpay }

/-! ## What it leaves -/

section Specs

variable {env : Env} {gateway : Gateway} {draws : Checkout.Draws} {userId orderId paymentId : ℕ}
  {phone payMode : String} {lines : List BulkLine} {q : Quote} {db s : Db}

/-- What the checks vouch for. -/
structure Checked (db : Db) (userId : ℕ) (q : Quote) : Prop where
  user : q.userId = userId
  cents : IsCents q.final
  mode : q.mode = "credit" ↔ q.method = .credit
  profile : ∃ i, profileOf db userId = some (i, q.profile)
  blocked : q.profile.isBlocked = false
  /-- What `debit_credit` is going to ask for once more. -/
  credit : q.method = .credit → q.profile.creditAllowed = true ∧
    round2 (q.profile.outstandingBalance + q.final) ≤ q.profile.creditLimit

theorem methodFor_eq_ok {profile : RetailerProfile} {final : ℚ} {mode : String}
    {method : PaymentMethod} (h : methodFor env profile final mode = .ok method) :
    (mode = "credit" ↔ method = .credit) ∧ (method = .credit → profile.creditAllowed = true ∧
      round2 (profile.outstandingBalance + final) ≤ profile.creditLimit) := by
  unfold methodFor at h
  split_ifs at h with hcredit hupi hrazorpay
  · obtain ⟨hallowed, hlimit, hmethod⟩ := by
      simpa only [raiseIf_bind_eq_ok, pure_eq_ok] using h
    subst hmethod
    exact ⟨iff_of_true hcredit rfl, fun _ => ⟨by simpa using hallowed, not_lt.1 hlimit⟩⟩
  · cases pure_eq_ok.1 h
    exact ⟨iff_of_false hcredit (by simp), by simp⟩
  · obtain ⟨-, hmethod⟩ := raiseIf_bind_eq_ok.1 h
    cases pure_eq_ok.1 hmethod
    exact ⟨iff_of_false hcredit (by simp), by simp⟩
  · cases pure_eq_ok.1 h
    exact ⟨iff_of_false hcredit (by simp), by simp⟩

theorem checked_of_quote (h : quote env userId phone lines payMode db = .ok q) :
    Checked db userId q := by
  unfold quote at h
  obtain ⟨-, ⟨i, profile⟩, hprofile, -, -, -, hblocked, h⟩ := by
    simpa only [raiseIf_bind_eq_ok, orRaise_bind_eq_ok] using h
  obtain ⟨built, -, h⟩ := bind_eq_ok.1 h
  obtain ⟨method, hmethod, h⟩ := bind_eq_ok.1 h
  obtain ⟨hmode, hcredit⟩ := methodFor_eq_ok hmethod
  cases pure_eq_ok.1 h
  exact ⟨rfl, isCents_round2 _, hmode, ⟨i, hprofile⟩, by simpa using hblocked, hcredit⟩

theorem final_sendToRazorpay :
    (final (sendToRazorpay env gateway draws q orderId paymentId) s).orders = s.orders ∧
    (final (sendToRazorpay env gateway draws q orderId paymentId) s).profiles = s.profiles := by
  unfold sendToRazorpay
  cases razorpayCheckout env gateway draws q orderId with
  | error e => exact ⟨rfl, rfl⟩
  | ok checkout => exact ⟨rfl, rfl⟩

/-- An order that is not on credit touches neither orders nor profiles any more. -/
theorem final_settle_of_ne (env : Env) (gateway : Gateway) (draws : Checkout.Draws)
    (orderId paymentId : ℕ) (s : Db) (h : q.mode ≠ "credit") :
    (final (settle env gateway draws q orderId paymentId) s).orders = s.orders ∧
      (final (settle env gateway draws q orderId paymentId) s).profiles = s.profiles := by
  unfold settle
  split_ifs
  · rw [final_bind_of_reads fun checkout t => reads_pure _ t]
    exact final_sendToRazorpay
  · exact ⟨rfl, rfl⟩

/-- An order on credit is debited, unless it totals nothing. -/
theorem final_settle_of_credit (env : Env) (gateway : Gateway) (draws : Checkout.Draws)
    (orderId paymentId : ℕ) (hq : Checked db userId q) (hs : s.profiles = db.profiles)
    (h : q.mode = "credit") :
    (final (settle env gateway draws q orderId paymentId) s).orders = s.orders ∧
      ∀ i, profileOf db userId = some (i, q.profile) →
        (final (settle env gateway draws q orderId paymentId) s).profiles =
          if 0 < q.final then db.profiles.modify i
            (Credit.setBalance (round2 (q.profile.outstandingBalance + q.final)))
          else db.profiles := by
  have hnot : ¬ q.mode = "razorpay" := by
    rw [h]
    decide
  have hprofile : ∀ i, profileOf db userId = some (i, q.profile) →
      profileOf s q.userId = some (i, q.profile) := by
    intro i hi
    rw [hq.user]
    unfold profileOf
    rw [hs]
    exact hi
  have hcredit := hq.credit (hq.mode.1 h)
  unfold settle
  rw [if_neg hnot, if_pos h, final_bind_of_reads fun _ t => reads_pure _ t]
  unfold bookOnCredit
  rw [final_get_bind]
  cases hplan : Credit.debitCredit q.userId q.final (some orderId)
      (some ("Order " ++ draws.orderNumber)) (some q.userId) s with
  | error e =>
    refine ⟨rfl, fun i hi => ?_⟩
    have hle : ¬ 0 < q.final := by
      intro hpos
      obtain ⟨write, hok⟩ : ∃ write, Credit.debitCredit q.userId q.final (some orderId)
          (some ("Order " ++ draws.orderNumber)) (some q.userId) s = .ok write :=
        ⟨_, Credit.debitCredit_eq_ok.2 ⟨i, q.profile, hprofile i hi,
          ⟨hpos, hq.blocked, hcredit.1, hcredit.2⟩, rfl⟩⟩
      rw [hplan] at hok
      cases hok
    rw [if_neg hle]
    exact hs
  | ok write =>
    obtain ⟨j, p, hp, hacc, rfl⟩ := Credit.debitCredit_eq_ok.1 hplan
    refine ⟨rfl, fun i hi => ?_⟩
    rw [hprofile i hi] at hp
    cases hp
    rw [if_pos hacc.1, ← hs]
    rfl

/-- A refused order leaves the database as it is. -/
theorem final_createBulkOrder_of_error {e : AppError}
    (h : quote env userId phone lines payMode db = .error e) :
    final (createBulkOrder env gateway draws userId phone lines payMode) db = db := by
  unfold createBulkOrder
  rw [final_get_bind, h]
  rfl

/-- A checked order is there, and the shop's balance has grown by it if it is on credit. -/
theorem final_createBulkOrder (gateway : Gateway) (draws : Checkout.Draws)
    (h : quote env userId phone lines payMode db = .ok q) :
    (final (createBulkOrder env gateway draws userId phone lines payMode) db).orders =
        db.orders.insert (orderOf draws q) ∧
      ∀ i, profileOf db userId = some (i, q.profile) →
        (final (createBulkOrder env gateway draws userId phone lines payMode) db).profiles =
          if q.method = .credit ∧ 0 < q.final then db.profiles.modify i
            (Credit.setBalance (round2 (q.profile.outstandingBalance + q.final)))
          else db.profiles := by
  have hq := checked_of_quote h
  have hfinal : final (createBulkOrder env gateway draws userId phone lines payMode) db =
      final (settle env gateway draws q db.orders.next db.payments.next)
        (furnish draws q db.orders.next (place draws q db)) := by
    unfold createBulkOrder
    rw [final_get_bind, h, final_ofExcept_ok_bind, final_modify_commit_bind,
      final_modify_commit_bind]
    refine final_bind_of_reads (fun razorpay t => ?_) _
    exact ((reads_get t).bind fun u => (reads_orRaise _ _ t).bind fun order => reads_pure _ t).bind
      fun detail => reads_pure _ t
  rw [hfinal]
  by_cases hmode : q.mode = "credit"
  · obtain ⟨horders, hprofiles⟩ := final_settle_of_credit env gateway draws db.orders.next
      db.payments.next (s := furnish draws q db.orders.next (place draws q db)) hq rfl hmode
    refine ⟨horders, fun i hi => ?_⟩
    rw [hprofiles i hi]
    simp only [hq.mode.1 hmode, true_and]
  · obtain ⟨horders, hprofiles⟩ := final_settle_of_ne env gateway draws db.orders.next
      db.payments.next (furnish draws q db.orders.next (place draws q db)) hmode
    refine ⟨horders, fun i _ => ?_⟩
    rw [hprofiles, if_neg fun hc => hmode (hq.mode.2 hc.1)]
    rfl

end Specs

end BulkOrders

end SweetCrust
