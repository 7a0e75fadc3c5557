import SweetCrust.Cart.Promotion
import SweetCrust.Cart.Requests
import SweetCrust.Checkout.Checkout
import SweetCrust.Payment.Payments
import SweetCrust.Sell.Coupons

/-!
# Do the money fields of an order add up?

Subtotal, discount, tax and total of an order are rounded separately, and the total is
rounded from the amounts before their rounding.  What a coupon takes off is stored as it
is, though no more than the subtotal is taken off.

* `addsUp_summaryFor_iff` — when the fields of a summary add up.
* `orderAddsUp_iff` — the same for an order, its items and its invoice.
* `halfPaisa_lost` — a coupon of ten percent, and an order that does not add up.
-/

namespace SweetCrust

open Tabular Session Rounding Carts Promotion

namespace Checkout

/-! ## The invoice -/

/-- The invoice that `generate_invoice` of the checkout service writes.  The columns that it
does not know hold their defaults. -/
def invoiceOf (db : Db) (s : BakerySettings) (orderId : ℕ) (order : Order) : Invoice :=
  let addr := order.addressSnapshot.getD ⟨none, none, none, none, none, none, none⟩
  { orderId := some orderId
    kind := "customer_order"
    refType := none
    refId := none
    buyerUserId := none
    sellerUserId := none
    bakeryName := s.bakeryName
    gstin := s.gstin
    customerName := addr.fullName.getD "Customer"
    customerPhone := (Text.truthy order.customerPhone).getD (addr.phone.getD "")
    customerAddress := some (Payment.joinParts [addr.line1, addr.city, addr.pincode])
    lineItems :=
      { items := (db.orderItems.select fun i => i.orderId = orderId).map fun i =>
          ⟨i.2.productName, i.2.quantity, i.2.unitPrice, i.2.totalPrice⟩ }
    subtotal := order.subtotal
    discount := order.discount
    gstAmount := order.gstAmount
    deliveryFee := order.deliveryFee
    grandTotal := order.finalAmount
    paymentMethod := order.paymentMethod.map PaymentMethod.value
    transactionId := (latestPayment db orderId).bind fun p => p.2.transactionId }

/-- `generate_invoice`. -/
def generateInvoice (orderId : ℕ) (order : Order) : Service Invoice := do
  let db ← get
  match Payment.invoiceFor db orderId with
  | some existing => return existing.2
  | none =>
    let s ← settings
    let db ← get
    modify fun db => { db with invoices := db.invoices.insert (invoiceOf db s orderId order) }
    commit
    return invoiceOf db s orderId order

/-! ## Adding up -/

/-- The amounts add up, and the discount is no more than the subtotal. -/
structure AddsUp (subtotal discount gst fee final : ℚ) : Prop where
  sum : final = subtotal - discount + gst + fee
  nonneg : 0 ≤ discount
  le : discount ≤ subtotal

/-- What the items of an order come to. -/
def itemsTotal (db : Db) (o : ℕ) : ℚ :=
  db.orderItems.total fun i => if i.orderId = o then i.totalPrice else 0

/-- The order is there, and it and the invoice generated from it add up. -/
structure OrderAddsUp (db : Db) (o : ℕ) : Prop where
  order : ∃ order, db.orders.get? o = some order ∧
    AddsUp order.subtotal order.discount order.gstAmount order.deliveryFee order.finalAmount ∧
    order.subtotal = itemsTotal db o
  invoice : ∀ order, db.orders.get? o = some order →
    ∀ v t, (generateInvoice o order db).2 = .ok (v, t) →
      AddsUp v.subtotal v.discount v.gstAmount v.deliveryFee v.grandTotal ∧
      v.subtotal = itemsTotal db o

/-- What the lines that the customer is about to buy come to. -/
def cartWorth (db : Db) (u : ℕ) : ℚ :=
  ((activeItems db (cartFor db u).1).map fun r => r.2.unitPrice * (r.2.quantity : ℚ)).sum

/-- The delivery fee for a cart of that worth. -/
def feeFor (s : BakerySettings) (worth : ℚ) : ℚ :=
  if s.freeDeliveryMin ≤ worth then 0 else s.deliveryCharge

/-- A cart of some worth from which a coupon takes off `x` is charged exactly: worth and fee
are whole paise, the coupon takes off neither less than nothing nor more than the worth, but
for what the rounding swallows, and where it takes off half a paisa the total without the
coupon is an even number of paise. -/
structure Exact (s : BakerySettings) (worth x : ℚ) : Prop where
  whole : IsCents worth
  fee : IsCents (feeFor s worth)
  lower : -(1 / 200) ≤ x
  upper : x < worth + 1 / 200 ∨ x = worth + 1 / 200 ∧ EvenCents worth
  half : x ≤ worth → HalfCent x →
    EvenCents (worth + round2 ((worth - x) * (1 / 20)) + feeFor s worth)

/-- Items and invoices belong to orders that there are. -/
structure Linked (db : Db) : Prop where
  items : db.orderItems.All fun i => i.orderId < db.orders.next
  invoices : db.invoices.All fun v => ∀ o ∈ v.orderId, o < db.orders.next

instance (db : Db) : Decidable (Linked db) :=
  decidable_of_iff
    ((db.orderItems.All fun i => i.orderId < db.orders.next) ∧
      db.invoices.All fun v => ∀ o ∈ v.orderId, o < db.orders.next)
    ⟨fun h => ⟨h.1, h.2⟩, fun h => ⟨h.items, h.invoices⟩⟩

/-! ## Rounded amounts -/

section Amounts

variable {worth x fee : ℚ}

/-- The total, once the fee is in whole paise and not more is taken off than there is. -/
theorem total_of_le (hworth : IsCents worth) (hfee : IsCents fee) (hle : x ≤ worth) :
    round2 (max (worth - x) 0 + round2 (max (worth - x) 0 * (1 / 20)) + fee) =
        worth - round2 x + round2 (max (worth - x) 0 * (1 / 20)) + fee ↔
      (HalfCent x → EvenCents (worth + round2 ((worth - x) * (1 / 20)) + fee)) := by
  have hmax : max (worth - x) 0 = worth - x := max_eq_left (by linarith)
  have hcents : IsCents (worth + round2 ((worth - x) * (1 / 20)) + fee) :=
    (hworth.add (isCents_round2 _)).add hfee
  have htake := round2_add_iff hcents (-x)
  rw [round2_neg, halfCent_neg, ← imp_iff_not_or] at htake
  rw [hmax, ← htake]
  have hleft : worth - x + round2 ((worth - x) * (1 / 20)) + fee =
      worth + round2 ((worth - x) * (1 / 20)) + fee + -x := by ring
  rw [hleft]
  constructor <;> intro h <;> linarith

/-- The total, when more is taken off than there is, but rounded not more. -/
theorem total_of_lt (hworth : IsCents worth) (hfee : IsCents fee) (hlt : worth < x)
    (hround : round2 x ≤ worth) :
    round2 (max (worth - x) 0 + round2 (max (worth - x) 0 * (1 / 20)) + fee) =
      worth - round2 x + round2 (max (worth - x) 0 * (1 / 20)) + fee := by
  have hmax : max (worth - x) 0 = 0 := max_eq_right (by linarith)
  have hle := round2_mono hlt.le
  rw [round2_of_isCents hworth] at hle
  have hall : round2 x = worth := le_antisymm hround hle
  rw [hmax, zero_mul, round2_zero, add_zero, zero_add, round2_of_isCents hfee, hall]
  ring

/-- A total in whole paise has a fee in whole paise. -/
theorem isCents_fee (hworth : IsCents worth) {tax final : ℚ} (hfinal : IsCents final)
    (htax : IsCents tax) (hsum : final = worth - round2 x + tax + fee) : IsCents fee := by
  have hfee : fee = final - (worth - round2 x + tax) := by linarith
  rw [hfee]
  exact hfinal.sub ((hworth.sub (isCents_round2 x)).add htax)

end Amounts

/-! ## The summary -/

section Summaries

variable {s : Db} {u : ℕ} {x : ℚ}

/-- The lines of a summary come to what the cart is worth. -/
theorem worth_summaryFor (s : Db) (u : ℕ) :
    ((summaryFor s u).items.map Line.totalPrice).sum = cartWorth s u := by
  unfold summaryFor summaryOf cartWorth activeItems
  rw [prepared_cartItems, List.map_map]
  rfl

theorem settingsOf_withCart (u : ℕ) (s : Db) : settingsOf (withCart u s) = settingsOf s := by
  unfold settingsOf withCart
  cases cartOf s u <;> rfl

/-- The fields of a summary, as functions of what the cart is worth and what comes off. -/
theorem fields_summaryFor (hx : TakesOff (cartWorth s u) (appliedCoupon s (cartFor s u).2) x) :
    (summaryFor s u).subtotal = round2 (cartWorth s u) ∧
      (summaryFor s u).discount = round2 x ∧
      (summaryFor s u).gst = round2 (max (cartWorth s u - x) 0 * (1 / 20)) ∧
      (summaryFor s u).deliveryFee = feeFor (settingsOf s) (cartWorth s u) ∧
      (summaryFor s u).finalTotal =
        round2 (max (cartWorth s u - x) 0 + round2 (max (cartWorth s u - x) 0 * (1 / 20)) +
          feeFor (settingsOf s) (cartWorth s u)) := by
  have hworth : (((activeItems (prepared u s) (cartFor s u).1).map
      (lineOf (prepared u s))).map Line.totalPrice).sum = cartWorth s u := worth_summaryFor s u
  have hcoupons : (prepared u s).coupons = s.coupons := (frame_prepared u s).coupons
  have hdiscount : discountOf (prepared u s) (cartFor s u).2 (cartWorth s u) = x := by
    have hsame : discountOf (prepared u s) (cartFor s u).2 (cartWorth s u) =
        discountOf s (cartFor s u).2 (cartWorth s u) := by
      unfold discountOf discountIn
      rw [hcoupons]
    rw [hsame]
    exact (takesOff_discountOf s (cartFor s u).2 (cartWorth s u)).unique hx
  unfold summaryFor summaryOf
  simp only [hworth, hdiscount, settingsOf_withCart]
  simp [feeFor]

/-- The fields of a summary add up, and to its lines, exactly when the cart is charged
exactly. -/
theorem addsUp_summaryFor_iff
    (hx : TakesOff (cartWorth s u) (appliedCoupon s (cartFor s u).2) x) :
    AddsUp (summaryFor s u).subtotal (summaryFor s u).discount (summaryFor s u).gst
        (summaryFor s u).deliveryFee (summaryFor s u).finalTotal ∧
      (summaryFor s u).subtotal = cartWorth s u ↔ Exact (settingsOf s) (cartWorth s u) x := by
  obtain ⟨hsubtotal, hdiscount, hgst, hfee, hfinal⟩ := fields_summaryFor hx
  rw [hsubtotal, hdiscount, hgst, hfee, hfinal]
  set worth := cartWorth s u
  set fee := feeFor (settingsOf s) worth with hfeeFor
  constructor
  · rintro ⟨hadds, hcents⟩
    have hworth : IsCents worth := hcents ▸ isCents_round2 worth
    rw [hcents] at hadds
    have hfee := isCents_fee hworth (isCents_round2 _) (isCents_round2 _) hadds.sum
    refine ⟨hworth, hfee, (round2_nonneg_iff x).1 hadds.nonneg, (round2_le_iff hworth x).1 hadds.le,
      fun hle => ?_⟩
    exact (total_of_le hworth hfee hle).1 hadds.sum
  · intro h
    have hround := (round2_le_iff h.whole x).2 h.upper
    rw [round2_of_isCents h.whole]
    refine ⟨⟨?_, (round2_nonneg_iff x).2 h.lower, hround⟩, rfl⟩
    rcases le_or_gt x worth with hle | hlt
    · exact (total_of_le h.whole h.fee hle).2 (h.half hle)
    · exact total_of_lt h.whole h.fee hlt hround

end Summaries

/-! ## The order -/

section Orders

variable {s t : Db} {u o : ℕ} {data : CheckoutIn} {draws : Draws} {q : Quote} {x : ℚ}

/-- The items of a new order come to what its lines do. -/
theorem itemsTotal_checkedOut (h : Linked s) (draws : Draws) (q : Quote) :
    itemsTotal (checkedOut draws q s) s.orders.next =
      (q.summary.items.map Line.totalPrice).sum :=
  total_checkedOut h.items draws q OrderItem.totalPrice

theorem linked_prepared (h : Linked s) (u : ℕ) : Linked (prepared u s) := by
  have hframe := frame_prepared u s
  obtain ⟨items, carts, rows, ht⟩ := hframe
  rw [ht]
  exact ⟨h.items, h.invoices⟩

/-- A new order has no invoice yet, so the one generated is its copy. -/
theorem generateInvoice_checkedOut (h : Linked s) (draws : Draws) (q : Quote) {v : Invoice}
    (hv : (generateInvoice s.orders.next (orderOf draws q) (checkedOut draws q s)).2 = .ok (v, t)) :
    v.subtotal = q.summary.subtotal ∧ v.discount = q.summary.discount ∧
      v.gstAmount = q.summary.gst ∧ v.deliveryFee = q.summary.deliveryFee ∧
      v.grandTotal = q.summary.finalTotal := by
  have hnone : Payment.invoiceFor (checkedOut draws q s) s.orders.next = none := by
    refine List.find?_eq_none.2 fun r hr => ?_
    simp only [decide_eq_true_eq]
    intro ho
    have hlt := h.invoices r hr s.orders.next ho
    omega
  unfold generateInvoice at hv
  rw [outcome_get_bind, hnone] at hv
  obtain ⟨rows, t₁, _, hrest⟩ := bind_outcome_eq_ok.1 hv
  cases hrest
  exact ⟨rfl, rfl, rfl, rfl, rfl⟩

/-- An order and its invoice add up exactly when the cart is charged exactly: all for the
coupon that the cart has, and for what that takes off. -/
theorem orderAddsUp_iff (hlinked : Linked s) (hout : (checkout u data draws s).2 = .ok (o, t))
    (hx : TakesOff (cartWorth s u) (appliedCoupon s (cartFor s u).2) x) :
    OrderAddsUp t o ↔ Exact (settingsOf s) (cartWorth s u) x := by
  obtain ⟨q, hq, rfl, rfl⟩ := checkout_eq_ok hout
  obtain ⟨_, _, hsummary, _⟩ := quote_eq_ok (quoted_eq_some hq).outcome
  have hlinked := linked_prepared hlinked u
  have horder := order_checkedOut draws q (prepared u s)
  have hitems := itemsTotal_checkedOut hlinked draws q
  rw [hsummary, worth_summaryFor] at hitems
  rw [← addsUp_summaryFor_iff hx, ← hsummary]
  constructor
  · intro h
    obtain ⟨order, hget, hadds, hsum⟩ := h.order
    rw [horder] at hget
    cases hget
    exact ⟨hadds, hsum.trans hitems⟩
  · rintro ⟨hadds, hsum⟩
    refine ⟨⟨_, horder, hadds, hsum.trans hitems.symm⟩, fun order hget v t hv => ?_⟩
    rw [horder] at hget
    cases hget
    obtain ⟨hsubtotal, hdiscount, hgst, hfee, hfinal⟩ := generateInvoice_checkedOut hlinked draws q hv
    rw [hsubtotal, hdiscount, hgst, hfee, hfinal, hitems]
    exact ⟨hadds, hsum⟩

end Orders

/-! ## A coupon that takes off half a paisa -/

/-- A shop, user 1, that sells a cake, and a customer, user 2, who has one in the cart. -/
def cakeShop (price : ℚ) : Db :=
  { Db.empty with
    users := .ofList [{ (default : User) with role := .retailer }, default]
    profiles := .ofList
      [{ (default : RetailerProfile) with
          userId := 1, approvalStatus := "approved", sellSubscriptionStatus := "approved" }]
    products := .ofList
      [{ (default : Product) with
          supplierUserId := some 1, sellingPrice := price, stockQty := 5, isActive := true }]
    addresses := .ofList
      [{ (default : Address) with userId := 2, latitude := some 20, longitude := some 85 }]
    carts := .ofList [⟨2, none⟩]
    cartItems := .ofList
      [{ (default : CartItem) with
          cartId := 1, productId := 1, quantity := 1, unitPrice := price }] }

/-- The shop with a coupon of ten percent, which the customer's cart has. -/
def couponShop (price : ℚ) : Db :=
  final (applyCoupon 2 "cake10")
    (final (Sell.createCoupon 1 0 { code := "cake10", title := "Ten percent off", value := 10 })
      (cakeShop price))

/-- The customer's checkout. -/
def buyCake : Service ℕ := checkout 2 ⟨1, "upi", ""⟩ ⟨"ORD1", "TXN1", 0⟩

/-- Off a cake at ₹250 it takes ₹25, and the order adds up. -/
theorem couponShop_addsUp :
    ∃ o t, (buyCake (couponShop 250)).2 = .ok (o, t) ∧ OrderAddsUp t o := by
  have hsome : (buyCake (couponShop 250)).2.toOption.isSome = true := by decide +kernel
  have hworth : cartWorth (couponShop 250) 2 = 250 := by decide +kernel
  have hfee : feeFor (settingsOf (couponShop 250)) 250 = 40 := by decide +kernel
  have hoff : discountOf (couponShop 250) (cartFor (couponShop 250) 2).2 250 = 25 := by
    decide +kernel
  have hx := takesOff_discountOf (couponShop 250) (cartFor (couponShop 250) 2).2 250
  rw [hoff, ← hworth] at hx
  cases hout : (buyCake (couponShop 250)).2 with
  | error e =>
    rw [hout] at hsome
    cases hsome
  | ok r =>
    refine ⟨r.1, r.2, rfl, (orderAddsUp_iff (by decide +kernel) hout hx).2 ?_⟩
    rw [hworth]
    refine ⟨⟨25000, by norm_num⟩, ?_, by norm_num, Or.inl (by norm_num), fun _ h => ?_⟩
    · rw [hfee]
      exact ⟨4000, by norm_num⟩
    · norm_num [HalfCent] at h

/-- Off a cake at ₹250.65 it takes 25.065, which is stored as 25.06: with 11.28 of tax and 40 of
delivery the order comes to 276.86, and its parts to 276.87. -/
theorem halfPaisa_lost :
    (buyCake (couponShop (5013 / 20))).2.toOption.map Prod.fst = some 1 ∧
      ¬ OrderAddsUp (final buyCake (couponShop (5013 / 20))) 1 := by
  refine ⟨by decide +kernel, fun h => ?_⟩
  obtain ⟨order, hget, hadds, _⟩ := h.order
  have hall : ((final buyCake (couponShop (5013 / 20))).orders.get? 1).all
      (fun order => order.finalAmount ≠
        order.subtotal - order.discount + order.gstAmount + order.deliveryFee) = true := by
    decide +kernel
  rw [hget, Option.all_some, decide_eq_true_eq] at hall
  exact hall hadds.sum

end Checkout

end SweetCrust
