import SweetCrust.Lib.Binary64
import SweetCrust.StoreOps.Integrations
import SweetCrust.StoreOps.PayRules

/-!
# Buying stock from shops and paying them: `purchases.py`

A purchase order is created pending, or received at once; accepting it receives the
goods and owes the shop its total, and payments settle what is owed.  As in the udhaar,
each request reads what it needs, works out new values and commits them in one
transaction, so each is a function from the database it reads to the write it commits.

The settlement invoice that is issued after a payment is a transaction of its own, and
its failure is swallowed; it is not part of the request's write.
-/

namespace SweetCrust

open Tabular Guard Rounding Decimal Text PayRules
open Binary64 (fl)

namespace Purchase

/-- `_PAY_METHODS`. -/
def payMethods : List String := ["cod", "upi", "cash", "razorpay"]

/-- `_shop`: the user and the profile of a shop, with the profile's key. -/
def shop (db : Db) (supplierUserId : ℕ) : Except AppError (User × ℕ × RetailerProfile) := do
  let user ← orRaise ((db.users.get? supplierUserId).filter fun u => u.role = .retailer)
    (.notFound "Shop / wholesaler not found")
  let (i, profile) ← orRaise (profileOf db supplierUserId) (.notFound "Shop profile not found")
  return (user, i, profile)

/-! ## Receiving goods -/

/-- The columns of a product that a receipt rewrites. -/
structure StockWrite where
  purchaseCost : ℚ
  stockQty : ℤ
  stockStatus : StockStatus
  supplierAvailableQty : ℤ

/-- A product after `qty` pieces came in at `unitCost`: the average cost, in floats, more stock,
and less on offer by the supplier. -/
def stockAfterReceipt (product : Product) (qty : ℤ) (unitCost : ℚ) : StockWrite :=
  let oldQty := product.stockQty
  let oldCost := product.purchaseCost.getD 0
  let newQty := oldQty + qty
  { purchaseCost :=
      if 0 < newQty then
        round2 (fl (fl (fl (fl oldCost * fl oldQty) + fl (fl unitCost * fl qty)) / fl newQty))
      else unitCost
    stockQty := newQty
    stockStatus := stockStatusFor newQty product.lowStockThreshold
    supplierAvailableQty := max 0 (product.supplierAvailableQty - qty) }

def StockWrite.apply (w : StockWrite) (p : Product) : Product :=
  { p with
    purchaseCost := some w.purchaseCost
    stockQty := w.stockQty
    stockStatus := w.stockStatus
    supplierAvailableQty := w.supplierAvailableQty }

/-- The movement of the goods of a purchase order. -/
def receiptMovement (purchase : SupplierPurchase) (shopName : String) (createdBy : Option ℕ) :
    StockMovement where
  productId := purchase.productId
  changeQty := purchase.qty
  reason := "supplier_purchase"
  note := some ("From " ++ shopName ++ ((truthy purchase.note).map (" — " ++ ·)).getD "")
  createdBy := createdBy

/-- The profile with another amount owed to the shop. -/
def setPayable (balance : ℚ) (p : RetailerProfile) : RetailerProfile :=
  { p with payableBalance := balance }

/-- The row of a purchase order whose goods have come in. -/
def receivedRow (markPaid : Bool) (total : ℚ) (payMethod : Option String)
    (p : SupplierPurchase) : SupplierPurchase :=
  if markPaid then { p with paidAmount := total, payMethod := payMethod, status := .paid }
  else { p with status := .received }

/-- Write the new stock of a product and the movement that explains it. -/
def writeStock (productId : ℕ) (stock : StockWrite) (movement : StockMovement) (db : Db) : Db :=
  { db with
    products := db.products.modify productId stock.apply
    movements := db.movements.insert movement }

/-- Write what is owed to the shop whose profile has key `i`. -/
def writePayable (i : ℕ) (balance : ℚ) (db : Db) : Db :=
  { db with profiles := db.profiles.modify i (setPayable balance) }

/-- What a receipt writes beside the purchase order: the goods, and unless it is paid at
once, what is owed for them. -/
def receiveGoods (purchase : SupplierPurchase) (product : Product) (i : ℕ)
    (profile : RetailerProfile) (createdBy : Option ℕ) (markPaid : Bool) (db : Db) : Db :=
  let db := writeStock purchase.productId
    (stockAfterReceipt product purchase.qty purchase.unitCost)
    (receiptMovement purchase profile.shopName createdBy) db
  if markPaid then db
  else writePayable i (round2 (profile.payableBalance + purchase.total)) db

/-- What `_apply_receive` writes: to the purchase order, and beside it. -/
structure Receipt where
  row : SupplierPurchase → SupplierPurchase
  goods : Db → Db

/-- `_apply_receive`: bump warehouse stock and payable when leaving pending. -/
def applyReceive (db : Db) (purchase : SupplierPurchase) (i : ℕ) (profile : RetailerProfile)
    (createdBy : Option ℕ) (markPaid : Bool) (payMethod : Option String) :
    Except AppError Receipt := do
  raiseIf (purchase.status ≠ .pending)
    (.badRequest ("Cannot receive purchase in status " ++ purchase.status.value))
  let product ← orRaise (db.products.get? purchase.productId) (.notFound "Product not found")
  return {
    row := receivedRow markPaid purchase.total payMethod
    goods := receiveGoods purchase product i profile createdBy markPaid }

/-! ## The requests -/

/-- The purchase order that `create_purchase` starts from. -/
def newPurchase (supplierUserId productId : ℕ) (product : Product) (qty : ℤ) (unitCost : ℚ)
    (note : Option String) (createdBy : Option ℕ) : SupplierPurchase where
  supplierUserId := supplierUserId
  productId := productId
  productName := product.name
  qty := qty
  unitCost := unitCost
  total := round2 (unitCost * qty)
  status := .pending
  paidAmount := 0
  payMethod := none
  note := note
  createdBy := createdBy

/-- `create_purchase`. -/
def createPurchase (supplierUserId productId : ℕ) (qty : ℤ) (unitCost : ℚ)
    (note : Option String) (createdBy : Option ℕ) (markPaid : Bool) (payMethod : Option String)
    (instantReceive : Bool) (db : Db) : Plan := do
  raiseIf (qty ≤ 0) (.badRequest "qty must be > 0")
  raiseIf (unitCost < 0) (.badRequest "unit_cost must be >= 0")
  let (_, i, profile) ← shop db supplierUserId
  raiseIf (profile.isWholesaler = false)
    (.badRequest "This shop is not marked as wholesaler/supplier")
  let product ← orRaise (db.products.get? productId) (.notFound "Product not found")
  let purchase := newPurchase supplierUserId productId product qty unitCost note createdBy
  if instantReceive || markPaid then
    let receipt ← applyReceive db purchase i profile createdBy markPaid
      (if markPaid then payMethod else none)
    return fun t =>
      receipt.goods { t with purchases := t.purchases.insert (receipt.row purchase) }
  else
    return fun t => { t with purchases := t.purchases.insert purchase }

/-- `accept_purchase`. -/
def acceptPurchase (purchaseId supplierUserId : ℕ) (db : Db) : Plan := do
  let purchase ← orRaise (db.purchases.get? purchaseId) (.notFound "Purchase not found")
  raiseIf (purchase.supplierUserId ≠ supplierUserId) (.forbidden "Not your purchase order")
  raiseIf (purchase.status ≠ .pending)
    (.badRequest ("Cannot accept purchase in status " ++ purchase.status.value))
  let (_, i, profile) ← shop db supplierUserId
  let receipt ← applyReceive db purchase i profile (some supplierUserId) false none
  return fun t => receipt.goods { t with purchases := t.purchases.modify purchaseId receipt.row }

/-- The row of a rejected purchase order. -/
def rejectedRow (p : SupplierPurchase) : SupplierPurchase := { p with status := .rejected }

/-- `reject_purchase`. -/
def rejectPurchase (purchaseId supplierUserId : ℕ) (db : Db) : Plan := do
  let purchase ← orRaise (db.purchases.get? purchaseId) (.notFound "Purchase not found")
  raiseIf (purchase.supplierUserId ≠ supplierUserId) (.forbidden "Not your purchase order")
  raiseIf (purchase.status ≠ .pending)
    (.badRequest ("Cannot reject purchase in status " ++ purchase.status.value))
  return fun t => { t with purchases := t.purchases.modify purchaseId rejectedRow }

/-- The note of a purchase order as text: `purchase.note or ""`. -/
def noteText (p : SupplierPurchase) : List Char := (p.note.getD "").toList

/-- The mark that a gateway payment leaves in the note. -/
def paymentTag (razorpayPaymentId : String) : List Char :=
  "rzp:".toList ++ razorpayPaymentId.toList

/-- The note says that the gateway payment has been applied. -/
def Recorded (p : SupplierPurchase) (razorpayPaymentId : String) : Prop :=
  Contains (paymentTag razorpayPaymentId) (noteText p)

instance (p : SupplierPurchase) (razorpayPaymentId : String) :
    Decidable (Recorded p razorpayPaymentId) :=
  inferInstanceAs (Decidable (Contains _ _))

/-- A request names a gateway payment that the note says has been applied. -/
def AlreadyApplied (p : SupplierPurchase) (razorpayPaymentId : Option String) : Prop :=
  ∃ pid ∈ truthy razorpayPaymentId, Recorded p pid

instance (p : SupplierPurchase) (razorpayPaymentId : Option String) :
    Decidable (AlreadyApplied p razorpayPaymentId) :=
  inferInstanceAs (Decidable (∃ _ ∈ truthy _, _))

/-- What is still to be paid on a purchase order. -/
def due (p : SupplierPurchase) : ℚ := round2 (p.total - p.paidAmount)

/-- `(pay_method or "upi").lower().strip()`. -/
def payMethodOf (payMethod : String) : String :=
  String.ofList (strip isSpace ((truthy (some payMethod)).getD "upi").toLower.toList)

/-- The separators that a note is trimmed of: `strip(" |")`. -/
def isBar (c : Char) : Bool := c = ' ' || c = '|'

/-- What a payment adds to the note: the caller's note and the gateway payment. -/
def noteBits (note razorpayPaymentId : Option String) : List (List Char) :=
  ((truthy note).map String.toList).toList ++ ((truthy razorpayPaymentId).map paymentTag).toList

/-- The note after a payment, when it adds something. -/
def paidNote (old : List Char) (pay : ℚ) (bits : List (List Char)) : Option String :=
  if bits = [] then none
  else some (String.ofList (strip isBar
    (old ++ " | Paid ".toList ++ shortest pay ++ ": ".toList ++ "; ".toList.intercalate bits)))

/-- The status of a received purchase order of which `paid` has been paid. -/
def paidStatus (total paid : ℚ) : PurchaseStatus :=
  if total ≤ paid + 1 / 1000 then .paid else .partialPaid

/-- The row of a purchase order after a payment; the note is written only when it changes. -/
def settledRow (paid : ℚ) (method : String) (status : PurchaseStatus) (note : Option String)
    (p : SupplierPurchase) : SupplierPurchase :=
  { p with paidAmount := paid, payMethod := some method, status := status, note := note.or p.note }

/-- What a payment of `pay` writes. -/
def settle (purchaseId : ℕ) (purchase : SupplierPurchase) (i : ℕ) (profile : RetailerProfile)
    (pay : ℚ) (method : String) (note razorpayPaymentId : Option String) (db : Db) : Db :=
  let paid := round2 (purchase.paidAmount + pay)
  let row := settledRow paid method (paidStatus purchase.total paid)
    (paidNote (noteText purchase) pay (noteBits note razorpayPaymentId))
  writePayable i (max 0 (round2 (profile.payableBalance - pay)))
    { db with purchases := db.purchases.modify purchaseId row }

/-- `pay_purchase`. -/
def payPurchase (purchaseId : ℕ) (amount : Option ℚ) (payMethod : String) (note : Option String)
    (razorpayPaymentId : Option String) (db : Db) : Plan := do
  let purchase ← orRaise (db.purchases.get? purchaseId) (.notFound "Purchase not found")
  raiseIf (purchase.status ∉ [PurchaseStatus.received, .partialPaid])
    (.badRequest "Can only pay received purchase orders")
  if AlreadyApplied purchase razorpayPaymentId then
    -- the same gateway payment must not be applied twice
    return id
  else
    let due := due purchase
    raiseIf (due ≤ 0) (.badRequest "Already fully paid")
    let method := payMethodOf payMethod
    raiseIf (method ∉ payMethods) (.badRequest "pay_method must be cod, upi, cash, or razorpay")
    raiseIf (method = "razorpay" ∧ truthy razorpayPaymentId = none)
      (.badRequest "Use Razorpay create/verify endpoints for gateway pay")
    let pay := round2 (amount.getD due)
    assertFirstOrPartialPay purchase.total purchase.paidAmount pay
    let (_, i, profile) ← shop db purchase.supplierUserId
    return settle purchaseId purchase i profile pay method note razorpayPaymentId

/-! ## Settling through Razorpay -/

/-- `f"SP-{purchase.id:05d}"`. -/
def billNo (purchaseId : ℕ) : String :=
  let digits := natText purchaseId
  "SP-" ++ String.ofList (List.replicate (5 - digits.length) '0' ++ digits)

/-- The mark that a started gateway payment leaves in the note, up to the amount. -/
def pendingTag (razorpayOrderId : String) : List Char :=
  "rz_pending:".toList ++ razorpayOrderId.toList ++ [':']

/-- `create_razorpay_pay` before it asks the gateway: what is to be paid of which purchase
order, and to whom. -/
def razorpayQuote (env : Payment.Env) (purchaseId : ℕ) (amount : Option ℚ) (db : Db) :
    Except AppError (SupplierPurchase × ℚ × RetailerProfile) := do
  raiseIf (¬ env.settings.razorpayConfigured) (.unavailable "Razorpay not configured")
  let purchase ← orRaise (db.purchases.get? purchaseId) (.notFound "Purchase not found")
  raiseIf (purchase.status ∉ [PurchaseStatus.received, .partialPaid])
    (.badRequest "Can only pay received purchase orders")
  let due := due purchase
  raiseIf (due ≤ 0) (.badRequest "Already fully paid")
  let pay := round2 (amount.getD due)
  assertFirstOrPartialPay purchase.total purchase.paidAmount pay
  let (_, _, profile) ← shop db purchase.supplierUserId
  return (purchase, pay, profile)

/-- The notes on a gateway order for a purchase order. -/
def settlementNotes (purchaseId : ℕ) (purchase : SupplierPurchase) (pay : ℚ) :
    Integrations.Notes where
  kind := "purchase"
  purchaseId := String.ofList (natText purchaseId)
  amount := String.ofList (fixed2 pay)
  supplierUserId := String.ofList (natText purchase.supplierUserId)

/-- The receipt number of one attempt, at the time `now` in seconds. -/
def receiptNo (purchaseId now : ℕ) : String :=
  Payment.clip 40 (billNo purchaseId ++ "-" ++ String.ofList (natText now))

/-- The note with the mark of a started gateway payment, once. -/
def pendingNote (old : List Char) (razorpayOrderId : String) (pay : ℚ) : String :=
  let tag := pendingTag razorpayOrderId ++ fixed2 pay
  String.ofList (strip isBar (removeAll tag old ++ " | ".toList ++ tag))

/-- The row of a purchase order with another note. -/
def notedRow (note : String) (p : SupplierPurchase) : SupplierPurchase :=
  { p with note := some note }

/-- `create_razorpay_pay`: start a checkout at the gateway for a purchase order. -/
def createRazorpayPay (env : Payment.Env) (gateway : Integrations.Gateway) (purchaseId : ℕ)
    (amount : Option ℚ) (now : ℕ) (db : Db) : Plan := do
  let (purchase, pay, profile) ← razorpayQuote env purchaseId amount db
  let notes := settlementNotes purchaseId purchase pay
  let receipt := receiptNo purchaseId now
  let rz ← Integrations.createRazorpayOrder env gateway pay receipt notes
  let _ ← Integrations.createPaymentLink env gateway pay
    ("Pay supplier " ++ profile.shopName ++ " · " ++ billNo purchaseId) receipt none notes
  let note := pendingNote (noteText purchase) rz.razorpayOrderId pay
  return fun t => { t with purchases := t.purchases.modify purchaseId (notedRow note) }

/-- The amount that a started gateway payment left in the note, if it can be read. -/
def pendingAmount (p : SupplierPurchase) (razorpayOrderId : String) : Option ℚ := do
  let frag ← afterFirst (pendingTag razorpayOrderId) (noteText p)
  let word ← firstWord isSpace frag
  parseFloat (word.takeWhile fun c => c ≠ '|')

/-- `verify_razorpay_pay`. -/
def verifyRazorpayPay (env : Payment.Env) (purchaseId : ℕ)
    (razorpayOrderId razorpayPaymentId razorpaySignature : String) (amount : Option ℚ)
    (db : Db) : Plan := do
  let purchase ← orRaise (db.purchases.get? purchaseId) (.notFound "Purchase not found")
  if AlreadyApplied purchase (some razorpayPaymentId) then
    return id
  else
    raiseIf (Integrations.verifyPaymentSignature env razorpayOrderId razorpayPaymentId
      razorpaySignature = false) (.badRequest "Invalid Razorpay signature")
    payPurchase purchaseId (amount.or (pendingAmount purchase razorpayOrderId)) "razorpay"
      (some ("order " ++ razorpayOrderId)) (some razorpayPaymentId) db

/-! ## What the requests commit -/

/-- A supplier: a retailer, and the profile with its key. -/
structure Supplies (db : Db) (userId i : ℕ) (profile : RetailerProfile) : Prop where
  retailer : ∃ user, db.users.get? userId = some user ∧ user.role = .retailer
  profile : profileOf db userId = some (i, profile)

/-- The goods have been received, and something may still be due. -/
def IsOpen (p : SupplierPurchase) : Prop := p.status = .received ∨ p.status = .partialPaid

instance (p : SupplierPurchase) : Decidable (IsOpen p) := inferInstanceAs (Decidable (_ ∨ _))

/-- The guards of `pay_purchase` on a received purchase order. -/
structure PayGuards (p : SupplierPurchase) (amount : Option ℚ) (payMethod : String)
    (razorpayPaymentId : Option String) : Prop where
  due : 0 < due p
  method : payMethodOf payMethod ∈ payMethods
  gateway : payMethodOf payMethod = "razorpay" → truthy razorpayPaymentId ≠ none
  rules : assertFirstOrPartialPay p.total p.paidAmount (round2 (amount.getD (Purchase.due p))) =
    .ok ()

section Specs

variable {db : Db} {write : Db → Db} {supplierUserId productId purchaseId : ℕ}
  {createdBy : Option ℕ} {note payMethod razorpayPaymentId : Option String}

theorem shop_eq_ok {r : User × ℕ × RetailerProfile} :
    shop db supplierUserId = .ok r ↔
      db.users.get? supplierUserId = some r.1 ∧ r.1.role = .retailer ∧
        profileOf db supplierUserId = some r.2 := by
  unfold shop
  rw [orRaise_bind_eq_ok]
  simp only [orRaise_bind_eq_ok, pure_eq_ok, Option.filter_eq_some_iff, decide_eq_true_eq]
  constructor
  · rintro ⟨user, ⟨huser, hrole⟩, q, hq, rfl⟩
    exact ⟨huser, hrole, hq⟩
  · rintro ⟨huser, hrole, hq⟩
    exact ⟨r.1, ⟨huser, hrole⟩, r.2, hq, rfl⟩

/-- A look-up of the shop in front of a computation adds that it is a supplier. -/
theorem shop_bind_eq_ok {f : User × ℕ × RetailerProfile → Plan}
    (hf : ∀ user user' r, f (user, r) = f (user', r)) :
    (shop db supplierUserId >>= f) = .ok write ↔
      ∃ i profile, Supplies db supplierUserId i profile ∧
        f (default, i, profile) = .ok write := by
  rw [bind_eq_ok]
  simp only [shop_eq_ok]
  constructor
  · rintro ⟨⟨user, i, profile⟩, ⟨huser, hrole, hprofile⟩, hok⟩
    exact ⟨i, profile, ⟨⟨user, huser, hrole⟩, hprofile⟩, by rw [hf default user]; exact hok⟩
  · rintro ⟨i, profile, ⟨⟨user, huser, hrole⟩, hprofile⟩, hok⟩
    exact ⟨(user, i, profile), ⟨huser, hrole, hprofile⟩, by rw [hf user default]; exact hok⟩

theorem applyReceive_eq_ok {purchase : SupplierPurchase} {i : ℕ} {profile : RetailerProfile}
    {markPaid : Bool} {receipt : Receipt} :
    applyReceive db purchase i profile createdBy markPaid payMethod = .ok receipt ↔
      purchase.status = .pending ∧ ∃ product, db.products.get? purchase.productId = some product ∧
        Receipt.mk (receivedRow markPaid purchase.total payMethod)
          (receiveGoods purchase product i profile createdBy markPaid) = receipt := by
  unfold applyReceive
  simp only [raiseIf_bind_eq_ok, orRaise_bind_eq_ok, pure_eq_ok, not_not]

/-- A pending purchase order is opened by a known wholesaler, for a known product, with a
positive quantity and no negative cost; received at once if asked. -/
theorem createPurchase_eq_ok {qty : ℤ} {unitCost : ℚ} {markPaid instantReceive : Bool} :
    createPurchase supplierUserId productId qty unitCost note createdBy markPaid payMethod
        instantReceive db = .ok write ↔
      0 < qty ∧ 0 ≤ unitCost ∧ ∃ i profile product, Supplies db supplierUserId i profile ∧
        profile.isWholesaler = true ∧ db.products.get? productId = some product ∧
        (let purchase :=
          newPurchase supplierUserId productId product qty unitCost note createdBy
        (if instantReceive || markPaid then fun t =>
          receiveGoods purchase product i profile createdBy markPaid
            { t with purchases := t.purchases.insert (receivedRow markPaid purchase.total
              (if markPaid then payMethod else none) purchase) }
        else fun t => { t with purchases := t.purchases.insert purchase }) = write) := by
  unfold createPurchase
  rw [raiseIf_bind_eq_ok, raiseIf_bind_eq_ok, shop_bind_eq_ok (fun _ _ _ => rfl)]
  simp only [raiseIf_bind_eq_ok, orRaise_bind_eq_ok, not_le, not_lt]
  refine and_congr Iff.rfl (and_congr Iff.rfl (exists_congr fun i => exists_congr fun profile => ?_))
  constructor
  · rintro ⟨hs, hw, product, hproduct, hok⟩
    refine ⟨product, hs, by simpa using hw, hproduct, ?_⟩
    cases h : instantReceive || markPaid with
    | false =>
      simp only [h, Bool.false_eq_true, if_false, pure_eq_ok] at hok ⊢
      exact hok
    | true =>
      simp only [h, if_true, bind_eq_ok, applyReceive_eq_ok, pure_eq_ok] at hok ⊢
      obtain ⟨receipt, ⟨_, product', hproduct', rfl⟩, rfl⟩ := hok
      have heq : product' = product := Option.some.inj (hproduct'.symm.trans hproduct)
      rw [heq]
  · rintro ⟨product, hs, hw, hproduct, rfl⟩
    refine ⟨hs, by simp [hw], product, hproduct, ?_⟩
    cases h : instantReceive || markPaid with
    | false => simp only [Bool.false_eq_true, if_false, pure_eq_ok]
    | true =>
      simp only [if_true, bind_eq_ok, applyReceive_eq_ok, pure_eq_ok]
      exact ⟨_, ⟨rfl, product, hproduct, rfl⟩, rfl⟩

/-- Only its own supplier accepts a purchase order, and only a pending one. -/
theorem acceptPurchase_eq_ok :
    acceptPurchase purchaseId supplierUserId db = .ok write ↔
      ∃ p, db.purchases.get? purchaseId = some p ∧ p.supplierUserId = supplierUserId ∧
        p.status = .pending ∧ ∃ i profile product, Supplies db supplierUserId i profile ∧
        db.products.get? p.productId = some product ∧
        (fun t => receiveGoods p product i profile (some supplierUserId) false
          { t with purchases :=
              t.purchases.modify purchaseId (receivedRow false p.total none) }) = write := by
  unfold acceptPurchase
  rw [orRaise_bind_eq_ok]
  refine exists_congr fun p => and_congr Iff.rfl ?_
  simp only [raiseIf_bind_eq_ok, not_not]
  refine and_congr Iff.rfl (and_congr_right fun hpending => ?_)
  rw [shop_bind_eq_ok (fun _ _ _ => rfl)]
  refine exists_congr fun i => exists_congr fun profile => ?_
  simp only [bind_eq_ok, applyReceive_eq_ok, pure_eq_ok]
  constructor
  · rintro ⟨hs, receipt, ⟨_, product, hproduct, rfl⟩, rfl⟩
    exact ⟨product, hs, hproduct, rfl⟩
  · rintro ⟨product, hs, hproduct, rfl⟩
    exact ⟨hs, _, ⟨hpending, product, hproduct, rfl⟩, rfl⟩

/-- Only its own supplier rejects a purchase order, and only a pending one. -/
theorem rejectPurchase_eq_ok :
    rejectPurchase purchaseId supplierUserId db = .ok write ↔
      ∃ p, db.purchases.get? purchaseId = some p ∧ p.supplierUserId = supplierUserId ∧
        p.status = .pending ∧
        (fun t => { t with purchases := t.purchases.modify purchaseId rejectedRow }) = write := by
  unfold rejectPurchase
  simp only [orRaise_bind_eq_ok, raiseIf_bind_eq_ok, pure_eq_ok, not_not]

/-- A payment goes to a received purchase order; it is not applied again when the note
names it, and applied when it passes the guards. -/
theorem payPurchase_eq_ok {amount : Option ℚ} {method : String} :
    payPurchase purchaseId amount method note razorpayPaymentId db = .ok write ↔
      ∃ p, db.purchases.get? purchaseId = some p ∧ IsOpen p ∧
        (AlreadyApplied p razorpayPaymentId ∧ id = write ∨
          ¬ AlreadyApplied p razorpayPaymentId ∧ PayGuards p amount method razorpayPaymentId ∧
          ∃ i profile, Supplies db p.supplierUserId i profile ∧
            settle purchaseId p i profile (round2 (amount.getD (due p))) (payMethodOf method) note
              razorpayPaymentId = write) := by
  unfold payPurchase
  rw [orRaise_bind_eq_ok]
  refine exists_congr fun p => and_congr Iff.rfl ?_
  rw [raiseIf_bind_eq_ok]
  have hopen : ¬ p.status ∉ [PurchaseStatus.received, .partialPaid] ↔ IsOpen p := by
    simp only [IsOpen, List.mem_cons, List.not_mem_nil, or_false, not_not]
  rw [hopen]
  refine and_congr Iff.rfl ?_
  by_cases happlied : AlreadyApplied p razorpayPaymentId
  · simp only [happlied, if_true, pure_eq_ok, true_and, not_true, false_and, or_false]
  · simp only [happlied, if_false, false_and, not_false_eq_true, true_and, false_or,
      raiseIf_bind_eq_ok, not_le, not_not, not_and]
    constructor
    · rintro ⟨hdue, hmethod, hgateway, hok⟩
      obtain ⟨u, hrules, hok⟩ := bind_eq_ok.1 hok
      obtain ⟨i, profile, hs, hok⟩ := (shop_bind_eq_ok (fun _ _ _ => rfl)).1 hok
      exact ⟨⟨hdue, hmethod, hgateway, hrules⟩, i, profile, hs, pure_eq_ok.1 hok⟩
    · rintro ⟨⟨hdue, hmethod, hgateway, hrules⟩, i, profile, hs, rfl⟩
      refine ⟨hdue, hmethod, hgateway, bind_eq_ok.2 ⟨(), hrules, ?_⟩⟩
      exact (shop_bind_eq_ok (fun _ _ _ => rfl)).2 ⟨i, profile, hs, pure_eq_ok.2 rfl⟩

/-- A verification commits what the payment it stands for commits, or nothing when the note
already names the gateway payment. -/
theorem verifyRazorpayPay_eq_ok {env : Payment.Env} {roid pid signature : String}
    {amount : Option ℚ} :
    verifyRazorpayPay env purchaseId roid pid signature amount db = .ok write ↔
      ∃ p, db.purchases.get? purchaseId = some p ∧
        (AlreadyApplied p (some pid) ∧ id = write ∨
          ¬ AlreadyApplied p (some pid) ∧
          Integrations.verifyPaymentSignature env roid pid signature = true ∧
          payPurchase purchaseId (amount.or (pendingAmount p roid)) "razorpay"
            (some ("order " ++ roid)) (some pid) db = .ok write) := by
  unfold verifyRazorpayPay
  rw [orRaise_bind_eq_ok]
  refine exists_congr fun p => and_congr Iff.rfl ?_
  by_cases happlied : AlreadyApplied p (some pid)
  · simp only [happlied, if_true, pure_eq_ok, true_and, not_true, false_and, or_false]
  · simp only [happlied, if_false, false_and, not_false_eq_true, true_and, false_or,
      raiseIf_bind_eq_ok, Bool.not_eq_false]

/-- A checkout at the gateway is started for a received purchase order, and marks its note. -/
theorem createRazorpayPay_eq_ok {env : Payment.Env} {gateway : Integrations.Gateway}
    {amount : Option ℚ} {now : ℕ}
    (h : createRazorpayPay env gateway purchaseId amount now db = .ok write) :
    ∃ p pay profile rz, razorpayQuote env purchaseId amount db = .ok (p, pay, profile) ∧
      Integrations.createRazorpayOrder env gateway pay (receiptNo purchaseId now)
        (settlementNotes purchaseId p pay) = .ok rz ∧
      write = fun t =>
        { t with
          purchases := t.purchases.modify purchaseId
            (notedRow (pendingNote (noteText p) rz.razorpayOrderId pay)) } := by
  unfold createRazorpayPay at h
  obtain ⟨⟨p, pay, profile⟩, hquote, h⟩ := bind_eq_ok.1 h
  obtain ⟨rz, hrz, h⟩ := bind_eq_ok.1 h
  obtain ⟨link, _, h⟩ := bind_eq_ok.1 h
  exact ⟨p, pay, profile, rz, hquote, hrz, (pure_eq_ok.1 h).symm⟩

/-- What a checkout at the gateway is quoted for. -/
theorem razorpayQuote_eq_ok {env : Payment.Env} {amount : Option ℚ} {p : SupplierPurchase}
    {pay : ℚ} {profile : RetailerProfile}
    (h : razorpayQuote env purchaseId amount db = .ok (p, pay, profile)) :
    db.purchases.get? purchaseId = some p ∧ IsOpen p ∧ 0 < due p ∧
      pay = round2 (amount.getD (due p)) ∧
      assertFirstOrPartialPay p.total p.paidAmount pay = .ok () := by
  unfold razorpayQuote at h
  simp only [raiseIf_bind_eq_ok, orRaise_bind_eq_ok, not_le, not_not] at h
  obtain ⟨_, q, hq, hopen, hdue, h⟩ := h
  obtain ⟨u, hrules, h⟩ := bind_eq_ok.1 h
  obtain ⟨s, _, h⟩ := bind_eq_ok.1 h
  cases pure_eq_ok.1 h
  exact ⟨hq, by simpa [IsOpen] using hopen, hdue, rfl, hrules⟩

end Specs

end Purchase

end SweetCrust
