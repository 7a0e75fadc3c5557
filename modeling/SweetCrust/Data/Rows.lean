import SweetCrust.Data.Enums
import SweetCrust.Lib.Table

/-!
# The shared database

One record for each table that the modelled services read or write, and `Db`, the
database they share.  A row's key is not a field of the row: it is the key of the
table entry.  Money is exact, in rupees.

Left out are the columns no modelled function reads: timestamps that no rule compares,
delivery preferences, places on the map, and the random labels `generate_invoice_number`
draws.  Times are whole seconds.
-/

namespace SweetCrust

open Tabular

/-- What a service raises: the class of the error and its `detail`. -/
inductive AppError
  | badRequest (detail : String)
  | forbidden (detail : String)
  | notFound (detail : String)
  | conflict (detail : String)
  | badGateway (detail : String)
  | unavailable (detail : String)
  | unauthorized (detail : String)
  | rateLimited (detail : String)
  /-- An exception that no handler maps to an answer. -/
  | uncaught (detail : String)
  deriving DecidableEq, Inhabited

structure User where
  phone : String
  name : Option String
  role : UserRole
  totalOrders : ℤ
  totalSpent : ℚ := 0
  email : Option String := none
  emailVerified : Bool := false
  passwordHash : Option String := none
  avatarUrl : Option String := none
  isActive : Bool := true
  termsAccepted : Bool := false
  isOnline : Bool := false
  deriving DecidableEq, Inhabited

/-- A one-time password that was sent to a phone. -/
structure OTPCode where
  phone : String
  code : String
  purpose : String
  expiresAt : ℕ
  isUsed : Bool := false
  deriving DecidableEq, Inhabited

structure RetailerProfile where
  userId : ℕ
  shopName : String
  creditAllowed : Bool
  creditLimit : ℚ
  /-- What the shop owes: its udhaar. -/
  outstandingBalance : ℚ
  /-- What is owed to the shop as a supplier. -/
  payableBalance : ℚ
  isWholesaler : Bool
  isBlocked : Bool
  approvalStatus : String := "approved"
  sellSubscriptionStatus : String := "none"
  sellPlan : Option String := none
  sellSubscriptionExpiresAt : Option ℕ := none
  /-- The payment link that is to be confirmed, with its cadence and amount. -/
  sellRzPending : Option String := none
  contactPhone : Option String := none
  ownerName : Option String := none
  shopLogoUrl : Option String := none
  city : String := "Bhubaneswar"
  addressLine : Option String := none
  deriving DecidableEq, Inhabited

structure Product where
  name : String
  coverImageUrl : Option String
  supplierUserId : Option ℕ
  sellingPrice : ℚ
  customerPrice : Option ℚ
  purchaseCost : Option ℚ
  stockQty : ℤ
  supplierAvailableQty : ℤ
  stockStatus : StockStatus
  lowStockThreshold : ℤ
  salesCount : ℤ
  isActive : Bool
  isDraft : Bool := false
  categoryId : ℕ := 0
  shopPrice : Option ℚ := none
  originalPrice : Option ℚ := none
  brandName : Option String := none
  minOrderQty : ℤ := 1
  isEggless : Bool := false
  rating : ℚ := 0
  reviewCount : ℤ := 0
  deriving DecidableEq, Inhabited

structure ProductReview where
  productId : ℕ
  userId : ℕ
  orderId : Option ℕ
  rating : ℤ
  comment : Option String
  deriving DecidableEq, Inhabited

structure Category where
  name : String
  parentId : Option ℕ
  ownerUserId : Option ℕ
  isActive : Bool
  deriving DecidableEq, Inhabited

structure StockMovement where
  productId : ℕ
  changeQty : ℤ
  reason : String
  note : Option String
  createdBy : Option ℕ
  deriving DecidableEq, Inhabited

structure Cart where
  userId : ℕ
  couponCode : Option String
  deriving DecidableEq, Inhabited

structure CartItem where
  cartId : ℕ
  productId : ℕ
  quantity : ℤ
  variant : Option String
  flavor : Option String
  isEggless : Bool
  unitPrice : ℚ
  savedForLater : Bool
  deriving DecidableEq, Inhabited

structure Coupon where
  code : String
  couponType : String
  value : ℚ
  minOrderAmount : ℚ
  maxDiscount : Option ℚ
  isActive : Bool
  startsAt : Option ℕ := none
  endsAt : Option ℕ := none
  usageLimit : Option ℤ := none
  usedCount : ℤ := 0
  shopUserId : Option ℕ := none
  deriving DecidableEq, Inhabited

structure Address where
  userId : ℕ
  fullName : String
  phone : String
  line1 : String
  city : String
  pincode : String
  latitude : Option ℚ
  longitude : Option ℚ
  deriving DecidableEq, Inhabited

/-- The address as an order keeps it. -/
structure AddressSnapshot where
  fullName : Option String
  shopName : Option String
  phone : Option String
  line1 : Option String
  city : Option String
  pincode : Option String
  addressLine : Option String := none
  deriving DecidableEq, Inhabited

structure Order where
  orderNumber : String
  userId : ℕ
  shopUserId : Option ℕ
  orderType : String
  addressId : Option ℕ
  status : OrderStatus
  paymentStatus : PaymentStatus
  paymentMethod : Option PaymentMethod
  subtotal : ℚ
  discount : ℚ
  couponCode : Option String
  gstAmount : ℚ
  deliveryFee : ℚ
  finalAmount : ℚ
  paidAmount : ℚ
  customerPhone : Option String
  addressSnapshot : Option AddressSnapshot
  createdAt : ℕ
  deliveryPersonId : Option ℕ := none
  offerExpiresAt : Option ℕ := none
  internalNotes : Option String := none
  deliveredAt : Option ℕ := none
  cancelledAt : Option ℕ := none
  cancelReason : Option String := none
  deriving DecidableEq, Inhabited

structure OrderItem where
  orderId : ℕ
  productId : ℕ
  productName : String
  productImage : Option String
  variant : Option String
  flavor : Option String
  isEggless : Bool
  quantity : ℤ
  unitPrice : ℚ
  totalPrice : ℚ
  unitCost : ℚ
  deriving DecidableEq, Inhabited

/-- A rider. -/
structure DeliveryPerson where
  userId : Option ℕ
  name : String
  phone : String
  vehicleNumber : String
  isAvailable : Bool
  deriving DecidableEq, Inhabited

/-- Who is on the way with an order. -/
structure DeliveryTracking where
  orderId : ℕ
  deliveryPersonId : Option ℕ
  deriving DecidableEq, Inhabited

structure ReturnRequest where
  orderId : ℕ
  userId : ℕ
  issueType : String
  solution : String
  description : Option String
  affectedItemIds : Option (List ℕ)
  refundAmount : ℚ
  status : String
  deadlineAt : ℕ
  deriving DecidableEq, Inhabited

structure OrderStatusHistory where
  orderId : ℕ
  status : OrderStatus
  note : Option String
  createdBy : Option ℕ
  deriving DecidableEq, Inhabited

/-- What Razorpay answers to a created order, as the service stores it. -/
structure RazorpayOrder where
  razorpayOrderId : String
  /-- In paise. -/
  amount : ℤ
  currency : String
  keyId : Option String
  receipt : Option String
  status : Option String
  deriving DecidableEq, Inhabited

/-- What Razorpay answers to a created payment link. -/
structure PaymentLink where
  paymentLinkId : Option String
  shortUrl : Option String
  /-- In paise. -/
  amount : Option ℤ
  status : Option String
  referenceId : Option String
  deriving DecidableEq, Inhabited

/-- The arguments of a successful verification, as stored. -/
structure VerifyRecord where
  orderId : ℕ
  razorpayOrderId : String
  razorpayPaymentId : String
  razorpaySignature : String
  deriving DecidableEq, Inhabited

/-- The event of a successful webhook delivery, as stored. -/
structure WebhookRecord where
  event : String
  paymentId : Option String
  deriving DecidableEq, Inhabited

/-- What Razorpay answers to a refund: its keys, with their values as text. -/
abbrev RefundDocument : Type := List (String × String)

/-- The keys that the services write into `gateway_response`. -/
structure GatewayResponse where
  razorpayOrder : Option RazorpayOrder
  paymentLink : Option PaymentLink
  verify : Option VerifyRecord
  webhook : Option WebhookRecord
  refund : Option RefundDocument := none
  deriving DecidableEq, Inhabited

/-- A `gateway_response` that holds nothing. -/
def GatewayResponse.empty : GatewayResponse := ⟨none, none, none, none, none⟩

structure Payment where
  orderId : ℕ
  userId : ℕ
  amount : ℚ
  method : Option PaymentMethod
  status : PaymentStatus
  transactionId : Option String
  upiId : Option String
  gatewayResponse : GatewayResponse
  failureReason : Option String
  refundAmount : ℚ := 0
  deriving DecidableEq, Inhabited

structure InvoiceLine where
  name : String
  qty : ℤ
  unitPrice : ℚ
  total : ℚ
  deriving DecidableEq, Inhabited

/-- The `line_items` document of an invoice. -/
structure InvoiceDocument where
  template : Option String := none
  kind : Option String := none
  title : Option String := none
  items : List InvoiceLine
  orderNumber : Option String := none
  orderType : Option String := none
  purchaseId : Option ℕ := none
  billNo : Option String := none
  deriving DecidableEq, Inhabited

structure Invoice where
  orderId : Option ℕ
  kind : String
  refType : Option String
  refId : Option String
  buyerUserId : Option ℕ
  sellerUserId : Option ℕ
  bakeryName : String
  gstin : String
  customerName : String
  customerPhone : String
  customerAddress : Option String
  lineItems : InvoiceDocument
  subtotal : ℚ
  discount : ℚ
  gstAmount : ℚ
  deliveryFee : ℚ
  grandTotal : ℚ
  paymentMethod : Option String
  transactionId : Option String
  notes : Option String := none
  deriving DecidableEq, Inhabited

structure CreditLedgerEntry where
  retailerUserId : ℕ
  entryType : CreditEntryType
  amount : ℚ
  balanceAfter : ℚ
  orderId : Option ℕ
  paymentId : Option ℕ
  note : Option String
  createdBy : Option ℕ
  deriving DecidableEq, Inhabited

structure SupplierPurchase where
  supplierUserId : ℕ
  productId : ℕ
  productName : String
  qty : ℤ
  unitCost : ℚ
  total : ℚ
  status : PurchaseStatus
  paidAmount : ℚ
  payMethod : Option String
  note : Option String
  createdBy : Option ℕ
  deriving DecidableEq, Inhabited

/-- The billing record of a paid sell plan. -/
structure SubscriptionBill where
  cadence : String
  amount : ℚ
  paymentRef : String
  expiresAt : ℕ
  paidAt : ℕ
  deriving DecidableEq, Inhabited

/-- Where a notification leads: the `data` of the ones the services send. -/
structure NotificationData where
  orderId : Option ℕ := none
  orderNumber : Option String := none
  amount : Option ℚ := none
  status : Option OrderStatus := none
  returnId : Option ℕ := none
  subscription : Option SubscriptionBill := none
  deriving DecidableEq, Inhabited

structure Notification where
  userId : ℕ
  type : NotificationType
  title : String
  body : String
  data : Option NotificationData
  deriving DecidableEq, Inhabited

structure BakerySettings where
  bakeryName : String
  gstin : String
  deliveryCharge : ℚ
  freeDeliveryMin : ℚ
  minOrderValue : ℚ
  codEnabled : Bool
  /-- The prices of the sell plans: two keys of `tax_settings`. -/
  sellMonthlyPrice : Option ℚ := none
  sellYearlyPrice : Option ℚ := none
  deriving DecidableEq, Inhabited

/-- `BakerySettings()`. -/
def BakerySettings.default : BakerySettings where
  bakeryName := "SweetCrust Bakery"
  gstin := "27AABCS1234A1Z5"
  deliveryCharge := 40
  freeDeliveryMin := 499
  minOrderValue := 149
  codEnabled := true

/-- The database that the services share. -/
structure Db where
  users : Table User
  profiles : Table RetailerProfile
  products : Table Product
  movements : Table StockMovement
  carts : Table Cart
  cartItems : Table CartItem
  coupons : Table Coupon
  addresses : Table Address
  orders : Table Order
  orderItems : Table OrderItem
  history : Table OrderStatusHistory
  payments : Table Payment
  invoices : Table Invoice
  ledger : Table CreditLedgerEntry
  purchases : Table SupplierPurchase
  notifications : Table Notification
  settings : Table BakerySettings
  deliveryPersons : Table DeliveryPerson := .empty
  tracking : Table DeliveryTracking := .empty
  returns : Table ReturnRequest := .empty
  categories : Table Category := .empty
  otpCodes : Table OTPCode := .empty
  reviews : Table ProductReview := .empty

/-- The database without rows. -/
def Db.empty : Db where
  users := .empty
  profiles := .empty
  products := .empty
  movements := .empty
  carts := .empty
  cartItems := .empty
  coupons := .empty
  addresses := .empty
  orders := .empty
  orderItems := .empty
  history := .empty
  payments := .empty
  invoices := .empty
  ledger := .empty
  purchases := .empty
  notifications := .empty
  settings := .empty

/-- A request served in one transaction: what it does to the database it commits to,
or what it raises. -/
abbrev Plan : Type := Except AppError (Db → Db)

/-- The newest payment row of an order, with its key. -/
def latestPayment (db : Db) (orderId : ℕ) : Option (ℕ × Payment) :=
  db.payments.last? fun p => p.orderId = orderId

/-- The profile of a shop, with its key. -/
def profileOf (db : Db) (userId : ℕ) : Option (ℕ × RetailerProfile) :=
  db.profiles.first? fun p => p.userId = userId

/-! ## Looking up after a write -/

section Lookups

variable {db t : Db}

theorem latestPayment_orderId {o i : ℕ} {p : Payment} (h : latestPayment db o = some (i, p)) :
    db.payments.get? i = some p ∧ p.orderId = o := by
  obtain ⟨hget, ho⟩ := Table.get?_of_last? h
  exact ⟨hget, by simpa using ho⟩

/-- Rewriting the newest payment of an order without moving it to another order. -/
theorem latestPayment_modify {o i : ℕ} {p : Payment} {f : Payment → Payment}
    (hp : latestPayment db o = some (i, p)) (ht : t.payments = db.payments.modify i f)
    (hf : ∀ q, (f q).orderId = q.orderId) : latestPayment t o = some (i, f p) := by
  unfold latestPayment
  rw [ht]
  exact Table.last?_modify_self hp fun q => by simp only [hf q]

/-- Rewriting a payment of one order leaves the newest payment of every other order. -/
theorem latestPayment_modify_of_ne {o o' i : ℕ} {p : Payment} {f : Payment → Payment}
    (hp : latestPayment db o = some (i, p)) (ht : t.payments = db.payments.modify i f)
    (hf : ∀ q, (f q).orderId = q.orderId) (hne : o' ≠ o) :
    latestPayment t o' = latestPayment db o' := by
  obtain ⟨hget, ho⟩ := latestPayment_orderId hp
  unfold latestPayment
  rw [ht]
  exact Table.last?_modify_of_not hget (by simp [ho, hne.symm]) fun q => by simp only [hf q]

theorem profileOf_userId {u i : ℕ} {p : RetailerProfile} (h : profileOf db u = some (i, p)) :
    db.profiles.get? i = some p ∧ p.userId = u := by
  obtain ⟨hget, hu⟩ := Table.get?_of_first? h
  exact ⟨hget, by simpa using hu⟩

/-- Rewriting a shop's profile without moving it to another user. -/
theorem profileOf_modify {u i : ℕ} {p : RetailerProfile} {f : RetailerProfile → RetailerProfile}
    (hp : profileOf db u = some (i, p)) (ht : t.profiles = db.profiles.modify i f)
    (hf : ∀ q, (f q).userId = q.userId) : profileOf t u = some (i, f p) := by
  unfold profileOf
  rw [ht]
  exact Table.first?_modify_self hp fun q => by simp only [hf q]

/-- Rewriting one shop's profile leaves the profile of every other shop. -/
theorem profileOf_modify_of_ne {u v i : ℕ} {p : RetailerProfile}
    {f : RetailerProfile → RetailerProfile} (hp : profileOf db v = some (i, p))
    (ht : t.profiles = db.profiles.modify i f) (hf : ∀ q, (f q).userId = q.userId)
    (hne : u ≠ v) : profileOf t u = profileOf db u := by
  obtain ⟨hget, hu⟩ := profileOf_userId hp
  unfold profileOf
  rw [ht]
  exact Table.first?_modify_of_not hget (by simp [hu, hne.symm]) fun q => by simp only [hf q]

end Lookups

end SweetCrust
