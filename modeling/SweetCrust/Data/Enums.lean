import Mathlib

/-!
# Enumerated columns

The enumerations of the shared database, each with the text it is stored under.
Where a request names a member by its text (`PaymentMethod(method)`), `ofValue?`
is the look-up, which fails on every other text.
-/

namespace SweetCrust

inductive UserRole
  | customer | admin | delivery | retailer
  deriving DecidableEq, Inhabited

inductive StockStatus
  | inStock | lowStock | outOfStock
  deriving DecidableEq, Inhabited

inductive OrderStatus
  | placed | paymentReceived | accepted | rejected | preparing | packed
  | deliveryOffered | deliveryAssigned | pickedUp | outForDelivery | nearLocation
  | delivered | cancelled | returnRequested
  deriving DecidableEq, Inhabited

inductive PaymentStatus
  | pending | processing | paid | partiallyPaid | failed | refunded | partiallyRefunded
  deriving DecidableEq, Inhabited

inductive PaymentMethod
  | upi | upiQr | googlePay | phonepe | paytm | creditCard | debitCard | netBanking
  | wallet | cod
  /-- Shop udhaar, booked in the credit ledger. -/
  | credit
  | razorpay
  deriving DecidableEq, Inhabited

inductive OrderType
  | b2bShopOrder | b2cLocalOrder | b2cShippingOrder
  deriving DecidableEq, Inhabited

inductive CreditEntryType
  | debit | credit | adjustment
  deriving DecidableEq, Inhabited

/-- The life of a purchase order: `SupplierPurchase.status`. -/
inductive PurchaseStatus
  | pending | received | partialPaid | paid | rejected
  deriving DecidableEq, Inhabited

inductive NotificationType
  | order | payment | delivery | chat | call | return | offer | product | ai | customCake
  | stock | system
  deriving DecidableEq, Inhabited

/-- The text a payment method is stored and requested under. -/
def PaymentMethod.value : PaymentMethod → String
  | upi => "upi"
  | upiQr => "upi_qr"
  | googlePay => "google_pay"
  | phonepe => "phonepe"
  | paytm => "paytm"
  | creditCard => "credit_card"
  | debitCard => "debit_card"
  | netBanking => "net_banking"
  | wallet => "wallet"
  | cod => "cod"
  | credit => "credit"
  | razorpay => "razorpay"

/-- Every payment method. -/
def PaymentMethod.all : List PaymentMethod :=
  [upi, upiQr, googlePay, phonepe, paytm, creditCard, debitCard, netBanking, wallet, cod,
    credit, razorpay]

/-- `PaymentMethod(text)`: the method stored under a text. -/
def PaymentMethod.ofValue? (text : String) : Option PaymentMethod :=
  all.find? fun m => m.value = text

/-- The look-up inverts the text: no two methods share one. -/
@[simp] theorem PaymentMethod.ofValue?_value (m : PaymentMethod) : ofValue? m.value = some m := by
  cases m <;> decide

/-- The text an order status is stored and requested under. -/
def OrderStatus.value : OrderStatus → String
  | placed => "placed"
  | paymentReceived => "payment_received"
  | accepted => "accepted"
  | rejected => "rejected"
  | preparing => "preparing"
  | packed => "packed"
  | deliveryOffered => "delivery_offered"
  | deliveryAssigned => "delivery_assigned"
  | pickedUp => "picked_up"
  | outForDelivery => "out_for_delivery"
  | nearLocation => "near_location"
  | delivered => "delivered"
  | cancelled => "cancelled"
  | returnRequested => "return_requested"

/-- Every order status. -/
def OrderStatus.all : List OrderStatus :=
  [placed, paymentReceived, accepted, rejected, preparing, packed, deliveryOffered,
    deliveryAssigned, pickedUp, outForDelivery, nearLocation, delivered, cancelled,
    returnRequested]

/-- `OrderStatus(text)`: the status stored under a text. -/
def OrderStatus.ofValue? (text : String) : Option OrderStatus :=
  all.find? fun s => s.value = text

/-- The look-up inverts the text: no two statuses share one. -/
@[simp] theorem OrderStatus.ofValue?_value (s : OrderStatus) : ofValue? s.value = some s := by
  cases s <;> decide

/-- The text an order type is stored under. -/
def OrderType.value : OrderType → String
  | b2bShopOrder => "b2b_shop_order"
  | b2cLocalOrder => "b2c_local_order"
  | b2cShippingOrder => "b2c_shipping_order"

/-- The text a purchase status is stored under. -/
def PurchaseStatus.value : PurchaseStatus → String
  | pending => "pending"
  | received => "received"
  | partialPaid => "partial"
  | paid => "paid"
  | rejected => "rejected"

/-- `stock_status_for`: the status that a quantity and its threshold call for. -/
def stockStatusFor (qty threshold : ℤ) : StockStatus :=
  if qty ≤ 0 then .outOfStock
  else if qty ≤ threshold then .lowStock
  else .inStock

end SweetCrust
