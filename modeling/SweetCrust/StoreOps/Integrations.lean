import SweetCrust.Payment.Razorpay

/-!
# The Razorpay client of the store operations: `integrations.py`

The same gateway as the payment service's, called for settlements with suppliers and for
refunds.  The keyed hash, the settings and the signature check are those of the payment
service.
-/

namespace SweetCrust

open Payment

namespace Integrations

/-- The notes of a settlement with a supplier. -/
structure Notes where
  kind : String
  purchaseId : String
  amount : String
  supplierUserId : String

structure OrderRequest where
  /-- In paise. -/
  amount : ℤ
  currency : String
  receipt : String
  notes : Notes

structure LinkRequest where
  /-- In paise. -/
  amount : ℤ
  currency : String
  acceptPartial : Bool
  description : String
  referenceId : String
  reminderEnable : Bool
  notes : Notes
  customerContact : Option String

/-- Razorpay: the answer to each request, or the text of a refusal. -/
structure Gateway where
  /-- `POST /orders`; the answer carries no `key_id`. -/
  orders : OrderRequest → Except String RazorpayOrder
  /-- `POST /payment_links`. -/
  paymentLinks : LinkRequest → Except String PaymentLink

structure RefundRequest where
  paymentId : String
  /-- In paise; without one, all that is left. -/
  amount : Option ℤ

/-- `POST /payments/{id}/refund`: the answer, or the text of a refusal. -/
abbrev RefundGateway : Type := RefundRequest → Except String RefundDocument

/-- A client call: refused without keys, and with the gateway's refusal. -/
def post {ρ α : Type} (env : Env) (endpoint : ρ → Except String α) (request : ρ)
    (failure : String) : Except AppError α :=
  if env.settings.razorpayConfigured then
    match endpoint request with
    | .ok data => .ok data
    | .error text => .error (.badGateway (failure ++ clip 200 text))
  else
    .error (.unavailable "Razorpay not configured")

/-- `create_razorpay_order`. -/
def createRazorpayOrder (env : Env) (gateway : Gateway) (amountInr : ℚ) (receipt : String)
    (notes : Notes) : Except AppError RazorpayOrder := do
  let data ← post env gateway.orders
    { amount := paise amountInr, currency := "INR", receipt := clip 40 receipt, notes }
    "Razorpay order failed: "
  return { data with keyId := env.settings.razorpayKeyId }

/-- `create_payment_link`. -/
def createPaymentLink (env : Env) (gateway : Gateway) (amountInr : ℚ)
    (description referenceId : String) (customerPhone : Option String) (notes : Notes) :
    Except AppError PaymentLink :=
  post env gateway.paymentLinks
    { amount := paise amountInr
      currency := "INR"
      acceptPartial := false
      description := clip 2048 description
      referenceId := clip 40 referenceId
      reminderEnable := false
      notes
      customerContact := razorpayContact customerPhone }
    "Razorpay payment link failed: "

/-- The refund that `refund_payment` asks for. -/
def refundRequest (paymentId : String) (amountInr : Option ℚ) : RefundRequest :=
  ⟨paymentId, amountInr.map paise⟩

/-- `refund_payment`. -/
def refundPayment (env : Env) (gateway : RefundGateway) (paymentId : String)
    (amountInr : Option ℚ) : Except AppError RefundDocument :=
  post env gateway (refundRequest paymentId amountInr) "Razorpay refund failed: "

/-- `verify_payment_signature`. -/
def verifyPaymentSignature (env : Env) (razorpayOrderId razorpayPaymentId
    razorpaySignature : String) : Bool :=
  Payment.verifyPaymentSignature env razorpayOrderId razorpayPaymentId razorpaySignature

end Integrations

end SweetCrust
