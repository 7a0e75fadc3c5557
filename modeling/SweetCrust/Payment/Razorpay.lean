import SweetCrust.Data.Rows
import SweetCrust.Lib.Decimal
import SweetCrust.Lib.Text

/-!
# The Razorpay client of the payment service

What the service sends to Razorpay, what it makes of the answer, and the two
signature checks.  Razorpay itself is a `Gateway`: a function from requests to
answers.  `hmac key message` stands for the hex digest of HMAC-SHA256.
-/

namespace SweetCrust

open Rounding Text

namespace Payment

/-- The settings the Razorpay client reads. -/
structure Settings where
  razorpayKeyId : Option String
  razorpayKeySecret : Option String
  razorpayWebhookSecret : Option String

/-- Both API keys are set. -/
def Settings.razorpayConfigured (s : Settings) : Prop :=
  (truthy s.razorpayKeyId).isSome ∧ (truthy s.razorpayKeySecret).isSome

instance (s : Settings) : Decidable s.razorpayConfigured :=
  inferInstanceAs (Decidable (_ ∧ _))

/-- The notes the service attaches to a gateway order and to a payment link. -/
structure Notes where
  orderId : String
  orderNumber : String
  userId : String

structure OrderRequest where
  /-- In paise. -/
  amount : ℤ
  currency : String
  receipt : String
  notes : Notes

structure LinkRequest where
  /-- In paise. -/
  amount : ℤ
  currency : String
  acceptPartial : Bool
  description : String
  referenceId : String
  reminderEnable : Bool
  notes : Notes
  customerName : Option String
  customerContact : Option String

/-- Razorpay: the answer to each request, or the text of a refusal. -/
structure Gateway where
  /-- `POST /orders`; the answer carries no `key_id`. -/
  orders : OrderRequest → Except String RazorpayOrder
  /-- `POST /payment_links`. -/
  paymentLinks : LinkRequest → Except String PaymentLink

/-- The service's deployment: its settings and the keyed hash it checks signatures with. -/
structure Env where
  settings : Settings
  hmac : String → String → String

/-- The first `n` characters: `s[:n]`. -/
def clip (n : ℕ) (s : String) : String := String.ofList (s.toList.take n)

/-- An amount of rupees in paise, as it is charged: at least one rupee. -/
def paise (amountInr : ℚ) : ℤ := max 100 (roundHalfEven (amountInr * 100))

/-- A client call: refused without keys, and with the gateway's refusal. -/
def callGateway {ρ α : Type} (env : Env) (post : ρ → Except String α) (request : ρ)
    (failure : String) : Except AppError α :=
  if env.settings.razorpayConfigured then
    match post request with
    | .ok data => .ok data
    | .error text => .error (.badGateway (failure ++ clip 200 text))
  else
    .error (.unavailable "Razorpay not configured (set RAZORPAY_KEY_ID + RAZORPAY_KEY_SECRET)")

/-- `create_order`. -/
def createOrder (env : Env) (gateway : Gateway) (amountInr : ℚ) (receipt : String)
    (notes : Notes) : Except AppError RazorpayOrder := do
  let data ← callGateway env gateway.orders
    { amount := paise amountInr, currency := "INR", receipt := clip 40 receipt, notes }
    "Razorpay order failed: "
  return { data with keyId := env.settings.razorpayKeyId }

/-- Razorpay contact must be digits only, length 8 to 14. -/
def razorpayContact (phone : Option String) : Option String :=
  match truthy phone with
  | none => none
  | some p =>
    let digits := p.toList.filter Decimal.isdigit
    -- the last ten for padded numbers
    let digits := if digits.length > 14 then digits.drop (digits.length - 10) else digits
    if 8 ≤ digits.length ∧ digits.length ≤ 14 then some (String.ofList digits) else none

/-- `create_payment_link`. -/
def createPaymentLink (env : Env) (gateway : Gateway) (amountInr : ℚ)
    (description referenceId : String) (customerName customerPhone : Option String)
    (notes : Notes) : Except AppError PaymentLink :=
  callGateway env gateway.paymentLinks
    { amount := paise amountInr
      currency := "INR"
      acceptPartial := false
      description := clip 2048 description
      referenceId := clip 40 referenceId
      reminderEnable := false
      notes
      customerName := (truthy customerName).map (clip 50)
      customerContact := razorpayContact customerPhone }
    "Razorpay payment link failed: "

/-- `verify_payment_signature`: the digest of the two gateway ids under the key secret. -/
def verifyPaymentSignature (env : Env) (razorpayOrderId razorpayPaymentId
    razorpaySignature : String) : Bool :=
  match truthy env.settings.razorpayKeySecret with
  | none => false
  | some key => env.hmac key (razorpayOrderId ++ "|" ++ razorpayPaymentId) == razorpaySignature

/-- `verify_webhook_signature`: the digest of the body under the webhook secret. -/
def verifyWebhookSignature (env : Env) (body signature : String) : Bool :=
  match truthy env.settings.razorpayWebhookSecret with
  | none => false
  | some key => env.hmac key body == signature

/-- A deployment whose keyed hash writes key and message one after the other. -/
def plainEnv : Env where
  settings := ⟨some "rzp_test_key", some "secret", some "hook"⟩
  hmac := fun key message => key ++ "#" ++ message

example : verifyPaymentSignature plainEnv "order_A" "pay_A" "secret#order_A|pay_A" = true := by
  decide

end Payment

end SweetCrust
