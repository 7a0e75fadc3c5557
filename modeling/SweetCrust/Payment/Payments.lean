import SweetCrust.Payment.Razorpay
import SweetCrust.Lib.Session

/-!
# The customer payment API

The four entry points that move a customer payment — `razorpay_create`,
`razorpay_verify`, `razorpay_webhook` and `process_payment` — as handlers over
the shared database, with the two helpers they share.  A handler yields every
state it commits, so the state between the two commits of `process_payment` is
part of the model.

Events broadcast after a commit and the e-mail with the invoice change no row and
are left out.  A randomly drawn transaction id is an argument.
-/

namespace SweetCrust

open Tabular Session Decimal Text

namespace Payment

/-- A handler of the payment service. -/
abbrev Service (α : Type) : Type := Sess AppError Db α

/-- The order, if it exists and belongs to the user. -/
def ownOrder (db : Db) (userId orderId : ℕ) : Option Order :=
  (db.orders.get? orderId).filter fun o => o.userId = userId

/-- The payment row that `get_order_payment` creates for an order without one. -/
def openedPayment (userId orderId : ℕ) (order : Order) (txn : String) : SweetCrust.Payment where
  orderId := orderId
  userId := userId
  amount := order.finalAmount
  method := some .razorpay
  status := .pending
  transactionId := some txn
  upiId := none
  gatewayResponse := .empty
  failureReason := none

/-- The database with that row. -/
def withPayment (userId orderId : ℕ) (order : Order) (txn : String) (db : Db) : Db :=
  { db with payments := db.payments.insert (openedPayment userId orderId order txn) }

/-- `get_order_payment`: the user's order and its payment, which is created when missing. -/
def getOrderPayment (userId orderId : ℕ) (txn : String) : Service (Order × ℕ × Payment) := do
  let db ← get
  let order ← orRaise (ownOrder db userId orderId) (.notFound "Order not found")
  match latestPayment db orderId with
  | some (i, payment) => return (order, i, payment)
  | none =>
    modify (withPayment userId orderId order txn)
    commit
    return (order, db.payments.next, openedPayment userId orderId order txn)

/-- The parts that are there and not empty, joined: `", ".join(filter(None, parts))`. -/
def joinParts (parts : List (Option String)) : String :=
  ", ".intercalate (parts.filterMap truthy)

/-- The invoice that `generate_invoice` writes for an order. -/
def invoiceOf (db : Db) (orderId : ℕ) (order : Order) : Invoice :=
  let settings := ((db.settings.first? fun _ => true).map Prod.snd).getD .default
  let addr := order.addressSnapshot.getD ⟨none, none, none, none, none, none, none⟩
  let isB2b := order.orderType = "b2b_shop_order" ∨ order.orderType = "B2B_SHOP_ORDER"
  let kind := if isB2b then "b2b_wholesale" else "customer_order"
  { orderId := some orderId
    kind
    refType := some "order"
    refId := some (String.ofList (natText orderId))
    buyerUserId := some order.userId
    sellerUserId := if isB2b then none else order.shopUserId
    bakeryName := settings.bakeryName
    gstin := settings.gstin
    customerName := ((truthy addr.fullName).or (truthy addr.shopName)).getD "Customer"
    customerPhone := (truthy order.customerPhone).getD (addr.phone.getD "")
    customerAddress := some (joinParts [addr.line1, addr.city, addr.pincode])
    lineItems :=
      { template := "product_payment"
        kind
        title := (if isB2b then "Wholesale" else "Sale") ++ " · " ++ order.orderNumber
        items := (db.orderItems.select fun i => i.orderId = orderId).map fun i =>
          ⟨i.2.productName, i.2.quantity, i.2.unitPrice, i.2.totalPrice⟩
        orderNumber := order.orderNumber
        orderType := order.orderType }
    subtotal := order.subtotal
    discount := order.discount
    gstAmount := order.gstAmount
    deliveryFee := order.deliveryFee
    grandTotal := order.finalAmount
    paymentMethod := order.paymentMethod.map PaymentMethod.value
    transactionId := (latestPayment db orderId).bind fun p => p.2.transactionId }

/-- The database with that invoice. -/
def withInvoice (orderId : ℕ) (order : Order) (db : Db) : Db :=
  { db with invoices := db.invoices.insert (invoiceOf db orderId order) }

/-- The invoice of an order. -/
def invoiceFor (db : Db) (orderId : ℕ) : Option (ℕ × Invoice) :=
  db.invoices.first? fun v => v.orderId = some orderId

/-- `generate_invoice`: the invoice of the order, issued and committed when there is none. -/
def generateInvoice (orderId : ℕ) (order : Order) : Service Invoice := do
  let db ← get
  match invoiceFor db orderId with
  | some existing => return existing.2
  | none =>
    modify (withInvoice orderId order)
    commit
    return invoiceOf db orderId order

/-! ## What the handlers write into a row -/

/-- The order once its payment is received. -/
def receivedOrder (method : PaymentMethod) (o : Order) : Order :=
  { o with paymentStatus := .paid, paymentMethod := some method, status := .paymentReceived }

/-- The order once its payment failed. -/
def failedOrder (o : Order) : Order := { o with paymentStatus := .failed }

/-- A payment that failed for a reason. -/
def failedPayment (reason : String) (p : Payment) : SweetCrust.Payment :=
  { p with status := .failed, failureReason := some reason }

/-- A payment that is ordered at Razorpay. -/
def orderedPayment (rzOrder : RazorpayOrder) (link : Option PaymentLink) (p : Payment) :
    SweetCrust.Payment :=
  { p with
    method := some .razorpay
    status := .processing
    gatewayResponse :=
      { p.gatewayResponse with
        razorpayOrder := some rzOrder
        paymentLink := link.or p.gatewayResponse.paymentLink } }

/-- A payment that is settled by a verification. -/
def verifiedPayment (verification : VerifyRecord) (p : Payment) : SweetCrust.Payment :=
  { p with
    method := some .razorpay
    status := .paid
    transactionId := some verification.razorpayPaymentId
    gatewayResponse := { p.gatewayResponse with verify := some verification } }

/-- A payment that is settled by a webhook delivery. -/
def reportedPayment (event : String) (razorpayPaymentId : Option String) (p : Payment) :
    SweetCrust.Payment :=
  { p with
    method := some .razorpay
    status := .paid
    transactionId := (truthy razorpayPaymentId).or p.transactionId
    gatewayResponse := { p.gatewayResponse with webhook := some ⟨event, razorpayPaymentId⟩ } }

/-- The order of a payment that is settled by a webhook delivery. -/
def reportedOrder (o : Order) : Order :=
  { o with
    paymentStatus := .paid
    paymentMethod := some .razorpay
    status := if o.status = .placed then .paymentReceived else o.status }

/-- A payment the customer is confirming. -/
def processingPayment (method : PaymentMethod) (upiId : Option String) (p : Payment) :
    SweetCrust.Payment :=
  { p with method := some method, upiId := upiId, status := .processing }

/-- A payment the customer confirmed. -/
def confirmedPayment (p : Payment) : SweetCrust.Payment := { p with status := .paid }

/-! ## `razorpay_create` -/

inductive CreateReply
  | alreadyPaid (orderId paymentId : ℕ)
  | created (orderId paymentId : ℕ) (order : RazorpayOrder) (link : Option PaymentLink)

/-- The changes of a payment ordered at Razorpay. -/
def storeCreated (orderId paymentId : ℕ) (rzOrder : RazorpayOrder) (link : Option PaymentLink)
    (db : Db) : Db :=
  { db with
    payments := db.payments.modify paymentId (orderedPayment rzOrder link)
    orders := db.orders.modify orderId fun o => { o with paymentMethod := some .razorpay } }

/-- The notes that a call attaches to what it orders at Razorpay. -/
def notesOf (userId orderId : ℕ) (order : Order) : Notes where
  orderId := String.ofList (natText orderId)
  orderNumber := order.orderNumber
  userId := String.ofList (natText userId)

/-- The payment link that a call asks for, when it asks for one. -/
def linkFor (env : Env) (gateway : Gateway) (user : User) (order : Order) (notes : Notes)
    (usePaymentLink : Bool) : Except AppError (Option PaymentLink) :=
  if usePaymentLink then
    -- checkout phone first: guest accounts use synthetic ids
    (createPaymentLink env gateway order.finalAmount ("SweetCrust " ++ order.orderNumber)
      order.orderNumber user.name (some ((truthy order.customerPhone).getD user.phone))
      notes).map some
  else .ok none

/-- `razorpay_create`: order a payment at Razorpay and remember what it answered. -/
def razorpayCreate (env : Env) (gateway : Gateway) (userId : ℕ) (user : User) (orderId : ℕ)
    (usePaymentLink : Bool) (txn : String) : Service CreateReply := do
  let (order, paymentId, payment) ← getOrderPayment userId orderId txn
  if payment.status = .paid then
    return .alreadyPaid orderId paymentId
  else
    let notes := notesOf userId orderId order
    let rzOrder ← ofExcept (createOrder env gateway order.finalAmount order.orderNumber notes)
    let link ← ofExcept (linkFor env gateway user order notes usePaymentLink)
    modify (storeCreated orderId paymentId rzOrder link)
    commit
    return .created orderId paymentId rzOrder link

/-! ## `razorpay_verify` -/

inductive VerifyReply
  | alreadyPaid (orderId : ℕ)
  | success (orderId : ℕ) (invoice : Invoice)

/-- The changes of a verification that settles a payment. -/
def settleByVerify (orderId paymentId : ℕ) (verification : VerifyRecord) (db : Db) : Db :=
  { db with
    payments := db.payments.modify paymentId (verifiedPayment verification)
    orders := db.orders.modify orderId (receivedOrder .razorpay)
    history := db.history.insert
      ⟨orderId, .paymentReceived, some "Razorpay payment verified", none⟩ }

/-- The changes of a verification whose signature is wrong. -/
def failByVerify (orderId paymentId : ℕ) (db : Db) : Db :=
  { db with
    payments := db.payments.modify paymentId (failedPayment "Invalid Razorpay signature")
    orders := db.orders.modify orderId failedOrder }

/-- `razorpay_verify`: settle the order's payment on a signed pair of gateway ids. -/
def razorpayVerify (env : Env) (userId orderId : ℕ)
    (razorpayOrderId razorpayPaymentId razorpaySignature txn : String) :
    Service VerifyReply := do
  let (order, paymentId, payment) ← getOrderPayment userId orderId txn
  if payment.status = .paid then
    return .alreadyPaid orderId
  else if verifyPaymentSignature env razorpayOrderId razorpayPaymentId razorpaySignature then
    modify (settleByVerify orderId paymentId
      ⟨orderId, razorpayOrderId, razorpayPaymentId, razorpaySignature⟩)
    let invoice ← generateInvoice orderId (receivedOrder .razorpay order)
    commit
    return .success orderId invoice
  else
    modify (failByVerify orderId paymentId)
    commit
    raise (.badRequest "Invalid payment signature")

/-! ## `razorpay_webhook` -/

/-- What the handler reads of a webhook body: the event, and of the payment entity
its `notes.order_id` and its id. -/
structure WebhookPayload where
  event : Option String
  orderId : Option String
  paymentId : Option String
  deriving DecidableEq

/-- A webhook body: the text that is signed and what it decodes to, if it is JSON. -/
structure WebhookBody where
  raw : String
  payload : Option WebhookPayload

inductive WebhookReply
  | ignored (detail : Option String)
  | alreadyPaid
  | settled (orderId : ℕ)

/-- The order under a key that came as a number. -/
def orderUnder (db : Db) (n : ℤ) : Option (ℕ × Order) :=
  if 0 ≤ n then (db.orders.get? n.toNat).map fun o => (n.toNat, o) else none

/-- The changes of a webhook that settles a payment. -/
def settleByWebhook (orderId paymentId : ℕ) (order : Order) (event : String)
    (razorpayPaymentId : Option String) (db : Db) : Db :=
  { db with
    payments := db.payments.modify paymentId (reportedPayment event razorpayPaymentId)
    orders := db.orders.modify orderId reportedOrder
    history :=
      if order.status = .placed then
        db.history.insert ⟨orderId, .paymentReceived, some "Razorpay webhook", none⟩
      else db.history }

/-- `razorpay_webhook`: settle the payment of the order that the notes name. -/
def razorpayWebhook (env : Env) (body : WebhookBody) (signature : String) :
    Service WebhookReply := do
  Session.raiseIf ((truthy env.settings.razorpayWebhookSecret).isSome ∧
      verifyWebhookSignature env body.raw signature = false)
    (.badRequest "Invalid webhook signature")
  let payload ← orRaise body.payload (.badRequest "Invalid JSON")
  match truthy payload.orderId, payload.event with
  | some noted, some event =>
    if event = "payment.captured" ∨ event = "payment.authorized" then
      let n ← orRaise (parseInt noted.toList) (.uncaught "invalid literal for int()")
      let db ← get
      match orderUnder db n with
      | none => return .ignored (some "order missing")
      | some (orderId, order) =>
        match latestPayment db orderId with
        | none => return .ignored (some "payment missing")
        | some (paymentId, payment) =>
          if payment.status = .paid then
            return .alreadyPaid
          else
            modify (settleByWebhook orderId paymentId order event payload.paymentId)
            commit
            return .settled orderId
    else return .ignored none
  | _, _ => return .ignored none

/-! ## `process_payment` -/

inductive ProcessReply
  | failed (orderId : ℕ)
  | success (orderId : ℕ) (invoice : Invoice)

/-- The first commit of `process_payment`. -/
def startProcessing (paymentId : ℕ) (chosen : PaymentMethod) (upiId : Option String)
    (db : Db) : Db :=
  { db with payments := db.payments.modify paymentId (processingPayment chosen upiId) }

/-- The changes of a declined payment. -/
def declinePayment (orderId paymentId : ℕ) (db : Db) : Db :=
  { db with
    payments := db.payments.modify paymentId (failedPayment "Payment declined by bank / UPI")
    orders := db.orders.modify orderId failedOrder }

/-- The changes of a confirmed payment. -/
def confirmPayment (userId orderId paymentId : ℕ) (order : Order) (chosen : PaymentMethod)
    (db : Db) : Db :=
  { db with
    payments := db.payments.modify paymentId confirmedPayment
    orders := db.orders.modify orderId (receivedOrder chosen)
    history := db.history.insert ⟨orderId, .paymentReceived, some "Payment received", none⟩
    notifications := db.notifications.insert
      { userId := userId
        type := .payment
        title := "Payment successful"
        body := "₹" ++ String.ofList (fixed0 order.finalAmount) ++ " paid for " ++
          order.orderNumber
        data := some { orderId := some orderId } } }

/-- `process_payment`: the customer confirms a payment, in two commits. -/
def processPayment (userId orderId : ℕ) (method : String) (upiId : Option String)
    (fail : Bool) : Service ProcessReply := do
  let db ← get
  let order ← orRaise (ownOrder db userId orderId) (.notFound "Order not found")
  let (paymentId, _) ← orRaise (latestPayment db orderId) (.notFound "Payment not found")
  let chosen ← orRaise (PaymentMethod.ofValue? method)
    (.badRequest ("Invalid payment method: " ++ method))
  modify (startProcessing paymentId chosen upiId)
  commit
  if fail then
    modify (declinePayment orderId paymentId)
    commit
    return .failed orderId
  else
    modify (confirmPayment userId orderId paymentId order chosen)
    let invoice ← generateInvoice orderId (receivedOrder chosen order)
    commit
    return .success orderId invoice

end Payment

end SweetCrust
