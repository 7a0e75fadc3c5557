import SweetCrust.Lib.Runs
import SweetCrust.Payment.Effects

/-!
# One gateway payment, reported many times

The customer's browser verifies a payment and Razorpay reports the same payment
by webhook, in any order and any number of times.  The first message that finds
the payment unpaid settles it and every later one is a no-op
(`run_deliver_cons`), so where the messages end depends only on which kind came
first.  The two kinds disagree: a verification overwrites the order's status,
writes history and issues the invoice; a webhook does the first two only on an
order that is still placed, and never issues an invoice.

* `deliver_verify`, `deliver_webhook` — what the first message does.
* `confluent_iff` — the messages lead to one outcome exactly when the order is
  still placed and its invoice exists already.
-/

namespace SweetCrust

open Tabular Session Decimal Runs Text

namespace Payment

/-- A message about one gateway payment. -/
inductive Delivery
  | verify (signature txn : String)
  | webhook (body : WebhookBody) (signature : String)

/-- The database after a message about the payment `pid` of the gateway order `roid`. -/
def deliver (env : Env) (userId o : ℕ) (roid pid : String) (db : Db) : Delivery → Db
  | .verify signature txn => final (razorpayVerify env userId o roid pid signature txn) db
  | .webhook body signature => final (razorpayWebhook env body signature) db

/-- The message is genuine: its signature check succeeds, and a webhook delivery
reports the capture of `pid` for order `o`. -/
def Genuine (env : Env) (o : ℕ) (roid pid : String) : Delivery → Prop
  | .verify signature _ => verifyPaymentSignature env roid pid signature = true
  | .webhook body signature => WebhookPasses env body signature ∧
      body.payload =
        some ⟨some "payment.captured", some (String.ofList (natText o)), some pid⟩

/-- How many history rows record that the order's payment was received. -/
def receivedRows (db : Db) (o : ℕ) : ℕ :=
  (db.history.select fun h => h.orderId = o ∧ h.status = .paymentReceived).length

/-- How many invoices the order has. -/
def invoiceCount (db : Db) (o : ℕ) : ℕ :=
  (db.invoices.select fun v => v.orderId = some o).length

/-- In `t` the payment that was open in `db` is settled: paid on both rows, the
order in status `st`, one history row more, and one invoice. -/
structure Settled (db : Db) (o : ℕ) (st : OrderStatus) (t : Db) : Prop where
  payment : ∃ i p, latestPayment t o = some (i, p) ∧ p.status = .paid
  order : ∃ order, t.orders.get? o = some order ∧ order.paymentStatus = .paid ∧ order.status = st
  history : receivedRows t o = receivedRows db o + 1
  invoice : invoiceCount t o = 1

/-- However often and in whatever order the messages about a payment arrive, they
lead to the same outcome. -/
def Confluent (env : Env) (userId o : ℕ) (roid pid : String) (db : Db) : Prop :=
  ∃ st, ∀ ds : List Delivery, ds ≠ [] → (∀ d ∈ ds, Genuine env o roid pid d) →
    Settled db o st (run (deliver env userId o roid pid) db ds)

/-! ## Counting invoices -/

theorem invoiceFor_eq_none {db : Db} {o : ℕ} : invoiceFor db o = none ↔ invoiceCount db o = 0 := by
  unfold invoiceFor invoiceCount Table.first? Table.select
  rw [List.find?_eq_none, List.length_eq_zero_iff, List.filter_eq_nil_iff]

/-- Issuing makes the first invoice and no second one. -/
theorem invoiceCount_invoiced (o : ℕ) (order : Order) (db : Db) :
    invoiceCount (invoiced o order db) o = max 1 (invoiceCount db o) := by
  unfold invoiced
  cases h : invoiceFor db o with
  | none =>
    have hzero : invoiceCount db o = 0 := invoiceFor_eq_none.1 h
    have hone : invoiceCount (withInvoice o order db) o = invoiceCount db o + 1 := by
      unfold invoiceCount withInvoice
      rw [Table.select_insert]
      simp [invoiceOf]
    show invoiceCount (withInvoice o order db) o = max 1 (invoiceCount db o)
    rw [hone, hzero]
    rfl
  | some v =>
    have hpos : invoiceCount db o ≠ 0 := by
      intro hzero
      rw [invoiceFor_eq_none.2 hzero] at h
      cases h
    show invoiceCount db o = max 1 (invoiceCount db o)
    omega

/-! ## One message -/

section Messages

variable {env : Env} {o i : ℕ} {roid pid : String} {db : Db} {order : Order}
  {p : SweetCrust.Payment}

theorem announces_of_genuine {body : WebhookBody} {signature : String}
    (h : Genuine env o roid pid (.webhook body signature)) :
    Announces body ⟨some "payment.captured", some (String.ofList (natText o)), some pid⟩
      "payment.captured" o where
  payload_eq := h.2
  event_eq := rfl
  event_kind := Or.inl rfl
  noted := by
    refine ⟨String.ofList (natText o), truthy_some ?_, ?_⟩
    · intro hempty
      have hnil : natText o = [] := by simpa using congrArg String.toList hempty
      exact natText_ne_nil o hnil
    · rw [String.toList_ofList]
      exact parseInt_natText o

/-- A message about a paid order changes nothing. -/
theorem deliver_of_paid {d : Delivery} (hord : db.orders.get? o = some order)
    (hp : latestPayment db o = some (i, p)) (hpaid : p.status = .paid)
    (hd : Genuine env o roid pid d) : deliver env order.userId o roid pid db d = db := by
  cases d with
  | verify signature txn =>
    exact (quiet_razorpayVerify_paid (ownOrder_eq_some.2 ⟨hord, rfl⟩) hp hpaid).final
  | webhook body signature =>
    have hcommits := commits_razorpayWebhook hd.1 (announces_of_genuine hd) hord hp
    rw [if_pos hpaid] at hcommits
    exact Quiet.final hcommits

/-- A verification that settles: both rows paid, the status overwritten, one
history row, and an invoice if there was none. -/
theorem deliver_verify {signature : String} (txn : String)
    (hord : db.orders.get? o = some order)
    (hp : latestPayment db o = some (i, p)) (hpaid : p.status ≠ .paid)
    (hsig : verifyPaymentSignature env roid pid signature = true) {t : Db}
    (ht : deliver env order.userId o roid pid db (.verify signature txn) = t) :
    (∃ q, latestPayment t o = some (i, q) ∧ q.status = .paid) ∧
      (∃ ord, t.orders.get? o = some ord ∧ ord.userId = order.userId ∧
        ord.paymentStatus = .paid ∧ ord.status = .paymentReceived) ∧
      receivedRows t o = receivedRows db o + 1 ∧
      invoiceCount t o = max 1 (invoiceCount db o) := by
  have hown : ownOrder db order.userId o = some order := ownOrder_eq_some.2 ⟨hord, rfl⟩
  have hfinal := (commitsOnly_razorpayVerify txn hown hp hpaid hsig).final
  have ht' := ht.symm.trans hfinal
  refine ⟨?_, ?_, ?_, ?_⟩
  · have hpay : t.payments = db.payments.modify i (verifiedPayment ⟨o, roid, pid, signature⟩) := by
      rw [ht', invoiced_payments]
      rfl
    exact ⟨_, latestPayment_modify hp hpay fun q => rfl, rfl⟩
  · rw [ht', invoiced_orders]
    simp [settleByVerify, receivedOrder, hord]
  · unfold receivedRows
    rw [ht', invoiced_history]
    simp [settleByVerify, Table.select_insert]
  · rw [ht', invoiceCount_invoiced]
    rfl

/-- A webhook delivery that settles: both rows paid; status and history change only
on a placed order, and no invoice is issued. -/
theorem deliver_webhook {body : WebhookBody} {signature : String}
    (hord : db.orders.get? o = some order) (hp : latestPayment db o = some (i, p))
    (hpaid : p.status ≠ .paid) (hd : Genuine env o roid pid (.webhook body signature)) {t : Db}
    (ht : deliver env order.userId o roid pid db (.webhook body signature) = t) :
    (∃ q, latestPayment t o = some (i, q) ∧ q.status = .paid) ∧
      (∃ ord, t.orders.get? o = some ord ∧ ord.userId = order.userId ∧
        ord.paymentStatus = .paid ∧
        ord.status = if order.status = .placed then .paymentReceived else order.status) ∧
      receivedRows t o = receivedRows db o + (if order.status = .placed then 1 else 0) ∧
      invoiceCount t o = invoiceCount db o := by
  have hcommits := commits_razorpayWebhook hd.1 (announces_of_genuine hd) hord hp
  rw [if_neg hpaid] at hcommits
  have hfinal : t = settleByWebhook o i order "payment.captured" (some pid) db := by
    rw [← ht]
    show final (razorpayWebhook env body signature) db = _
    unfold Session.final
    rw [hcommits]
    rfl
  refine ⟨?_, ?_, ?_, ?_⟩
  · have hpay : t.payments =
        db.payments.modify i (reportedPayment "payment.captured" (some pid)) := by
      rw [hfinal]
      rfl
    exact ⟨_, latestPayment_modify hp hpay fun q => rfl, rfl⟩
  · rw [hfinal]
    simp [settleByWebhook, reportedOrder, hord]
  · unfold receivedRows
    rw [hfinal]
    by_cases hplaced : order.status = .placed <;>
      simp [settleByWebhook, hplaced, Table.select_insert]
  · rw [hfinal]
    rfl

/-- Every genuine message leaves the order's payment paid. -/
theorem deliver_paid {d : Delivery} (hord : db.orders.get? o = some order)
    (hp : latestPayment db o = some (i, p)) (hd : Genuine env o roid pid d) :
    ∃ ord q, (deliver env order.userId o roid pid db d).orders.get? o = some ord ∧
      ord.userId = order.userId ∧
      latestPayment (deliver env order.userId o roid pid db d) o = some (i, q) ∧
      q.status = .paid := by
  by_cases hpaid : p.status = .paid
  · rw [deliver_of_paid hord hp hpaid hd]
    exact ⟨order, p, hord, rfl, hp, hpaid⟩
  cases d with
  | verify signature txn =>
    obtain ⟨⟨q, hq, hqs⟩, ⟨ord, hget, huser, _⟩, _⟩ :=
      deliver_verify txn hord hp hpaid hd rfl
    exact ⟨ord, q, hget, huser, hq, hqs⟩
  | webhook body signature =>
    obtain ⟨⟨q, hq, hqs⟩, ⟨ord, hget, huser, _⟩, _⟩ := deliver_webhook hord hp hpaid hd rfl
    exact ⟨ord, q, hget, huser, hq, hqs⟩

end Messages

/-! ## Any number of messages -/

/-- Messages about a paid order change nothing. -/
theorem run_deliver_of_paid {env : Env} {o i : ℕ} {roid pid : String} {db : Db} {order : Order}
    {p : SweetCrust.Payment} (hord : db.orders.get? o = some order)
    (hp : latestPayment db o = some (i, p)) (hpaid : p.status = .paid) (ds : List Delivery)
    (hds : ∀ d ∈ ds, Genuine env o roid pid d) :
    run (deliver env order.userId o roid pid) db ds = db := by
  induction ds with
  | nil => rfl
  | cons d ds ih =>
    rw [run_cons, deliver_of_paid hord hp hpaid (hds d (by simp))]
    exact ih fun e he => hds e (by simp [he])

/-- Where the messages lead is where the first of them leads. -/
theorem run_deliver_cons {env : Env} {o i : ℕ} {roid pid : String} {db : Db} {order : Order}
    {p : SweetCrust.Payment} (hord : db.orders.get? o = some order)
    (hp : latestPayment db o = some (i, p)) (d : Delivery) (ds : List Delivery)
    (hds : ∀ e ∈ d :: ds, Genuine env o roid pid e) :
    run (deliver env order.userId o roid pid) db (d :: ds) =
      deliver env order.userId o roid pid db d := by
  obtain ⟨ord, q, hget, huser, hq, hqs⟩ := deliver_paid hord hp (hds d (by simp))
  rw [run_cons, ← huser]
  rw [← huser] at hget hq
  exact run_deliver_of_paid hget hq hqs ds fun e he => hds e (by simp [he])

/-- Razorpay can always send a genuine webhook delivery. -/
theorem exists_genuine_webhook (env : Env) (o : ℕ) (roid pid : String) :
    ∃ body signature, Genuine env o roid pid (.webhook body signature) := by
  cases hsecret : truthy env.settings.razorpayWebhookSecret with
  | none =>
    refine ⟨⟨"", some ⟨some "payment.captured", some (String.ofList (natText o)), some pid⟩⟩,
      "", ?_, rfl⟩
    intro h
    rw [hsecret] at h
    cases h
  | some key =>
    refine ⟨⟨"", some ⟨some "payment.captured", some (String.ofList (natText o)), some pid⟩⟩,
      env.hmac key "", ?_, rfl⟩
    intro _
    simp [verifyWebhookSignature, hsecret]

/-- The messages about an open payment lead to one outcome exactly when the order is
still placed and its invoice exists already. -/
theorem confluent_iff {env : Env} {o i : ℕ} {db : Db} {order : Order} {p : SweetCrust.Payment}
    (hord : db.orders.get? o = some order) (hp : latestPayment db o = some (i, p))
    (hopen : p.status = .pending ∨ p.status = .processing) (roid pid : String) :
    Confluent env order.userId o roid pid db ↔
      order.status = .placed ∧ invoiceCount db o = 1 := by
  have hpaid : p.status ≠ .paid := by
    rcases hopen with h | h <;> rw [h] <;> decide
  constructor
  · rintro ⟨st, hall⟩
    obtain ⟨body, signature, hd⟩ := exists_genuine_webhook env o roid pid
    have hsettled := hall [.webhook body signature] (by simp) (by simpa using hd)
    rw [run_deliver_cons hord hp _ _ (by simpa using hd)] at hsettled
    obtain ⟨_, _, hhistory, hinvoice⟩ := deliver_webhook hord hp hpaid hd rfl
    have hrows := hsettled.history
    have hcount := hsettled.invoice
    rw [hhistory] at hrows
    rw [hinvoice] at hcount
    refine ⟨?_, hcount⟩
    by_contra hplaced
    rw [if_neg hplaced] at hrows
    omega
  · rintro ⟨hplaced, hcount⟩
    refine ⟨.paymentReceived, ?_⟩
    intro ds hne hds
    cases ds with
    | nil => exact absurd rfl hne
    | cons d ds =>
      rw [run_deliver_cons hord hp d ds hds]
      have hd := hds d (by simp)
      cases d with
      | verify signature txn =>
        obtain ⟨⟨q, hq, hqs⟩, ⟨ord, hget, _, hps, hst⟩, hhistory, hinvoice⟩ :=
          deliver_verify txn hord hp hpaid hd rfl
        exact ⟨⟨i, q, hq, hqs⟩, ⟨ord, hget, hps, hst⟩, hhistory, by rw [hinvoice, hcount]; rfl⟩
      | webhook body signature =>
        obtain ⟨⟨q, hq, hqs⟩, ⟨ord, hget, _, hps, hst⟩, hhistory, hinvoice⟩ :=
          deliver_webhook hord hp hpaid hd rfl
        rw [if_pos hplaced] at hst hhistory
        exact ⟨⟨i, q, hq, hqs⟩, ⟨ord, hget, hps, hst⟩, hhistory, by rw [hinvoice, hcount]⟩

/-! ## An order that is paid while it is still placed -/

/-- One placed order of user 7, with an open payment. -/
def placedDb : Db :=
  { Db.empty with
    orders := .ofList [{ (default : Order) with userId := 7, finalAmount := 500 }]
    payments := .ofList
      [{ (default : SweetCrust.Payment) with orderId := 1, userId := 7, amount := 500 }] }

/-- The same with its invoice issued beforehand. -/
def invoicedDb : Db :=
  { placedDb with invoices := .ofList [{ (default : Invoice) with orderId := some 1 }] }

theorem invoicedDb_order : invoicedDb.orders.get? 1 =
    some { (default : Order) with userId := 7, finalAmount := 500 } := rfl

theorem invoicedDb_payment : latestPayment invoicedDb 1 =
    some (1, { (default : SweetCrust.Payment) with orderId := 1, userId := 7, amount := 500 }) :=
  rfl

/-- The capture of `pay_A`, reported for order 1. -/
def captureBody : WebhookBody := ⟨"body", some ⟨some "payment.captured", some "1", some "pay_A"⟩⟩

theorem confluent_invoicedDb :
    invoiceCount invoicedDb 1 = 1 ∧ Confluent plainEnv 7 1 "order_A" "pay_A" invoicedDb :=
  ⟨by decide +kernel,
    (confluent_iff invoicedDb_order invoicedDb_payment (Or.inl rfl) "order_A" "pay_A").2
      ⟨rfl, by decide +kernel⟩⟩

/-- A single webhook delivery settles the payment of a placed order and leaves it
without an invoice. -/
theorem placedDb_not_confluent : ¬ Confluent plainEnv 7 1 "order_A" "pay_A" placedDb := by
  rintro ⟨st, hall⟩
  have hgenuine : ∀ d ∈ [Delivery.webhook captureBody "hook#body"],
      Genuine plainEnv 1 "order_A" "pay_A" d := by
    intro d hd
    rw [List.mem_singleton.1 hd]
    exact ⟨fun _ => by decide +kernel, by decide +kernel⟩
  have hone := (hall [.webhook captureBody "hook#body"] (by simp) hgenuine).invoice
  revert hone
  decide +kernel

end Payment

end SweetCrust
