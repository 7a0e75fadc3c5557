import SweetCrust.Payment.Payments

/-!
# What the payment handlers commit

For each handler the states it commits, under the facts it looks up: whose order
it is, which payment row is the newest, whether that row is paid.  Everything
proved about the payment API is proved from these lemmas; no other module unfolds
a handler.

* `Same` — two states agree on an order's row and on its newest payment.
* `Settles` — what a settling write does to the order it is about.
* `commits_razorpayVerify_…`, `commits_razorpayWebhook_…`,
  `commits_processPayment_…`, `commits_razorpayCreate_…` — one lemma for each way
  a handler can go.
-/

namespace SweetCrust

open Tabular Session Decimal Text

namespace Payment

/-! ## Looking up -/

theorem ownOrder_eq_some {db : Db} {userId o : ℕ} {order : Order} :
    ownOrder db userId o = some order ↔ db.orders.get? o = some order ∧ order.userId = userId := by
  simp [ownOrder, Option.filter_eq_some_iff]

/-! ## Agreement on an order -/

/-- Two states agree on the row of order `o` and on its newest payment. -/
structure Same (o : ℕ) (db t : Db) : Prop where
  order : t.orders.get? o = db.orders.get? o
  payment : latestPayment t o = latestPayment db o

theorem Same.refl (o : ℕ) (db : Db) : Same o db db := ⟨rfl, rfl⟩

theorem Same.trans {o : ℕ} {a b c : Db} (h : Same o a b) (h' : Same o b c) : Same o a c :=
  ⟨h'.order.trans h.order, h'.payment.trans h.payment⟩

/-- A write to a payment of another order that leaves the row of order `o` alone. -/
theorem same_of_write {db t : Db} {o o' i : ℕ} {p : SweetCrust.Payment}
    {f : SweetCrust.Payment → SweetCrust.Payment} (hp : latestPayment db o' = some (i, p))
    (hne : o ≠ o') (hpay : t.payments = db.payments.modify i f)
    (hf : ∀ q, (f q).orderId = q.orderId) (hord : t.orders.get? o = db.orders.get? o) :
    Same o db t where
  order := hord
  payment := latestPayment_modify_of_ne hp hpay hf hne

/-! ## Opening a missing payment -/

theorem latestPayment_withPayment (userId o : ℕ) (order : Order) (txn : String) (db : Db) :
    latestPayment (withPayment userId o order txn db) o =
      some (db.payments.next, openedPayment userId o order txn) := by
  simp [latestPayment, withPayment, Table.last?_insert, openedPayment]

theorem same_withPayment {userId o o' : ℕ} {order : Order} {txn : String} {db : Db}
    (hne : o' ≠ o) : Same o' db (withPayment userId o order txn db) where
  order := rfl
  payment := by
    simp [latestPayment, withPayment, Table.last?_insert, openedPayment, hne.symm]

section Opening

variable {β : Type} {userId o : ℕ} {order : Order} {txn : String} {db : Db}
  {k : Order × ℕ × SweetCrust.Payment → Service β}

/-- A caller who does not own the order is refused. -/
theorem getOrderPayment_bind_none (h : ownOrder db userId o = none) :
    (getOrderPayment userId o txn >>= k) db = ([], .error (.notFound "Order not found")) := by
  rw [bind_run]
  simp [getOrderPayment, h]

theorem getOrderPayment_bind_some {i : ℕ} {p : SweetCrust.Payment}
    (h : ownOrder db userId o = some order) (hp : latestPayment db o = some (i, p)) :
    (getOrderPayment userId o txn >>= k) db = k (order, i, p) db := by
  rw [bind_run]
  simp [getOrderPayment, h, hp]

/-- With no payment row yet, the handler commits a new one and goes on as if it had been there. -/
theorem getOrderPayment_bind_missing (h : ownOrder db userId o = some order)
    (hp : latestPayment db o = none) :
    (getOrderPayment userId o txn >>= k) db =
      (withPayment userId o order txn db ::
          ((getOrderPayment userId o txn >>= k) (withPayment userId o order txn db)).1,
        ((getOrderPayment userId o txn >>= k) (withPayment userId o order txn db)).2) := by
  have hown : ownOrder (withPayment userId o order txn db) userId o = some order := h
  rw [getOrderPayment_bind_some hown (latestPayment_withPayment userId o order txn db)]
  rw [bind_run]
  simp [getOrderPayment, h, hp]

end Opening

/-! ## Issuing the invoice -/

/-- The database once the order has its invoice. -/
def invoiced (o : ℕ) (order : Order) (db : Db) : Db :=
  match invoiceFor db o with
  | some _ => db
  | none => withInvoice o order db

theorem invoiced_payments (o : ℕ) (order : Order) (db : Db) :
    (invoiced o order db).payments = db.payments := by
  unfold invoiced withInvoice
  split <;> rfl

theorem invoiced_orders (o : ℕ) (order : Order) (db : Db) :
    (invoiced o order db).orders = db.orders := by
  unfold invoiced withInvoice
  split <;> rfl

theorem invoiced_history (o : ℕ) (order : Order) (db : Db) :
    (invoiced o order db).history = db.history := by
  unfold invoiced withInvoice
  split <;> rfl

/-- A handler that ends by issuing the invoice and committing commits one state. -/
theorem commitsOnly_invoiced {α : Type} (o : ℕ) (order : Order) (db : Db) (k : Invoice → α) :
    CommitsOnly (generateInvoice o order >>= fun v => commit >>= fun _ => pure (k v) :
      Service α) db (invoiced o order db) := by
  unfold CommitsOnly commits
  rw [bind_run]
  unfold generateInvoice invoiced
  cases h : invoiceFor db o with
  | none => simp [h]
  | some v => simp [h]

/-! ## `razorpay_verify` -/

section Verify

variable {env : Env} {userId o i : ℕ} {roid pid sig txn : String} {db : Db} {order : Order}
  {p : SweetCrust.Payment}

/-- A caller who does not own the order changes nothing. -/
theorem quiet_razorpayVerify_notFound (h : ownOrder db userId o = none) :
    Quiet (razorpayVerify env userId o roid pid sig txn) db := by
  unfold Quiet commits razorpayVerify
  rw [getOrderPayment_bind_none h]

/-- A paid order is left alone. -/
theorem quiet_razorpayVerify_paid (h : ownOrder db userId o = some order)
    (hp : latestPayment db o = some (i, p)) (hpaid : p.status = .paid) :
    Quiet (razorpayVerify env userId o roid pid sig txn) db := by
  unfold Quiet commits razorpayVerify
  rw [getOrderPayment_bind_some h hp]
  simp [hpaid]

/-- A valid signature settles an unpaid order and issues its invoice, in one state. -/
theorem commitsOnly_razorpayVerify (txn : String) (h : ownOrder db userId o = some order)
    (hp : latestPayment db o = some (i, p)) (hpaid : p.status ≠ .paid)
    (hsig : verifyPaymentSignature env roid pid sig = true) :
    CommitsOnly (razorpayVerify env userId o roid pid sig txn) db
      (invoiced o (receivedOrder .razorpay order)
        (settleByVerify o i ⟨o, roid, pid, sig⟩ db)) := by
  have hrun : razorpayVerify env userId o roid pid sig txn db =
      (generateInvoice o (receivedOrder .razorpay order) >>=
        fun v => commit >>= fun _ => pure (VerifyReply.success o v))
        (settleByVerify o i ⟨o, roid, pid, sig⟩ db) := by
    unfold razorpayVerify
    rw [getOrderPayment_bind_some h hp]
    simp [hpaid, hsig]
  unfold CommitsOnly commits
  rw [hrun]
  exact commitsOnly_invoiced _ _ _ _

/-- A wrong signature fails an unpaid order. -/
theorem commits_razorpayVerify_invalid (h : ownOrder db userId o = some order)
    (hp : latestPayment db o = some (i, p)) (hpaid : p.status ≠ .paid)
    (hsig : verifyPaymentSignature env roid pid sig = false) :
    commits (razorpayVerify env userId o roid pid sig txn) db = [failByVerify o i db] := by
  unfold commits razorpayVerify
  rw [getOrderPayment_bind_some h hp]
  simp [hpaid, hsig]

/-- What a verification commits when the payment row is there. -/
theorem mem_commits_razorpayVerify {t : Db} (h : ownOrder db userId o = some order)
    (hp : latestPayment db o = some (i, p))
    (ht : t ∈ commits (razorpayVerify env userId o roid pid sig txn) db) :
    p.status ≠ .paid ∧
      (t = invoiced o (receivedOrder .razorpay order) (settleByVerify o i ⟨o, roid, pid, sig⟩ db) ∨
        t = failByVerify o i db) := by
  by_cases hpaid : p.status = .paid
  · exact absurd ht ((quiet_razorpayVerify_paid h hp hpaid).notMem_commits t)
  refine ⟨hpaid, ?_⟩
  cases hsig : verifyPaymentSignature env roid pid sig with
  | true => exact Or.inl ((commitsOnly_razorpayVerify txn h hp hpaid hsig).2 t ht)
  | false =>
    rw [commits_razorpayVerify_invalid h hp hpaid hsig, List.mem_singleton] at ht
    exact Or.inr ht

/-- Without a payment row, the call first commits a new one. -/
theorem commits_razorpayVerify_missing (h : ownOrder db userId o = some order)
    (hp : latestPayment db o = none) :
    commits (razorpayVerify env userId o roid pid sig txn) db =
      withPayment userId o order txn db ::
        commits (razorpayVerify env userId o roid pid sig txn)
          (withPayment userId o order txn db) := by
  unfold commits razorpayVerify
  rw [getOrderPayment_bind_missing h hp]

end Verify

/-! ## `razorpay_webhook` -/

/-- The handler lets the signature pass: it is right, or no secret is configured. -/
def WebhookPasses (env : Env) (body : WebhookBody) (signature : String) : Prop :=
  (truthy env.settings.razorpayWebhookSecret).isSome →
    verifyWebhookSignature env body.raw signature = true

/-- The delivery announces a payment of order `o`. -/
structure Announces (body : WebhookBody) (payload : WebhookPayload) (event : String) (o : ℕ) :
    Prop where
  payload_eq : body.payload = some payload
  event_eq : payload.event = some event
  event_kind : event = "payment.captured" ∨ event = "payment.authorized"
  noted : ∃ text, truthy payload.orderId = some text ∧ parseInt text.toList = some (o : ℤ)

section Webhook

variable {env : Env} {body : WebhookBody} {signature : String} {payload : WebhookPayload}
  {event : String} {o i : ℕ} {db : Db} {order : Order} {p : SweetCrust.Payment}

theorem orderUnder_natCast (db : Db) (o : ℕ) :
    orderUnder db (o : ℤ) = (db.orders.get? o).map fun ord => (o, ord) := by
  simp [orderUnder]

theorem orderUnder_eq_some {n : ℤ} (h : orderUnder db n = some (o, order)) :
    n = (o : ℤ) ∧ db.orders.get? o = some order := by
  unfold orderUnder at h
  split_ifs at h with hn
  obtain ⟨ord, hord, heq⟩ := Option.map_eq_some_iff.1 h
  cases heq
  exact ⟨(Int.toNat_of_nonneg hn).symm, hord⟩

/-- A delivery that passes and announces a payment of an existing order settles it
once, in one commit. -/
theorem commits_razorpayWebhook (hpass : WebhookPasses env body signature)
    (hbody : Announces body payload event o) (hord : db.orders.get? o = some order)
    (hp : latestPayment db o = some (i, p)) :
    commits (razorpayWebhook env body signature) db =
      if p.status = .paid then []
      else [settleByWebhook o i order event payload.paymentId db] := by
  obtain ⟨hpayload, hevent, hkind, text, htext, hparse⟩ := hbody
  have hguard : ¬ ((truthy env.settings.razorpayWebhookSecret).isSome ∧
      verifyWebhookSignature env body.raw signature = false) := by
    rintro ⟨hs, hv⟩
    rw [hpass hs] at hv
    exact absurd hv (by simp)
  have hunder : orderUnder db (o : ℤ) = some (o, order) := by
    rw [orderUnder_natCast, hord, Option.map_some]
  unfold commits razorpayWebhook
  rw [Session.raiseIf_bind_of_not hguard]
  simp only [hpayload, orRaise_some_bind, htext, hevent, if_pos hkind, hparse, get_bind, hunder, hp]
  by_cases hpaid : p.status = .paid
  · simp [hpaid]
  · simp [hpaid]

/-- A delivery that commits passes the check and announces a payment of an order
whose newest payment is not paid. -/
theorem razorpayWebhook_commits (h : ¬ Quiet (razorpayWebhook env body signature) db) :
    ∃ payload event o order i p, WebhookPasses env body signature ∧
      Announces body payload event o ∧ db.orders.get? o = some order ∧
      latestPayment db o = some (i, p) ∧ p.status ≠ .paid := by
  unfold Quiet commits razorpayWebhook at h
  by_cases hguard : (truthy env.settings.razorpayWebhookSecret).isSome ∧
      verifyWebhookSignature env body.raw signature = false
  · rw [Session.raiseIf_bind_of hguard] at h
    exact absurd rfl h
  rw [Session.raiseIf_bind_of_not hguard] at h
  have hpass : WebhookPasses env body signature := by
    intro hs
    by_contra hv
    exact hguard ⟨hs, by simpa using hv⟩
  cases hpayload : body.payload with
  | none => simp [hpayload] at h
  | some payload =>
    cases htext : truthy payload.orderId with
    | none => simp [hpayload, htext] at h
    | some text =>
      cases hevent : payload.event with
      | none => simp [hpayload, htext, hevent] at h
      | some event =>
        by_cases hkind : event = "payment.captured" ∨ event = "payment.authorized"
        swap
        · simp [hpayload, htext, hevent, hkind] at h
        simp only [hpayload, orRaise_some_bind, htext, hevent, if_pos hkind] at h
        cases hparse : parseInt text.toList with
        | none => simp [hparse] at h
        | some n =>
          simp only [hparse, orRaise_some_bind, get_bind] at h
          cases hunder : orderUnder db n with
          | none => simp [hunder] at h
          | some r =>
            obtain ⟨o, order⟩ := r
            obtain ⟨rfl, hord⟩ := orderUnder_eq_some hunder
            cases hp : latestPayment db o with
            | none => simp [hunder, hp] at h
            | some q =>
              obtain ⟨i, p⟩ := q
              refine ⟨payload, event, o, order, i, p, hpass,
                ⟨hpayload, hevent, hkind, text, htext, hparse⟩, hord, hp, ?_⟩
              intro hpaid
              simp [hunder, hp, hpaid] at h

/-- What a webhook delivery commits. -/
theorem mem_commits_razorpayWebhook {t : Db}
    (ht : t ∈ commits (razorpayWebhook env body signature) db) :
    ∃ payload event o order i p, WebhookPasses env body signature ∧
      Announces body payload event o ∧ db.orders.get? o = some order ∧
      latestPayment db o = some (i, p) ∧ p.status ≠ .paid ∧
      t = settleByWebhook o i order event payload.paymentId db := by
  by_cases hquiet : Quiet (razorpayWebhook env body signature) db
  · exact absurd ht (hquiet.notMem_commits t)
  obtain ⟨payload, event, o, order, i, p, hpass, hbody, hord, hp, hopen⟩ :=
    razorpayWebhook_commits hquiet
  rw [commits_razorpayWebhook hpass hbody hord hp, if_neg hopen, List.mem_singleton] at ht
  exact ⟨payload, event, o, order, i, p, hpass, hbody, hord, hp, hopen, ht⟩

end Webhook

/-! ## `process_payment` -/

section Process

variable {userId o i : ℕ} {method : String} {chosen : PaymentMethod} {upiId : Option String}
  {fail : Bool} {db : Db} {order : Order} {p : SweetCrust.Payment}

/-- A call for somebody else's order, or with an unknown method, changes nothing. -/
theorem quiet_processPayment
    (h : ownOrder db userId o = none ∨ PaymentMethod.ofValue? method = none) :
    Quiet (processPayment userId o method upiId fail) db := by
  unfold Quiet commits processPayment
  simp only [get_bind]
  cases hown : ownOrder db userId o with
  | none => simp
  | some order =>
    cases hp : latestPayment db o with
    | none => simp
    | some r =>
      rcases h with h | h
      · rw [hown] at h
        exact absurd h (by simp)
      · simp [h]

/-- An order without a payment row is refused. -/
theorem quiet_processPayment_missing (hp : latestPayment db o = none) :
    Quiet (processPayment userId o method upiId fail) db := by
  unfold Quiet commits processPayment
  simp only [get_bind]
  cases hown : ownOrder db userId o with
  | none => simp
  | some order => simp [hp]

/-- An accepted call commits the payment as processing, whatever its status was, and
then as declined or as confirmed. -/
theorem commits_processPayment (upiId : Option String) (fail : Bool)
    (h : ownOrder db userId o = some order)
    (hp : latestPayment db o = some (i, p)) (hm : PaymentMethod.ofValue? method = some chosen) :
    ∃ rest, commits (processPayment userId o method upiId fail) db =
        startProcessing i chosen upiId db :: rest ∧
      ∀ t ∈ rest, t = declinePayment o i (startProcessing i chosen upiId db) ∨
        t = invoiced o (receivedOrder chosen order)
          (confirmPayment userId o i order chosen (startProcessing i chosen upiId db)) := by
  cases fail with
  | true =>
    refine ⟨[declinePayment o i (startProcessing i chosen upiId db)], ?_, by simp⟩
    unfold commits processPayment
    simp [h, hp, hm]
  | false =>
    obtain ⟨_, hall⟩ := commitsOnly_invoiced o (receivedOrder chosen order)
      (confirmPayment userId o i order chosen (startProcessing i chosen upiId db))
      (ProcessReply.success o)
    refine ⟨_, ?_, fun t ht => Or.inr (hall t ht)⟩
    unfold commits processPayment
    simp [h, hp, hm]

end Process

/-! ## `razorpay_create` -/

section Create

variable {env : Env} {gateway : Gateway} {userId o i : ℕ} {user : User} {link : Bool}
  {txn : String} {db : Db} {order : Order} {p : SweetCrust.Payment}

theorem quiet_razorpayCreate_notFound (h : ownOrder db userId o = none) :
    Quiet (razorpayCreate env gateway userId user o link txn) db := by
  unfold Quiet commits razorpayCreate
  rw [getOrderPayment_bind_none h]

theorem quiet_razorpayCreate_paid (h : ownOrder db userId o = some order)
    (hp : latestPayment db o = some (i, p)) (hpaid : p.status = .paid) :
    Quiet (razorpayCreate env gateway userId user o link txn) db := by
  unfold Quiet commits razorpayCreate
  rw [getOrderPayment_bind_some h hp]
  simp [hpaid]

/-- On an unpaid order the call stores the gateway order that Razorpay created for
it, or a gateway refusal leaves everything as it was. -/
theorem commits_razorpayCreate (h : ownOrder db userId o = some order)
    (hp : latestPayment db o = some (i, p)) (hpaid : p.status ≠ .paid) :
    Quiet (razorpayCreate env gateway userId user o link txn) db ∨
      ∃ rzOrder rzLink,
        createOrder env gateway order.finalAmount order.orderNumber (notesOf userId o order) =
          .ok rzOrder ∧
        commits (razorpayCreate env gateway userId user o link txn) db =
          [storeCreated o i rzOrder rzLink db] := by
  unfold Quiet commits razorpayCreate
  rw [getOrderPayment_bind_some h hp]
  simp only [hpaid, if_false]
  cases hrz : createOrder env gateway order.finalAmount order.orderNumber
      (notesOf userId o order) with
  | error e =>
    left
    simp
  | ok rzOrder =>
    cases hlink : linkFor env gateway user order (notesOf userId o order) link with
    | error e =>
      left
      simp
    | ok rzLink =>
      right
      exact ⟨rzOrder, rzLink, rfl, by simp⟩

/-- What the call commits when the payment row is there. -/
theorem mem_commits_razorpayCreate {t : Db} (h : ownOrder db userId o = some order)
    (hp : latestPayment db o = some (i, p))
    (ht : t ∈ commits (razorpayCreate env gateway userId user o link txn) db) :
    p.status ≠ .paid ∧ ∃ rzOrder rzLink,
      createOrder env gateway order.finalAmount order.orderNumber (notesOf userId o order) =
        .ok rzOrder ∧ t = storeCreated o i rzOrder rzLink db := by
  by_cases hpaid : p.status = .paid
  · exact absurd ht ((quiet_razorpayCreate_paid h hp hpaid).notMem_commits t)
  refine ⟨hpaid, ?_⟩
  rcases commits_razorpayCreate h hp hpaid with hquiet | ⟨rzOrder, rzLink, hrz, hcommits⟩
  · exact absurd ht (hquiet.notMem_commits t)
  · rw [hcommits, List.mem_singleton] at ht
    exact ⟨rzOrder, rzLink, hrz, ht⟩

/-- Without a payment row, the call first commits a new one. -/
theorem commits_razorpayCreate_missing (h : ownOrder db userId o = some order)
    (hp : latestPayment db o = none) :
    commits (razorpayCreate env gateway userId user o link txn) db =
      withPayment userId o order txn db ::
        commits (razorpayCreate env gateway userId user o link txn)
          (withPayment userId o order txn db) := by
  unfold commits razorpayCreate
  rw [getOrderPayment_bind_missing h hp]

end Create

end Payment

end SweetCrust
