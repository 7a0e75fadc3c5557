import SweetCrust.Payment.Effects

/-!
# What the payment handlers do to an order

`razorpay_verify` and `process_payment` write `PAYMENT_RECEIVED` whatever the order's
status is; `razorpay_webhook` only moves a placed order on, and `razorpay_create` writes
the payment method.
-/

namespace SweetCrust

open Tabular Session Text

namespace Payment

section Orders

variable {env : Env} {u o i : ℕ} {db : Db} {order : Order} {p : SweetCrust.Payment}

/-- The last of some states that are all the same is that state. -/
theorem getLastD_of_commitsOnly {α : Type} {m : Service α} {s t : Db} (h : CommitsOnly m s t)
    (d : Db) : (commits m s).getLastD d = t := by
  obtain ⟨hne, hall⟩ := h
  rw [List.getLastD_eq_getLast?, List.getLast?_eq_some_getLast hne]
  exact hall _ (List.getLast_mem hne)

/-! ## `process_payment` -/

/-- The order is the customer's and has a payment, and the method exists. -/
structure Confirmable (db : Db) (u o : ℕ) (method : String) (order : Order)
    (chosen : PaymentMethod) : Prop where
  own : ownOrder db u o = some order
  payment : (latestPayment db o).isSome
  method_eq : PaymentMethod.ofValue? method = some chosen

theorem final_processPayment_of_not {method : String}
    (h : ∀ order chosen, ¬ Confirmable db u o method order chosen) (upiId : Option String)
    (fail : Bool) : final (processPayment u o method upiId fail) db = db := by
  unfold processPayment
  rw [final_get_bind]
  cases hown : ownOrder db u o with
  | none => rfl
  | some order =>
    rw [final_orRaise_some_bind]
    cases hp : latestPayment db o with
    | none => rfl
    | some r =>
      rw [final_orRaise_some_bind]
      cases hm : PaymentMethod.ofValue? method with
      | none => rfl
      | some chosen => exact absurd ⟨hown, by simp [hp], hm⟩ (h order chosen)

/-- A confirmation that the handler takes declines the payment, or confirms it. -/
theorem final_processPayment {method : String} {chosen : PaymentMethod}
    (h : Confirmable db u o method order chosen) (hp : latestPayment db o = some (i, p))
    (upiId : Option String) (fail : Bool) :
    final (processPayment u o method upiId fail) db =
      if fail then declinePayment o i (startProcessing i chosen upiId db)
      else invoiced o (receivedOrder chosen order)
        (confirmPayment u o i order chosen (startProcessing i chosen upiId db)) := by
  cases fail with
  | true =>
    unfold processPayment
    rw [final_get_bind, h.own, final_orRaise_some_bind, hp, final_orRaise_some_bind, h.method_eq,
      final_orRaise_some_bind]
    rfl
  | false =>
    let start := startProcessing i chosen upiId db
    have hcommits : commits (processPayment u o method upiId false) db =
        start :: commits (generateInvoice o (receivedOrder chosen order) >>= fun v =>
          commit >>= fun _ => pure (ProcessReply.success o v))
            (confirmPayment u o i order chosen start) := by
      unfold commits processPayment
      simp [h.own, hp, h.method_eq, start]
    unfold final
    rw [hcommits, List.getLastD_cons, getLastD_of_commitsOnly (commitsOnly_invoiced _ _ _ _)]
    rfl

theorem history_processPayment {method : String} {chosen : PaymentMethod}
    (h : Confirmable db u o method order chosen) (upiId : Option String) (fail : Bool) :
    (final (processPayment u o method upiId fail) db).history =
      if fail then db.history
      else db.history.insert ⟨o, .paymentReceived, some "Payment received", none⟩ := by
  obtain ⟨r, hp⟩ := Option.isSome_iff_exists.1 h.payment
  rw [final_processPayment h hp]
  cases fail with
  | true => rfl
  | false =>
    simp only [Bool.false_eq_true, if_false, invoiced_history]
    rfl

/-- Such a confirmation fails the order, or receives its payment. -/
theorem orders_processPayment {method : String} {chosen : PaymentMethod}
    (h : Confirmable db u o method order chosen) (upiId : Option String) (fail : Bool) :
    (final (processPayment u o method upiId fail) db).orders =
      db.orders.modify o (if fail then failedOrder else receivedOrder chosen) := by
  obtain ⟨r, hp⟩ := Option.isSome_iff_exists.1 h.payment
  rw [final_processPayment h hp]
  cases fail with
  | true => rfl
  | false =>
    simp only [Bool.false_eq_true, if_false, invoiced_orders]
    rfl

/-! ## `razorpay_verify` -/

/-- The order is the customer's, and not paid. -/
structure Payable (db : Db) (u o : ℕ) (order : Order) : Prop where
  own : ownOrder db u o = some order
  unpaid : ∀ i p, latestPayment db o = some (i, p) → p.status ≠ .paid

theorem final_razorpayVerify_of_not (h : ∀ order, ¬ Payable db u o order)
    (roid pid sig txn : String) : final (razorpayVerify env u o roid pid sig txn) db = db := by
  cases hown : ownOrder db u o with
  | none => exact (quiet_razorpayVerify_notFound hown).final
  | some order =>
    have hpaid : ∃ i p, latestPayment db o = some (i, p) ∧ p.status = .paid := by
      by_contra hnot
      refine h order ⟨hown, fun i p hp hpaid => hnot ⟨i, p, hp, hpaid⟩⟩
    obtain ⟨i, p, hp, hpaid⟩ := hpaid
    exact (quiet_razorpayVerify_paid hown hp hpaid).final

/-- A verification of an unpaid order settles its payment, or fails it. -/
theorem final_razorpayVerify_found (hown : ownOrder db u o = some order)
    (hp : latestPayment db o = some (i, p)) (hpaid : p.status ≠ .paid)
    (roid pid sig txn : String) (d : Db) :
    (commits (razorpayVerify env u o roid pid sig txn) db).getLastD d =
      if verifyPaymentSignature env roid pid sig then
        invoiced o (receivedOrder .razorpay order) (settleByVerify o i ⟨o, roid, pid, sig⟩ db)
      else failByVerify o i db := by
  cases hsig : verifyPaymentSignature env roid pid sig with
  | true => exact getLastD_of_commitsOnly (commitsOnly_razorpayVerify txn hown hp hpaid hsig) d
  | false =>
    rw [commits_razorpayVerify_invalid hown hp hpaid hsig]
    rfl

/-- So does one that finds no payment: the payment row is made first, and is not paid. -/
theorem final_razorpayVerify (env : Env) (h : Payable db u o order)
    (roid pid sig txn : String) :
    ∃ i t, t.orders = db.orders ∧ t.history = db.history ∧
      final (razorpayVerify env u o roid pid sig txn) db =
        if verifyPaymentSignature env roid pid sig then
          invoiced o (receivedOrder .razorpay order) (settleByVerify o i ⟨o, roid, pid, sig⟩ t)
        else failByVerify o i t := by
  unfold final
  cases hp : latestPayment db o with
  | some r =>
    exact ⟨r.1, db, rfl, rfl,
      final_razorpayVerify_found h.own hp (h.unpaid r.1 r.2 hp) roid pid sig txn db⟩
  | none =>
    rw [commits_razorpayVerify_missing h.own hp, List.getLastD_cons]
    have hown : ownOrder (withPayment u o order txn db) u o = some order := h.own
    exact ⟨_, withPayment u o order txn db, rfl, rfl,
      final_razorpayVerify_found hown (latestPayment_withPayment u o order txn db)
        (by simp [openedPayment]) roid pid sig txn _⟩

theorem orders_razorpayVerify (env : Env) (h : Payable db u o order)
    (roid pid sig txn : String) :
    (final (razorpayVerify env u o roid pid sig txn) db).orders =
      db.orders.modify o
        (if verifyPaymentSignature env roid pid sig then receivedOrder .razorpay
        else failedOrder) := by
  obtain ⟨i, t, horders, -, ht⟩ := final_razorpayVerify env h roid pid sig txn
  rw [ht, ← horders]
  split_ifs
  · exact invoiced_orders _ _ _
  · rfl

theorem history_razorpayVerify (env : Env) (h : Payable db u o order)
    (roid pid sig txn : String) :
    (final (razorpayVerify env u o roid pid sig txn) db).history =
      if verifyPaymentSignature env roid pid sig then
        db.history.insert ⟨o, .paymentReceived, some "Razorpay payment verified", none⟩
      else db.history := by
  obtain ⟨i, t, -, hhistory, ht⟩ := final_razorpayVerify env h roid pid sig txn
  rw [ht, ← hhistory]
  split_ifs
  · exact invoiced_history _ _ _
  · rfl

/-! ## `razorpay_webhook` -/

/-- A delivery changes nothing, or settles one payment. -/
theorem final_razorpayWebhook (env : Env) (body : WebhookBody) (signature : String) (db : Db) :
    final (razorpayWebhook env body signature) db = db ∨
      ∃ o order i event pid, db.orders.get? o = some order ∧
        final (razorpayWebhook env body signature) db = settleByWebhook o i order event pid db := by
  by_cases hquiet : Quiet (razorpayWebhook env body signature) db
  · exact Or.inl hquiet.final
  · obtain ⟨payload, event, o, order, i, p, hpass, hbody, hord, hp, hopen⟩ :=
      razorpayWebhook_commits hquiet
    refine Or.inr ⟨o, order, i, event, payload.paymentId, hord, ?_⟩
    unfold final
    rw [commits_razorpayWebhook hpass hbody hord hp, if_neg hopen]
    rfl

/-- A delivery changes no order, or reports one as paid. -/
theorem orders_razorpayWebhook (env : Env) (body : WebhookBody) (signature : String) (db : Db) :
    (final (razorpayWebhook env body signature) db).orders = db.orders ∨
      ∃ o order, db.orders.get? o = some order ∧
        (final (razorpayWebhook env body signature) db).orders =
          db.orders.modify o reportedOrder := by
  rcases final_razorpayWebhook env body signature db with
    ht | ⟨o, order, i, event, pid, hord, ht⟩
  · exact Or.inl (congrArg Db.orders ht)
  · exact Or.inr ⟨o, order, hord, congrArg Db.orders ht⟩

/-! ## `razorpay_create` -/

/-- An order that is paid at Razorpay. -/
def viaRazorpay (o : Order) : Order := { o with paymentMethod := some .razorpay }

/-- Ordering a payment changes no order, or its payment method. -/
theorem orders_razorpayCreate (env : Env) (gateway : Gateway) (u : ℕ) (user : User) (o : ℕ)
    (link : Bool) (txn : String) (db : Db) :
    (final (razorpayCreate env gateway u user o link txn) db).orders = db.orders ∨
      (final (razorpayCreate env gateway u user o link txn) db).orders =
        db.orders.modify o viaRazorpay := by
  have hfound : ∀ db d, ∀ order i p, ownOrder db u o = some order →
      latestPayment db o = some (i, p) → d.orders = db.orders →
      ((commits (razorpayCreate env gateway u user o link txn) db).getLastD d).orders = db.orders ∨
        ((commits (razorpayCreate env gateway u user o link txn) db).getLastD d).orders =
          db.orders.modify o viaRazorpay := by
    intro db d order i p hown hp hd
    by_cases hpaid : p.status = .paid
    · left
      rw [show commits _ db = [] from quiet_razorpayCreate_paid hown hp hpaid]
      exact hd
    · rcases commits_razorpayCreate hown hp hpaid with
        hquiet | ⟨rzOrder, rzLink, _, hcommits⟩
      · left
        rw [show commits _ db = [] from hquiet]
        exact hd
      · right
        rw [hcommits]
        rfl
  unfold final
  cases hown : ownOrder db u o with
  | none => exact Or.inl (by rw [show commits _ db = [] from quiet_razorpayCreate_notFound hown]; rfl)
  | some order =>
    cases hp : latestPayment db o with
    | some r => exact hfound db db order r.1 r.2 hown hp rfl
    | none =>
      rw [commits_razorpayCreate_missing hown hp, List.getLastD_cons]
      exact hfound _ _ order _ _ hown (latestPayment_withPayment u o order txn db) rfl

end Orders

end Payment

end SweetCrust
