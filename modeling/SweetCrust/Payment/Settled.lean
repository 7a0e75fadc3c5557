import SweetCrust.Lib.Runs
import SweetCrust.Payment.Frames

/-!
# A settled payment under the customer payment API

Once the newest payment of an order is paid, `razorpay_create`, `razorpay_verify`
and `razorpay_webhook` leave that order alone: each of them checks for `PAID`
first.  `process_payment` does not check; an accepted call commits the payment as
processing and then as failed, or as paid anew with the order's status set back.

* `same_of_call` — every other call leaves the order's row and its newest payment.
* `staysSettled_iff` — through a run of calls the payment stays settled exactly when
  no `process_payment` call on its order is accepted.
-/

namespace SweetCrust

open Tabular Session Runs Text

namespace Payment

/-- A call of the customer payment API. -/
inductive Call
  | create (gateway : Gateway) (userId : ℕ) (user : User) (orderId : ℕ) (usePaymentLink : Bool)
      (txn : String)
  | verify (userId orderId : ℕ) (razorpayOrderId razorpayPaymentId razorpaySignature txn : String)
  | webhook (body : WebhookBody) (signature : String)
  | process (userId orderId : ℕ) (method : String) (upiId : Option String) (fail : Bool)

/-- The states a call commits, in order. -/
def Call.commits (env : Env) (db : Db) : Call → List Db
  | .create gateway userId user orderId link txn =>
    Session.commits (razorpayCreate env gateway userId user orderId link txn) db
  | .verify userId orderId roid pid sig txn =>
    Session.commits (razorpayVerify env userId orderId roid pid sig txn) db
  | .webhook body signature => Session.commits (razorpayWebhook env body signature) db
  | .process userId orderId method upiId fail =>
    Session.commits (processPayment userId orderId method upiId fail) db

/-- A confirmation that `process_payment` accepts on order `o` of `owner`: it comes
from the owner and names a payment method. -/
def Call.Confirms (owner o : ℕ) : Call → Prop
  | .process userId orderId method _ _ =>
    orderId = o ∧ userId = owner ∧ PaymentMethod.ofValue? method ≠ none
  | _ => False

/-- A stage that an order reaches only after `PAYMENT_RECEIVED`. -/
def LaterStage (s : OrderStatus) : Prop := s ≠ .placed ∧ s ≠ .paymentReceived

/-- From one committed state to the next the payment `i` of order `o` stays settled. -/
structure StaysSettled (o i : ℕ) (a b : Db) : Prop where
  /-- It is the newest payment, and paid. -/
  payment : ∃ p, latestPayment b o = some (i, p) ∧ p.status = .paid
  /-- A payment status of the order that was paid is paid. -/
  paymentStatus : ∀ ord, a.orders.get? o = some ord → ord.paymentStatus = .paid →
    ∃ ord', b.orders.get? o = some ord' ∧ ord'.paymentStatus = .paid
  /-- The order is not moved back from a later stage. -/
  status : ∀ ord ord', a.orders.get? o = some ord → b.orders.get? o = some ord' →
    LaterStage ord.status → ord'.status ≠ .paymentReceived

/-! ## Calls about the settled order -/

section Settled

variable {env : Env} {o i : ℕ} {db : Db} {order : Order} {p : SweetCrust.Payment}

/-- Every call but an accepted confirmation leaves a settled order as it is. -/
theorem same_of_call (hord : db.orders.get? o = some order)
    (hp : latestPayment db o = some (i, p)) (hpaid : p.status = .paid) {c : Call}
    (hc : ¬ c.Confirms order.userId o) {t : Db} (ht : t ∈ c.commits env db) : Same o db t := by
  have hquiet : ∀ {l : List Db}, l = [] → t ∉ l := fun h => h ▸ List.not_mem_nil
  cases c with
  | create gateway userId user o' link txn =>
    by_cases hne : o = o'
    · subst hne
      cases hown : ownOrder db userId o with
      | none => exact absurd ht (hquiet (quiet_razorpayCreate_notFound hown))
      | some ord => exact absurd ht (hquiet (quiet_razorpayCreate_paid hown hp hpaid))
    · exact same_razorpayCreate_of_ne hne ht
  | verify userId o' roid pid sig txn =>
    by_cases hne : o = o'
    · subst hne
      cases hown : ownOrder db userId o with
      | none => exact absurd ht (hquiet (quiet_razorpayVerify_notFound hown))
      | some ord => exact absurd ht (hquiet (quiet_razorpayVerify_paid hown hp hpaid))
    · exact same_razorpayVerify_of_ne hne ht
  | webhook body signature => exact same_razorpayWebhook hp hpaid ht
  | process userId o' method upiId fail =>
    by_cases hne : o = o'
    · subst hne
      refine absurd ht (hquiet (quiet_processPayment ?_))
      by_contra hcon
      obtain ⟨hown, hm⟩ := not_or.1 hcon
      obtain ⟨ord, hown⟩ := Option.ne_none_iff_exists'.1 hown
      obtain ⟨hget, huser⟩ := ownOrder_eq_some.1 hown
      rw [hord] at hget
      cases hget
      exact hc ⟨rfl, huser.symm, hm⟩
    · exact same_processPayment_of_ne hne ht

/-- The first state an accepted confirmation commits has the payment unsettled. -/
theorem unsettled_of_confirms (hord : db.orders.get? o = some order)
    (hp : latestPayment db o = some (i, p)) {c : Call} (hc : c.Confirms order.userId o) :
    ∃ t l, c.commits env db = t :: l ∧ ¬ StaysSettled o i db t := by
  cases c with
  | create => exact hc.elim
  | verify => exact hc.elim
  | webhook => exact hc.elim
  | process userId o' method upiId fail =>
    obtain ⟨rfl, rfl, hm⟩ := hc
    obtain ⟨chosen, hm⟩ := Option.ne_none_iff_exists'.1 hm
    obtain ⟨rest, hcommits, _⟩ := commits_processPayment upiId fail
      (ownOrder_eq_some.2 ⟨hord, rfl⟩) hp hm
    refine ⟨_, rest, hcommits, ?_⟩
    rintro ⟨⟨q, hq, hpaid⟩, _, _⟩
    have hp' : latestPayment (startProcessing i chosen upiId db) o' =
        some (i, processingPayment chosen upiId p) :=
      latestPayment_modify hp rfl fun q => rfl
    rw [hp'] at hq
    cases hq
    cases hpaid

/-- Through a run of calls the newest payment of an order stays settled exactly when
the run has no confirmation that `process_payment` accepts on that order. -/
theorem staysSettled_iff (hord : db.orders.get? o = some order)
    (hp : latestPayment db o = some (i, p)) (hpaid : p.status = .paid) (cs : List Call) :
    List.IsChain (StaysSettled o i) (db :: trace (Call.commits env) db cs) ↔
      ∀ c ∈ cs, ¬ c.Confirms order.userId o := by
  have hsame : ∀ {a : Db}, Same o db a →
      a.orders.get? o = some order ∧ latestPayment a o = some (i, p) :=
    fun h => ⟨h.order.trans hord, h.payment.trans hp⟩
  refine isChain_trace_iff (I := Same o db) ?_ ?_ ?_ (Same.refl o db) cs
  · intro a b ha hb
    obtain ⟨haord, hap⟩ := hsame ha
    obtain ⟨hbord, hbp⟩ := hsame hb
    refine ⟨⟨p, hbp, hpaid⟩, ?_, ?_⟩
    · intro ord hget hps
      rw [haord] at hget
      cases hget
      exact ⟨order, hbord, hps⟩
    · intro ord ord' hget hget' hlater
      rw [haord] at hget
      rw [hbord] at hget'
      cases hget
      cases hget'
      exact hlater.2
  · intro s c hs hc t ht
    obtain ⟨hsord, hsp⟩ := hsame hs
    exact hs.trans (same_of_call hsord hsp hpaid hc ht)
  · intro s c hs hc
    obtain ⟨hsord, hsp⟩ := hsame hs
    exact unsettled_of_confirms hsord hsp (not_not.1 hc)

end Settled

/-! ## A delivered order that is confirmed again -/

/-- A delivered and paid order of user 7. -/
def deliveredOrder : Order :=
  { (default : Order) with userId := 7, status := .delivered, paymentStatus := .paid }

/-- Its payment. -/
def paidPayment : SweetCrust.Payment :=
  { (default : SweetCrust.Payment) with orderId := 1, userId := 7, amount := 500, status := .paid }

/-- The database of that order. -/
def deliveredDb : Db :=
  { Db.empty with orders := .ofList [deliveredOrder], payments := .ofList [paidPayment] }

theorem deliveredDb_order : deliveredDb.orders.get? 1 = some deliveredOrder := rfl

theorem deliveredDb_payment : latestPayment deliveredDb 1 = some (1, paidPayment) := rfl

theorem staysSettled_deliveredDb :
    List.IsChain (StaysSettled 1 1)
      (deliveredDb :: trace (Call.commits plainEnv) deliveredDb
        [.process 8 1 "upi" none true, .verify 7 1 "order_A" "pay_A" "forged" "TXN1"]) :=
  (staysSettled_iff deliveredDb_order deliveredDb_payment rfl _).2 (by
    intro c hc
    simp only [List.mem_cons, List.not_mem_nil, or_false] at hc
    rcases hc with rfl | rfl
    · rintro ⟨_, hcaller, _⟩
      exact absurd hcaller (by decide)
    · exact not_false)

/-- The owner of a delivered and paid order confirms its payment once more, and the
bank declines: the payment is processing, then failed. -/
theorem deliveredDb_unsettled :
    ¬ List.IsChain (StaysSettled 1 1)
      (deliveredDb :: trace (Call.commits plainEnv) deliveredDb
        [.process 7 1 "upi" none true]) := by
  intro hchain
  have hprocessing : (latestPayment (startProcessing 1 .upi none deliveredDb) 1).map
      (fun r => r.2.status) = some .processing := by decide +kernel
  have hfirst : StaysSettled 1 1 deliveredDb (startProcessing 1 .upi none deliveredDb) :=
    (List.isChain_cons_cons.1 hchain).1
  obtain ⟨q, hq, hpaid⟩ := hfirst.payment
  rw [hq, Option.map_some, hpaid] at hprocessing
  cases hprocessing

end Payment

end SweetCrust
