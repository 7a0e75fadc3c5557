import SweetCrust.Orders.Rider
import SweetCrust.Orders.Updates
import SweetCrust.Payment.Frames
import SweetCrust.Payment.Orders
import SweetCrust.Payment.Settled
import SweetCrust.StoreOps.Refunds

/-!
# Do an order and its payment tell the same story?

Whether an order is paid is stored twice: as the payment status of the order, and as the
status of its newest payment.  The payment service writes both.  A refund writes the payment
only, and who delivers an order writes the order only.

* `Agrees` — each order is paid exactly if its newest payment is.
* `agrees_pay` — every call of the payment service keeps this.
* `agrees_iff` — the same for a run, exactly if no payment that counts is refunded, and
  nothing is delivered whose payment is not paid.
* `cash_unrecorded` — an order that is paid at the door.
-/

namespace SweetCrust

open Tabular Session Runs Orders

namespace Payment

namespace Agreement

/-! ## The calls that write payments -/

inductive Act
  | pay (call : Payment.Call)
  | refund (gateway : Integrations.RefundGateway) (paymentId : ℕ) (amount : Option ℚ)
  | deliver (userId : ℕ) (user : User) (orderId now : ℕ)
  | update (orderId : ℕ) (status : String) (actorId : ℕ) (note : Option String)
      (deliveryPersonId : Option ℕ) (now : ℕ)

def act (env : Env) (db : Db) : Act → Db
  | .pay call => (call.commits env db).getLastD db
  | .refund gateway k amount => final (Refunds.refundPayment env gateway k amount) db
  | .deliver u user o now => final (Rider.markDelivered u user o now) db
  | .update o status actorId note p now =>
    final (OrderService.updateOrderStatus o status actorId note p now) db

/-- The newest payment of the order is paid. -/
def PaidRow (db : Db) (o : ℕ) : Prop := ∃ i p, latestPayment db o = some (i, p) ∧ p.status = .paid

/-- Each order is paid exactly if its newest payment is. -/
def Agrees (db : Db) : Prop :=
  ∀ o order, db.orders.get? o = some order → (order.paymentStatus = .paid ↔ PaidRow db o)

/-- The refund is not refused. -/
def Refunds (env : Env) (db : Db) (gateway : Integrations.RefundGateway) (k : ℕ)
    (amount : Option ℚ) : Prop :=
  ∃ p answer, db.payments.get? k = some p ∧
    Refunds.gatewayRefund env gateway p amount = .ok answer

/-- What is refunded is not the newest payment of an order, and paid; and what is delivered has
a paid payment. -/
def Consistent (env : Env) (db : Db) : Act → Prop
  | .pay _ => True
  | .refund gateway k amount => Refunds env db gateway k amount →
      ∀ o p, (db.orders.get? o).isSome → latestPayment db o = some (k, p) → p.status ≠ .paid
  | .deliver u user o _ => ∀ a, Rider.Rides db (Rider.riderFor db u user) o a → PaidRow db o
  | .update o text _ _ p _ => ∀ a, OrderService.Accepts db o text p a .delivered → PaidRow db o

/-! ## One call -/

section Steps

variable {env : Env} {db t : Db} {o i k : ℕ} {p : SweetCrust.Payment} {order : Order}
  {f : SweetCrust.Payment → SweetCrust.Payment} {g : Order → Order}

theorem paidRow_iff (hp : latestPayment db o = some (i, p)) : PaidRow db o ↔ p.status = .paid := by
  unfold PaidRow
  rw [hp]
  constructor
  · rintro ⟨j, q, heq, hpaid⟩
    cases heq
    exact hpaid
  · exact fun hpaid => ⟨i, p, rfl, hpaid⟩

theorem paidRow_congr (h : latestPayment t o = latestPayment db o) : PaidRow t o ↔ PaidRow db o := by
  unfold PaidRow
  rw [h]

/-- A write to an order and its newest payment. -/
theorem agrees_of_write (h : Agrees db) (hp : latestPayment db o = some (i, p))
    (hpay : t.payments = db.payments.modify i f) (hf : ∀ q, (f q).orderId = q.orderId)
    (hord : t.orders = db.orders.modify o g)
    (hg : ∀ a, db.orders.get? o = some a → ((g a).paymentStatus = .paid ↔ (f p).status = .paid)) :
    Agrees t := by
  intro k a ha
  by_cases hk : k = o
  · subst hk
    rw [hord, Table.get?_modify_self] at ha
    obtain ⟨b, hb, rfl⟩ := Option.map_eq_some_iff.1 ha
    rw [paidRow_iff (latestPayment_modify hp hpay hf)]
    exact hg b hb
  · have hsame : Same k db t := same_of_write hp hk hpay hf (by
      rw [hord]
      exact Table.get?_modify_of_ne _ _ hk)
    rw [hsame.order] at ha
    rw [paidRow_congr hsame.payment]
    exact h k a ha

/-- A payment that is opened for an order without one is not paid, and neither is the order. -/
theorem agrees_withPayment (h : Agrees db) (hnone : latestPayment db o = none) (u : ℕ)
    (order : Order) (txn : String) : Agrees (withPayment u o order txn db) := by
  intro k a ha
  by_cases hk : k = o
  · subst hk
    rw [paidRow_iff (latestPayment_withPayment u k order txn db)]
    have hunpaid : ¬ PaidRow db k := by
      rintro ⟨i, p, hp, _⟩
      rw [hnone] at hp
      cases hp
    refine iff_of_false (fun hpaid => hunpaid ((h k a ha).1 hpaid)) ?_
    simp [openedPayment]
  · have hsame : Same k db (withPayment u o order txn db) := same_withPayment hk
    rw [paidRow_congr hsame.payment]
    exact h k a ha

theorem agrees_razorpayVerify {u : ℕ} {roid pid sig txn : String} (h : Agrees db)
    (ht : t ∈ commits (razorpayVerify env u o roid pid sig txn) db) : Agrees t := by
  refine rel_of_found (P := fun a b => Agrees a → Agrees b) (fun _ _ _ hab hbc ha => hbc (hab ha))
    (fun db h => quiet_razorpayVerify_notFound h)
    (fun db order h hp => commits_razorpayVerify_missing h hp)
    (fun db order hp h => agrees_withPayment h hp u order txn) ?_ ht h
  intro db order i p hown hp t ht h
  obtain ⟨_, rfl | rfl⟩ := mem_commits_razorpayVerify hown hp ht
  · refine agrees_of_write h hp (invoiced_payments _ _ _) (fun _ => rfl) (invoiced_orders _ _ _) ?_
    exact fun _ _ => iff_of_true rfl rfl
  · refine agrees_of_write h hp rfl (fun _ => rfl) rfl fun a _ => ?_
    simp [failedOrder, failedPayment]

theorem agrees_razorpayCreate {gateway : Gateway} {u : ℕ} {user : User} {link : Bool}
    {txn : String} (h : Agrees db)
    (ht : t ∈ commits (razorpayCreate env gateway u user o link txn) db) : Agrees t := by
  refine rel_of_found (P := fun a b => Agrees a → Agrees b) (fun _ _ _ hab hbc ha => hbc (hab ha))
    (fun db h => quiet_razorpayCreate_notFound h)
    (fun db order h hp => commits_razorpayCreate_missing h hp)
    (fun db order hp h => agrees_withPayment h hp u order txn) ?_ ht h
  intro db order i p hown hp t ht h
  obtain ⟨hpaid, rzOrder, rzLink, _, rfl⟩ := mem_commits_razorpayCreate hown hp ht
  refine agrees_of_write (g := viaRazorpay) h hp rfl (fun _ => rfl) rfl fun a ha => ?_
  have hunpaid : a.paymentStatus ≠ .paid := fun heq =>
    hpaid ((paidRow_iff hp).1 ((h o a ha).1 heq))
  exact iff_of_false hunpaid (by simp [orderedPayment])

theorem agrees_razorpayWebhook {body : WebhookBody} {signature : String} (h : Agrees db)
    (ht : t ∈ commits (razorpayWebhook env body signature) db) : Agrees t := by
  obtain ⟨payload, event, o, order, i, p, _, _, _, hp, _, rfl⟩ := mem_commits_razorpayWebhook ht
  exact agrees_of_write h hp rfl (fun _ => rfl) rfl fun _ _ => iff_of_true rfl rfl

theorem agrees_processPayment {u : ℕ} {method : String} (h : Agrees db) (upiId : Option String)
    (fail : Bool) : Agrees (final (processPayment u o method upiId fail) db) := by
  by_cases hgo : ∃ order chosen, Confirmable db u o method order chosen
  · obtain ⟨order, chosen, hgo⟩ := hgo
    obtain ⟨r, hp⟩ := Option.isSome_iff_exists.1 hgo.payment
    rw [final_processPayment hgo hp]
    cases fail with
    | true =>
      refine agrees_of_write h hp (Table.modify_modify _ _ _ _) (fun _ => rfl) rfl fun a _ => ?_
      simp [failedOrder, failedPayment]
    | false =>
      simp only [Bool.false_eq_true, if_false]
      refine agrees_of_write h hp ((invoiced_payments _ _ _).trans (Table.modify_modify _ _ _ _))
        (fun _ => rfl) (invoiced_orders _ _ _) fun _ _ => iff_of_true rfl rfl
  · simp only [not_exists] at hgo
    rw [final_processPayment_of_not hgo]
    exact h

/-- Every call of the payment service keeps order and payment in agreement. -/
theorem agrees_pay (h : Agrees db) (call : Payment.Call) :
    Agrees ((call.commits env db).getLastD db) := by
  have hlast : ∀ {α : Type} (m : Service α), (∀ t ∈ commits m db, Agrees t) →
      Agrees (final m db) := by
    intro α m hm
    rcases final_mem_or m db with hmem | hsame
    · exact hm _ hmem
    · rw [hsame]
      exact h
  cases call with
  | create gateway u user o link txn => exact hlast _ fun t ht => agrees_razorpayCreate h ht
  | verify u o roid pid sig txn => exact hlast _ fun t ht => agrees_razorpayVerify h ht
  | webhook body signature => exact hlast _ fun t ht => agrees_razorpayWebhook h ht
  | process u o method upiId fail => exact agrees_processPayment h upiId fail

/-- A refund that is not refused writes the payment, and nothing else. -/
theorem refund_cases (env : Env) (gateway : Integrations.RefundGateway) (k : ℕ)
    (amount : Option ℚ) (db : Db) :
    (¬ Refunds env db gateway k amount ∧ final (Refunds.refundPayment env gateway k amount) db = db) ∨
      Refunds env db gateway k amount ∧ ∃ amt answer,
        final (Refunds.refundPayment env gateway k amount) db =
          Refunds.writePayment k (Refunds.refunded amt answer) db := by
  unfold Refunds.refundPayment Refunds
  rw [final_get_bind]
  cases hp : db.payments.get? k with
  | none => exact Or.inl ⟨by simp, rfl⟩
  | some p =>
    rw [final_orRaise_some_bind]
    cases hanswer : Refunds.gatewayRefund env gateway p amount with
    | error e => exact Or.inl ⟨by simp [hanswer], rfl⟩
    | ok answer => exact Or.inr ⟨⟨p, answer, rfl, hanswer⟩, _, answer, rfl⟩

/-- A refunded payment no longer counts as paid, so the order must not have counted on it. -/
theorem agrees_refunded_iff (h : Agrees db) (amt : ℚ) (answer : RefundDocument) :
    Agrees (Refunds.writePayment k (Refunds.refunded amt answer) db) ↔
      ∀ o p, (db.orders.get? o).isSome → latestPayment db o = some (k, p) → p.status ≠ .paid := by
  have hlatest : ∀ o, latestPayment (Refunds.writePayment k (Refunds.refunded amt answer) db) o =
      (latestPayment db o).map fun r =>
        (r.1, if r.1 = k then Refunds.refunded amt answer r.2 else r.2) :=
    fun o => Table.last?_modify _ fun _ => rfl
  have hself : ∀ o p, latestPayment db o = some (k, p) →
      ¬ PaidRow (Refunds.writePayment k (Refunds.refunded amt answer) db) o := by
    intro o p hp
    rw [paidRow_iff (i := k) (p := Refunds.refunded amt answer p) (by rw [hlatest, hp]; simp)]
    simp [Refunds.refunded]
  have hother : ∀ o, (∀ p, latestPayment db o ≠ some (k, p)) →
      (PaidRow (Refunds.writePayment k (Refunds.refunded amt answer) db) o ↔ PaidRow db o) := by
    intro o hne
    refine paidRow_congr ?_
    rw [hlatest]
    cases hp : latestPayment db o with
    | none => rfl
    | some r =>
      have hrk : r.1 ≠ k := by
        rintro rfl
        exact hne r.2 hp
      simp [hrk]
  constructor
  · intro hafter o p hsome hp hpaid
    obtain ⟨a, ha⟩ := Option.isSome_iff_exists.1 hsome
    have hstill : a.paymentStatus = .paid := (h o a ha).2 ((paidRow_iff hp).2 hpaid)
    exact hself o p hp ((hafter o a ha).1 hstill)
  · intro hok o a hrow
    have ha : db.orders.get? o = some a := hrow
    by_cases hk : ∃ p, latestPayment db o = some (k, p)
    · obtain ⟨p, hp⟩ := hk
      have hunpaid : a.paymentStatus ≠ .paid := fun heq =>
        hok o p (by rw [ha]; rfl) hp ((paidRow_iff hp).1 ((h o a ha).1 heq))
      exact iff_of_false hunpaid (hself o p hp)
    · rw [hother o fun p hp => hk ⟨p, hp⟩]
      exact h o a ha

/-- Who calls an order paid and leaves the payments must find the newest one paid. -/
theorem agrees_delivered_iff (h : Agrees db) (ha : db.orders.get? o = some order)
    (hpay : t.payments = db.payments) (hord : t.orders = db.orders.modify o g)
    (hg : ∀ a, (g a).paymentStatus = .paid) : Agrees t ↔ PaidRow db o := by
  have hlatest : ∀ k, latestPayment t k = latestPayment db k := by
    intro k
    unfold latestPayment
    rw [hpay]
  constructor
  · intro hafter
    have hrow : t.orders.get? o = some (g order) := by rw [hord, Table.get?_modify_self, ha]; rfl
    exact (paidRow_congr (hlatest o)).1 ((hafter o _ hrow).1 (hg order))
  · intro hpaid k a hk
    rw [hord, Table.get?_modify] at hk
    rw [paidRow_congr (hlatest k)]
    split_ifs at hk with hko
    · obtain ⟨b, _, rfl⟩ := Option.map_eq_some_iff.1 hk
      rw [hko]
      exact iff_of_true (hg b) hpaid
    · exact h k a hk

/-- A write that leaves payments and payment statuses. -/
theorem agrees_of_same (h : Agrees db) (hpay : t.payments = db.payments)
    (hord : ∀ k, (t.orders.get? k).map Order.paymentStatus =
      (db.orders.get? k).map Order.paymentStatus) : Agrees t := by
  intro k a ha
  have hstatus := hord k
  rw [ha, Option.map_some] at hstatus
  obtain ⟨b, hb, heq⟩ := Option.map_eq_some_iff.1 hstatus.symm
  have hlatest : latestPayment t k = latestPayment db k := by
    unfold latestPayment
    rw [hpay]
  rw [paidRow_congr hlatest, ← heq]
  exact h k b hb

/-- The delivery of an order agrees with its payment exactly if that is paid. -/
theorem agrees_markDelivered (h : Agrees db) (u : ℕ) (user : User) (o now : ℕ) :
    Agrees (final (Rider.markDelivered u user o now) db) ↔
      ∀ a, Rider.Rides db (Rider.riderFor db u user) o a → PaidRow db o := by
  by_cases hgo : ∃ a, Rider.Rides db (Rider.riderFor db u user) o a
  · obtain ⟨a, hrides⟩ := hgo
    rw [Rider.final_markDelivered hrides]
    have ha : db.orders.get? o = some a := (Rider.riddenOrder_eq_some.1 hrides.1).1
    have hpay : (Rider.delivery o a now (Rider.withPerson u user db)).payments = db.payments :=
      Rider.withPerson_payments u user db
    have hord : (Rider.delivery o a now (Rider.withPerson u user db)).orders =
        db.orders.modify o (Rider.delivered now) := by
      rw [← Rider.withPerson_orders u user db]
      rfl
    rw [agrees_delivered_iff h ha hpay hord fun _ => rfl]
    exact ⟨fun hpaid _ _ => hpaid, fun hall => hall a hrides⟩
  · simp only [not_exists] at hgo
    rw [(Rider.markDelivered_raises hgo now).final]
    refine iff_of_true ?_ fun a hrides => absurd hrides (hgo a)
    refine agrees_of_same h (Rider.withPerson_payments u user db) fun k => ?_
    rw [Rider.withPerson_orders]

/-- So does the order service's. -/
theorem agrees_updateOrderStatus (h : Agrees db) (o : ℕ) (text : String) (actorId : ℕ)
    (note : Option String) (person : Option ℕ) (now : ℕ) :
    Agrees (final (OrderService.updateOrderStatus o text actorId note person now) db) ↔
      ∀ a, OrderService.Accepts db o text person a .delivered → PaidRow db o := by
  rcases OrderService.updateOrderStatus_cases o text actorId note person now db with
    ⟨a, status, haccepts, hfinal⟩ | ⟨hnot, hfinal⟩
  · rw [hfinal]
    have hpay : (OrderService.updated o a status actorId note person now db).payments =
        db.payments := OrderService.updated_payments db
    have hord : (OrderService.updated o a status actorId note person now db).orders =
        db.orders.modify o fun b => OrderService.withRider person
          (OrderService.setStatus status note now b) := OrderService.updated_orders db
    by_cases hdelivered : status = .delivered
    · subst hdelivered
      rw [agrees_delivered_iff h haccepts.found hpay hord fun _ => rfl]
      exact ⟨fun hpaid _ _ => hpaid, fun hall => hall a haccepts⟩
    · refine iff_of_true (agrees_of_same h hpay fun k => ?_) fun b hb => ?_
      · rw [hord, Table.get?_modify]
        split_ifs with hko
        · subst hko
          cases hrow : db.orders.get? k with
          | none => rfl
          | some b => simp [OrderService.withRider, OrderService.setStatus, hdelivered]
        · rfl
      · exact absurd (Option.some.inj (haccepts.status_eq.symm.trans hb.status_eq)) hdelivered
  · rw [hfinal]
    exact iff_of_true h fun a haccepts => absurd haccepts (hnot a _)

/-- A call leaves orders and payments in agreement exactly if it is consistent. -/
theorem agrees_act (h : Agrees db) (a : Act) : Agrees (act env db a) ↔ Consistent env db a := by
  cases a with
  | pay call => exact iff_of_true (agrees_pay h call) trivial
  | refund gateway k amount =>
    show Agrees (final (Refunds.refundPayment env gateway k amount) db) ↔ (_ → _)
    rcases refund_cases env gateway k amount db with ⟨hnot, hsame⟩ | ⟨hgo, amt, answer, hwritten⟩
    · rw [hsame]
      exact iff_of_true h fun hgo => absurd hgo hnot
    · rw [hwritten, agrees_refunded_iff h]
      exact ⟨fun hok _ => hok, fun hall => hall hgo⟩
  | deliver u user o now => exact agrees_markDelivered h u user o now
  | update o text actorId note p now => exact agrees_updateOrderStatus h o text actorId note p now

end Steps

/-- Order and payment agree throughout a run exactly if each call of it is consistent. -/
theorem agrees_iff (env : Env) {db : Db} (h : Agrees db) (acts : List Act) :
    Throughout (act env) Agrees db acts ↔ Stepwise (act env) (Consistent env) db acts :=
  throughout_iff_stepwise (I := fun _ : Db => True) (P := Agrees) (fun _ _ _ => trivial)
    (fun _ a _ hs => agrees_act hs a) trivial h acts

/-! ## An order that is paid at the door -/

/-- A placed order of user 7, to be paid in cash, and a rider. -/
def cashDb : Db :=
  { Db.empty with
    orders := .ofList [{ (default : Order) with userId := 7, paymentMethod := some .cod }]
    payments := .ofList
      [{ (default : SweetCrust.Payment) with
          orderId := 1, userId := 7, amount := 500, method := some .cod }]
    deliveryPersons := .ofList [{ (default : DeliveryPerson) with userId := some 3 }] }

theorem agrees_cashDb : Agrees cashDb := by
  intro o order ho
  have hlt : o < 2 := Table.lt_next_of_get? ho
  have ho1 : o = 1 := by
    rcases Nat.eq_zero_or_pos o with rfl | hpos
    · cases ho
    · omega
  subst ho1
  cases ho
  rw [paidRow_iff (i := 1) rfl]
  decide

/-- The customer pays online after all, and then the order is delivered. -/
theorem agrees_paidFirst : Throughout (act plainEnv) Agrees cashDb
    [.pay (.process 7 1 "upi" none false), .update 1 "delivered" 9 none none 5] := by
  refine (agrees_iff plainEnv agrees_cashDb _).2
    (stepwise_cons.2 ⟨trivial, stepwise_cons.2 ⟨fun a _ => ?_, stepwise_nil _ _⟩⟩)
  have hpaid : ((latestPayment (act plainEnv cashDb (.pay (.process 7 1 "upi" none false))) 1).map
      fun r => r.2.status) = some .paid := by decide +kernel
  obtain ⟨r, hr, hstatus⟩ := Option.map_eq_some_iff.1 hpaid
  exact ⟨r.1, r.2, hr, hstatus⟩

/-- The rider takes the order, delivers it and is paid: the order is paid, and its payment is
still pending. -/
theorem cash_unrecorded : ¬ Throughout (act plainEnv) Agrees cashDb
    [.update 1 "delivery_assigned" 9 none (some 1) 0, .deliver 3 default 1 5] := by
  intro h
  have hpending : ((latestPayment (run (act plainEnv) cashDb
      [.update 1 "delivery_assigned" 9 none (some 1) 0, .deliver 3 default 1 5]) 1).map
      fun r => r.2.status) = some .pending := by decide +kernel
  have hpaid : ((run (act plainEnv) cashDb
      [.update 1 "delivery_assigned" 9 none (some 1) 0, .deliver 3 default 1 5]).orders.get? 1).map
      Order.paymentStatus = some .paid := by decide +kernel
  obtain ⟨order, horder, hstatus⟩ := Option.map_eq_some_iff.1 hpaid
  obtain ⟨i, p, hp, hrow⟩ := (h.final 1 order horder).1 hstatus
  rw [hp, Option.map_some, hrow] at hpending
  cases hpending

end Agreement

end Payment

end SweetCrust
