import SweetCrust.Orders.Rider
import SweetCrust.Orders.StoreOps
import SweetCrust.Payment.Orders
import SweetCrust.Payment.Settled

/-!
# The services that share the orders

Every request that writes the status of an order, over one database and one clock: of the
customer, the admin, the shop, the kitchen, the route, the riders and the payment service.
`rewrites_step` says everything that one of them can do to the row of an order.
-/

namespace SweetCrust

open Tabular Session

namespace Orders

/-- The database and the time. -/
structure World where
  db : Db
  now : ℕ

inductive Request
  | cancel (userId orderId : ℕ) (reason : String)
  | createReturn (userId : ℕ) (data : OrderService.ReturnIn)
  | admin (orderId : ℕ) (status : String) (note : Option String) (deliveryPersonId : Option ℕ)
  | offer (orderId deliveryPersonId : ℕ)
  | assign (orderId deliveryPersonId : ℕ)
  | sales (userId orderId : ℕ) (status : String) (note : Option String)
  | start (orderId : ℕ)
  | pack (orderId : ℕ)
  | route (orderId deliveryPersonId : ℕ)
  | accept (userId : ℕ) (user : User) (orderId : ℕ)
  | reject (userId : ℕ) (user : User) (orderId : ℕ)
  | trip (userId : ℕ) (user : User) (orderId : ℕ) (status : String)
  | deliver (userId : ℕ) (user : User) (orderId : ℕ)
  | myOrders (userId : ℕ) (user : User)
  | pay (call : Payment.Call)
  /-- Time passes. -/
  | wait (seconds : ℕ)

/-- What a request leaves in the database. -/
def served (env : Payment.Env) (w : World) : Request → Db
  | .cancel u o reason => final (OrderService.cancelOrder o u reason w.now) w.db
  | .createReturn u data => final (OrderService.createReturn u data w.now) w.db
  | .admin o status note p => final (StoreOps.updateOrderStatus o status note p w.now) w.db
  | .offer o p => final (StoreOps.offerDelivery o p w.now) w.db
  | .assign o p => final (StoreOps.assignDelivery o p w.now) w.db
  | .sales u o status note => final (StoreOps.updateSalesStatus u o status note w.now) w.db
  | .start o => final (Picking.start o) w.db
  | .pack o => final (Picking.pack o) w.db
  | .route o p => final (Routing.assign o p) w.db
  | .accept u user o => final (Rider.acceptOrder u user o w.now) w.db
  | .reject u user o => final (Rider.rejectOrder u user o) w.db
  | .trip u user o status => final (Rider.updateOrderStatus u user o status) w.db
  | .deliver u user o => final (Rider.markDelivered u user o w.now) w.db
  | .myOrders u user => final (Rider.myOrders u user w.now) w.db
  | .pay call => (call.commits env w.db).getLastD w.db
  | .wait _ => w.db

/-- How long a request makes the clock go on. -/
def Request.seconds : Request → ℕ
  | .wait n => n
  | _ => 0

def step (env : Payment.Env) (w : World) (r : Request) : World where
  db := served env w r
  now := w.now + r.seconds

/-- What a request can do to the row `a` of order `o`. -/
inductive Rewrites (env : Payment.Env) (w : World) (o : ℕ) (a : Order) : Request → Order → Prop
  | same (r : Request) : Rewrites env w o a r a
  | cancel (u : ℕ) (reason : String) (h : OrderService.Cancels u a) :
      Rewrites env w o a (.cancel u o reason)
        (OrderService.setStatus .cancelled (some reason) w.now a)
  | createReturn (u : ℕ) (data : OrderService.ReturnIn) (h : a.status = .delivered) :
      Rewrites env w o a (.createReturn u data) { a with status := .returnRequested }
  | admin (text : String) (note : Option String) (p : Option ℕ) (status : OrderStatus)
      (hst : OrderStatus.ofValue? text = some status) (hp : StoreOps.RiderKnown w.db p) :
      Rewrites env w o a (.admin o text note p) (StoreOps.setStatus status note p w.now a)
  | offer (p : ℕ) (hp : StoreOps.RiderKnown w.db (some p)) :
      Rewrites env w o a (.offer o p)
        (StoreOps.setStatus .deliveryOffered (some "Offered to rider") (some p) w.now a)
  | assign (p : ℕ) (hp : StoreOps.RiderKnown w.db (some p)) :
      Rewrites env w o a (.assign o p)
        (StoreOps.setStatus .deliveryAssigned (some "Assigned to rider") (some p) w.now a)
  | sales (u : ℕ) (text : String) (note : Option String) (status : OrderStatus)
      (hshop : ∃ i profile, Sell.MaySell w.db u w.now i profile)
      (h : StoreOps.soldOrder w.db u o = some a) (hst : OrderStatus.ofValue? text = some status)
      (hmem : status ∈ StoreOps.shopStatuses) :
      Rewrites env w o a (.sales u o text note) (StoreOps.setSalesStatus status note w.now a)
  | start (h : a.status ∈ [.accepted, .paymentReceived, .placed]) :
      Rewrites env w o a (.start o) { a with status := .preparing }
  | pack (h : a.status ∈ [.preparing, .accepted]) :
      Rewrites env w o a (.pack o) { a with status := .packed }
  | route (p : ℕ) (hp : (w.db.deliveryPersons.get? p).isSome) :
      Rewrites env w o a (.route o p) (Routing.assigned p a)
  | accept (u : ℕ) (user : User) (h : a.deliveryPersonId = some (Rider.riderFor w.db u user))
      (hopen : Rider.OfferOpen w.now a) : Rewrites env w o a (.accept u user o) (Rider.accepted a)
  | expire (r : Request) (h : Rider.OfferExpired w.now a) :
      Rewrites env w o a r (Rider.withdrawn "Offer expired" a)
  | reject (u : ℕ) (user : User) (h : a.deliveryPersonId = some (Rider.riderFor w.db u user))
      (hoffered : a.status = .deliveryOffered) :
      Rewrites env w o a (.reject u user o) (Rider.withdrawn "Rejected by rider" a)
  | atBakery (u : ℕ) (user : User) (text : String)
      (h : Rider.Rides w.db (Rider.riderFor w.db u user) o a) :
      Rewrites env w o a (.trip u user o text) (Rider.atBakery a)
  | trip (u : ℕ) (user : User) (text : String) (status : OrderStatus)
      (h : Rider.Rides w.db (Rider.riderFor w.db u user) o a)
      (hst : OrderStatus.ofValue? (Rider.stepKey text) = some status)
      (hmem : Rider.stepKey text ∈ Rider.riderStatusSteps) :
      Rewrites env w o a (.trip u user o text) { a with status := status }
  | deliver (u : ℕ) (user : User) (h : Rider.Rides w.db (Rider.riderFor w.db u user) o a) :
      Rewrites env w o a (.deliver u user o) (Rider.delivered w.now a)
  | failed (call : Payment.Call) : Rewrites env w o a (.pay call) (Payment.failedOrder a)
  | verified (u : ℕ) (roid pid sig txn : String) (h : Payment.Payable w.db u o a)
      (hsig : Payment.verifyPaymentSignature env roid pid sig = true) :
      Rewrites env w o a (.pay (.verify u o roid pid sig txn)) (Payment.receivedOrder .razorpay a)
  | confirmed (u : ℕ) (method : String) (upiId : Option String) (chosen : PaymentMethod)
      (h : Payment.Confirmable w.db u o method a chosen) :
      Rewrites env w o a (.pay (.process u o method upiId false)) (Payment.receivedOrder chosen a)
  | reported (call : Payment.Call) : Rewrites env w o a (.pay call) (Payment.reportedOrder a)
  | viaRazorpay (call : Payment.Call) : Rewrites env w o a (.pay call) (Payment.viaRazorpay a)

section Steps

variable {env : Payment.Env} {w : World} {o k : ℕ} {a : Order} {r : Request} {t : Db}
  {f : Order → Order}

/-- The request makes no order, and rewrites the rows of those that there are. -/
def RowsRewritten (env : Payment.Env) (w : World) (r : Request) (t : Db) : Prop :=
  ∀ o, (w.db.orders.get? o = none → t.orders.get? o = none) ∧
    ∀ a, w.db.orders.get? o = some a → ∃ b, t.orders.get? o = some b ∧ Rewrites env w o a r b

/-- A request that writes to no order. -/
theorem rewrites_of_same (ht : t.orders = w.db.orders) : RowsRewritten env w r t := by
  intro o
  rw [ht]
  exact ⟨id, fun a h => ⟨a, h, .same r⟩⟩

/-- A request that writes to one order. -/
theorem rewrites_of_modify (ht : t.orders = w.db.orders.modify k f)
    (hk : ∀ a, w.db.orders.get? k = some a → Rewrites env w k a r (f a)) :
    RowsRewritten env w r t := by
  intro o
  rw [ht, Table.get?_modify]
  by_cases hok : o = k
  · subst hok
    rw [if_pos rfl]
    exact ⟨fun h => by rw [h]; rfl, fun a h => ⟨f a, by rw [h]; rfl, hk a h⟩⟩
  · rw [if_neg hok]
    exact ⟨id, fun a h => ⟨a, h, .same r⟩⟩

/-- The same, when the row is known. -/
theorem rewrites_of_row (ht : t.orders = w.db.orders.modify k f)
    (hk : w.db.orders.get? k = some a) (h : Rewrites env w k a r (f a)) :
    RowsRewritten env w r t := by
  refine rewrites_of_modify ht fun b hb => ?_
  rw [hk] at hb
  cases hb
  exact h

theorem rewrites_admin (k : ℕ) (text : String) (note : Option String) (p : Option ℕ)
    (hr : ∀ a status, OrderStatus.ofValue? text = some status → StoreOps.RiderKnown w.db p →
      Rewrites env w k a r (StoreOps.setStatus status note p w.now a)) :
    RowsRewritten env w r (final (StoreOps.updateOrderStatus k text note p w.now) w.db) := by
  rcases updateOrderStatus_cases k text note p w.now w.db with
    ⟨b, status, hk, hst, hp, ht⟩ | ⟨-, ht⟩
  · exact rewrites_of_row (congrArg Db.orders ht) hk (hr b status hst hp)
  · exact rewrites_of_same (congrArg Db.orders ht)

theorem rewrites_pay (call : Payment.Call) :
    RowsRewritten env w (.pay call) ((call.commits env w.db).getLastD w.db) := by
  cases call with
  | create gateway u user k link txn =>
    rcases Payment.orders_razorpayCreate env gateway u user k link txn w.db with ht | ht
    · exact rewrites_of_same ht
    · exact rewrites_of_modify ht fun _ _ => .viaRazorpay _
  | verify u k roid pid sig txn =>
    by_cases hpay : ∃ order, Payment.Payable w.db u k order
    · obtain ⟨order, hpay⟩ := hpay
      have ht := Payment.orders_razorpayVerify env hpay roid pid sig txn
      refine rewrites_of_row ht (Payment.ownOrder_eq_some.1 hpay.own).1 ?_
      split_ifs with hsig
      · exact .verified u roid pid sig txn hpay hsig
      · exact .failed _
    · simp only [not_exists] at hpay
      exact rewrites_of_same
        (congrArg Db.orders (Payment.final_razorpayVerify_of_not hpay roid pid sig txn))
  | webhook body signature =>
    rcases Payment.orders_razorpayWebhook env body signature w.db with ht | ⟨k, order, _, ht⟩
    · exact rewrites_of_same ht
    · exact rewrites_of_modify ht fun _ _ => .reported _
  | process u k method upiId fail =>
    by_cases hpay : ∃ order chosen, Payment.Confirmable w.db u k method order chosen
    · obtain ⟨order, chosen, hpay⟩ := hpay
      have ht := Payment.orders_processPayment hpay upiId fail
      refine rewrites_of_row ht (Payment.ownOrder_eq_some.1 hpay.own).1 ?_
      cases fail with
      | true => exact .failed _
      | false => exact .confirmed u method upiId chosen hpay
    · simp only [not_exists] at hpay
      exact rewrites_of_same
        (congrArg Db.orders (Payment.final_processPayment_of_not hpay upiId fail))

theorem rewrites_served (env : Payment.Env) (w : World) (r : Request) :
    RowsRewritten env w r (served env w r) := by
  cases r with
  | cancel u k reason =>
    rcases OrderService.cancelOrder_cases k u reason w.now w.db with ⟨order, hk, hc, ht⟩ | ⟨-, ht⟩
    · exact rewrites_of_row (congrArg Db.orders ht) hk (.cancel u reason hc)
    · exact rewrites_of_same (congrArg Db.orders ht)
  | createReturn u data =>
    rcases OrderService.createReturn_cases u data w.now w.db with hraises | ⟨order, hret, ht⟩
    · exact rewrites_of_same (congrArg Db.orders hraises.final)
    · exact rewrites_of_row ht (Payment.ownOrder_eq_some.1 hret.own).1
        (.createReturn u data hret.delivered)
  | admin k text note p =>
    exact rewrites_admin k text note p fun a status hst hp => .admin text note p status hst hp
  | offer k p =>
    refine rewrites_admin k _ _ _ fun a status hst hp => ?_
    rw [OrderStatus.ofValue?_value] at hst
    cases hst
    exact .offer p hp
  | assign k p =>
    refine rewrites_admin k _ _ _ fun a status hst hp => ?_
    rw [OrderStatus.ofValue?_value] at hst
    cases hst
    exact .assign p hp
  | sales u k text note =>
    rcases updateSalesStatus_cases u k text note w.now w.db with
      ⟨order, status, hshop, hsold, hst, hmem, ht⟩ | ⟨-, profiles, ht⟩
    · exact rewrites_of_row (congrArg Db.orders ht) (Option.filter_eq_some_iff.1 hsold).1
        (.sales u text note status hshop hsold hst hmem)
    · have horders : (served env w (.sales u k text note)).orders = w.db.orders :=
        (congrArg Db.orders ht).trans rfl
      exact rewrites_of_same horders
  | start k =>
    rcases move_cases k [.accepted, .paymentReceived, .placed] .preparing "start picking" w.db with
      ⟨order, hk, hmem, ht⟩ | ⟨-, ht⟩
    · exact rewrites_of_row ht hk (.start hmem)
    · exact rewrites_of_same (congrArg Db.orders ht)
  | pack k =>
    rcases move_cases k [.preparing, .accepted] .packed "pack" w.db with
      ⟨order, hk, hmem, ht⟩ | ⟨-, ht⟩
    · exact rewrites_of_row ht hk (.pack hmem)
    · exact rewrites_of_same (congrArg Db.orders ht)
  | route k p =>
    rcases assign_cases k p w.db with ⟨order, hk, hknown, ht, -⟩ | ⟨-, ht⟩
    · exact rewrites_of_row ht hk (.route p hknown)
    · exact rewrites_of_same (congrArg Db.orders ht)
  | accept u user k =>
    rcases Rider.acceptOrder_cases u user k w.now w.db with hraises | ⟨order, hridden, hcase⟩
    · refine rewrites_of_same ?_
      show (final (Rider.acceptOrder u user k w.now) w.db).orders = w.db.orders
      rw [hraises.final, Rider.withPerson_orders]
    · obtain ⟨hk, hrider⟩ := Rider.riddenOrder_eq_some.1 hridden
      rcases hcase with ⟨hexpired, t, hraises, ht⟩ | ⟨hopen, _, t, hreturns, ht⟩
      · rw [← hraises.final] at ht
        exact rewrites_of_row ht hk (.expire _ hexpired)
      · rw [← hreturns.final] at ht
        exact rewrites_of_row ht hk (.accept u user hrider hopen)
  | reject u user k =>
    rcases Rider.rejectOrder_cases u user k w.db with ⟨ht, _⟩ | ⟨order, hridden, hoffered, ht⟩
    · exact rewrites_of_same ht
    · obtain ⟨hk, hrider⟩ := Rider.riddenOrder_eq_some.1 hridden
      exact rewrites_of_row ht hk (.reject u user hrider hoffered)
  | trip u user k text =>
    by_cases hrides : ∃ order, Rider.Rides w.db (Rider.riderFor w.db u user) k order
    · obtain ⟨order, hrides⟩ := hrides
      have ht := Rider.orders_updateOrderStatus hrides text
      have hk := (Rider.riddenOrder_eq_some.1 hrides.1).1
      split_ifs at ht with hbakery
      · exact rewrites_of_row ht hk (.atBakery u user text hrides)
      · split at ht
        · rename_i status hstep
          obtain ⟨hst, hmem⟩ := Option.filter_eq_some_iff.1 hstep
          exact rewrites_of_row ht hk (.trip u user text status hrides hst (by simpa using hmem))
        · exact rewrites_of_same ht
    · simp only [not_exists] at hrides
      refine rewrites_of_same ?_
      show (final (Rider.updateOrderStatus u user k text) w.db).orders = w.db.orders
      rw [(Rider.updateOrderStatus_raises hrides text).final, Rider.withPerson_orders]
  | deliver u user k =>
    by_cases hrides : ∃ order, Rider.Rides w.db (Rider.riderFor w.db u user) k order
    · obtain ⟨order, hrides⟩ := hrides
      have hk := (Rider.riddenOrder_eq_some.1 hrides.1).1
      exact rewrites_of_row (Rider.orders_markDelivered hrides w.now) hk (.deliver u user hrides)
    · simp only [not_exists] at hrides
      refine rewrites_of_same ?_
      show (final (Rider.markDelivered u user k w.now) w.db).orders = w.db.orders
      rw [(Rider.markDelivered_raises hrides w.now).final, Rider.withPerson_orders]
  | myOrders u user =>
    intro o
    have ht := Rider.get?_myOrders u user w.now w.db o
    refine ⟨fun h => by rw [h] at ht; exact ht, fun a h => ?_⟩
    rw [h, Option.map_some] at ht
    refine ⟨_, ht, ?_⟩
    split_ifs with hexpired
    · exact .expire _ hexpired.2
    · exact .same _
  | pay call => exact rewrites_pay call
  | wait n => exact rewrites_of_same rfl

/-- Everything that a request can do to the row of an order. -/
theorem rewrites_step (env : Payment.Env) (r : Request) (h : w.db.orders.get? o = some a) :
    ∃ b, (step env w r).db.orders.get? o = some b ∧ Rewrites env w o a r b :=
  (rewrites_served env w r o).2 a h

/-- No request makes an order. -/
theorem get?_step_none (env : Payment.Env) (r : Request) (h : w.db.orders.get? o = none) :
    (step env w r).db.orders.get? o = none :=
  (rewrites_served env w r o).1 h

end Steps

end Orders

end SweetCrust
