import SweetCrust.Cart.Carts
import SweetCrust.Payment.Payments

/-!
# The order service

`cancel_order` and the `update_order_status` behind it, and `create_return`.  The checkout
service runs the same code.

The places that a tracking row keeps, and the assessment of a return, are left out.
-/

namespace SweetCrust

open Tabular Session Decimal Text

namespace Orders

/-- A handler of the services that write orders. -/
abbrev Service (α : Type) : Type := Sess AppError Db α

/-- One more line in an order's internal notes: `((notes or "") + "\n" + line).strip()`. -/
def noted (line : String) (notes : Option String) : Option String :=
  some (String.ofList (strip isSpace ((notes.getD "").toList ++ '\n' :: line.toList)))

/-- A key as a program tests it: zero is no key. -/
def truthyId (k : Option ℕ) : Option ℕ := k.filter fun n => n ≠ 0

/-- The tracking rows once a rider is on the way with an order. -/
def upsertTracking (orderId personId : ℕ) (tracking : Table DeliveryTracking) :
    Table DeliveryTracking :=
  match tracking.first? fun t => t.orderId = orderId with
  | some (k, _) => tracking.modify k fun t => { t with deliveryPersonId := some personId }
  | none => tracking.insert ⟨orderId, some personId⟩

/-- Rewrite the row of an order. -/
def writeOrder (orderId : ℕ) (f : Order → Order) (db : Db) : Db :=
  { db with orders := db.orders.modify orderId f }

/-- An order with another rider. -/
def setRider (personId : ℕ) (o : Order) : Order := { o with deliveryPersonId := some personId }

namespace OrderService

/-! ## `update_order_status` -/

/-- An order in its new status. -/
def setStatus (status : OrderStatus) (note : Option String) (now : ℕ) (o : Order) : Order :=
  { o with
    status
    paymentStatus := if status = .delivered then .paid else o.paymentStatus
    deliveredAt := if status = .delivered then some now else o.deliveredAt
    cancelledAt := if status = .cancelled then some now else o.cancelledAt
    cancelReason := if status = .cancelled then note else o.cancelReason }

/-- The changes of a new status, before the rider is looked at.  A delivered order is
added to what its customer spent. -/
def writeStatus (orderId : ℕ) (order : Order) (status : OrderStatus) (note : Option String)
    (now : ℕ) (db : Db) : Db :=
  { db with
    orders := db.orders.modify orderId (setStatus status note now)
    users :=
      if status = .delivered then
        db.users.modify order.userId fun u => { u with totalSpent := u.totalSpent + order.finalAmount }
      else db.users }

/-- The rider of an order, when the request names one.  The settings that the tracking row
starts from are created when missing. -/
def nameRider (orderId : ℕ) (deliveryPersonId : Option ℕ) : Service Unit :=
  match truthyId deliveryPersonId with
  | none => pure ()
  | some personId => do
    let db ← get
    let _ ← orRaise (db.deliveryPersons.get? personId) (.notFound "Delivery person not found")
    modify (writeOrder orderId (setRider personId))
    let _ ← Carts.settings
    modify fun db => { db with tracking := upsertTracking orderId personId db.tracking }

/-- A status as the customer reads it. -/
def statusTitle (status : OrderStatus) : String :=
  String.ofList (title (replaceChar '_' ' ' status.value.toList))

/-- The history row and the customer's notice of a new status. -/
def report (orderId : ℕ) (order : Order) (status : OrderStatus) (actorId : ℕ)
    (note : Option String) (db : Db) : Db :=
  { db with
    history := db.history.insert ⟨orderId, status, note, some actorId⟩
    notifications := db.notifications.insert
      { userId := order.userId
        type := .order
        title := "Order " ++ statusTitle status
        body := "Your order " ++ order.orderNumber ++ " is now " ++ status.value
        data := some { orderId := some orderId, status := some status } } }

/-- `update_order_status`: the order's row as it is then. -/
def updateOrderStatus (orderId : ℕ) (status : String) (actorId : ℕ) (note : Option String)
    (deliveryPersonId : Option ℕ) (now : ℕ) : Service (Option Order) := do
  let db ← get
  let order ← orRaise (db.orders.get? orderId) (.notFound "Order not found")
  let newStatus ← orRaise (OrderStatus.ofValue? status) (.badRequest ("Invalid status: " ++ status))
  modify (writeStatus orderId order newStatus note now)
  nameRider orderId deliveryPersonId
  modify (report orderId order newStatus actorId note)
  commit
  let db ← get
  return db.orders.get? orderId

/-! ## `cancel_order` -/

/-- What `order_detail` answers, as far as its callers read it. -/
structure Detail where
  order : Order
  items : List (ℕ × OrderItem)

/-- `order_detail` for a customer. -/
def orderDetail (orderId userId : ℕ) : Service Detail := do
  let db ← get
  let order ← orRaise (db.orders.get? orderId) (.notFound "Order not found")
  raiseIf (order.userId ≠ userId) (.forbidden "Not your order")
  return ⟨order, db.orderItems.select fun i => i.orderId = orderId⟩

/-- A status in which an order can no longer be cancelled. -/
def Underway (status : OrderStatus) : Prop :=
  status.value ∈ ["delivered", "cancelled", "out_for_delivery"]

instance (status : OrderStatus) : Decidable (Underway status) :=
  inferInstanceAs (Decidable (_ ∈ _))

inductive CancelReply
  | message (text : String)
  | order (o : Option Order)

/-- `cancel_order`. -/
def cancelOrder (orderId userId : ℕ) (reason : String) (now : ℕ) : Service CancelReply := do
  let detail ← orderDetail orderId userId
  if Underway detail.order.status then
    return .message "Cannot cancel at this stage"
  else
    let order ← updateOrderStatus orderId "cancelled" userId (some reason) none now
    return .order order

/-! ## `create_return` -/

/-- The fields of a return request that the handler stores. -/
structure ReturnIn where
  orderId : ℕ
  affectedItemIds : List ℕ
  issueType : String
  solution : String
  description : Option String

/-- Twenty-four hours. -/
def returnWindow : ℕ := 86400

/-- The order was delivered longer ago than it can be returned. -/
def ReturnExpired (now : ℕ) (o : Order) : Prop := ∃ time ∈ o.deliveredAt, time + returnWindow < now

instance (now : ℕ) (o : Order) : Decidable (ReturnExpired now o) :=
  inferInstanceAs (Decidable (∃ time ∈ o.deliveredAt, time + returnWindow < now))

/-- The affected items' prices, or the whole order when no item of it is named. -/
def refundAmount (db : Db) (order : Order) (data : ReturnIn) : ℚ :=
  let affected :=
    (db.orderItems.select fun i => i.orderId = data.orderId).filter fun r =>
      r.1 ∈ data.affectedItemIds
  if affected = [] then order.finalAmount else (affected.map fun r => r.2.totalPrice).sum

def returnRequest (db : Db) (userId : ℕ) (order : Order) (data : ReturnIn) (now : ℕ) :
    ReturnRequest where
  orderId := data.orderId
  userId := userId
  issueType := data.issueType
  solution := data.solution
  description := data.description
  affectedItemIds := some data.affectedItemIds
  refundAmount := refundAmount db order data
  status := "ai_validated"
  deadlineAt := now + returnWindow

/-- The first commit of `create_return`. -/
def openReturn (userId : ℕ) (order : Order) (data : ReturnIn) (now : ℕ) (db : Db) : Db :=
  { db with
    returns := db.returns.insert (returnRequest db userId order data now)
    orders := db.orders.modify data.orderId fun o => { o with status := .returnRequested } }

/-- The second: the request is up for review, and the customer is told. -/
def reviewReturn (userId returnId : ℕ) (db : Db) : Db :=
  { db with
    returns := db.returns.modify returnId fun r => { r with status := "admin_review" }
    notifications := db.notifications.insert
      { userId := userId
        type := .return
        title := "Return submitted"
        body := "We are reviewing your request"
        data := some { returnId := some returnId } } }

/-- The third: the first admin is told. -/
def notifyReturn (adminId returnId : ℕ) (order : Order) (db : Db) : Db :=
  { db with
    notifications := db.notifications.insert
      { userId := adminId
        type := .return
        title := "New return request"
        body := "Order " ++ order.orderNumber
        data := some { returnId := some returnId } } }

/-- `create_return`: the key of the request. -/
def createReturn (userId : ℕ) (data : ReturnIn) (now : ℕ) : Service ℕ := do
  let db ← get
  let order ← orRaise (Payment.ownOrder db userId data.orderId) (.notFound "Order not found")
  raiseIf (order.status ≠ .delivered) (.badRequest "Only delivered orders can be returned")
  raiseIf (ReturnExpired now order) (.badRequest "Return window (24 hours) has expired")
  let returnId := db.returns.next
  modify (openReturn userId order data now)
  commit
  modify (reviewReturn userId returnId)
  commit
  match db.users.first? fun u => u.role = .admin with
  | some (adminId, _) =>
    modify (notifyReturn adminId returnId order)
    commit
    return returnId
  | none => return returnId

/-! ## What the handlers do to the orders -/

section Effects

variable {s : Db} {o u now : ℕ} {reason : String} {order : Order} {data : ReturnIn}

/-- The database once an order has a new status, and no rider was named. -/
def statusUpdated (orderId : ℕ) (order : Order) (status : OrderStatus) (actorId : ℕ)
    (note : Option String) (now : ℕ) (db : Db) : Db :=
  report orderId order status actorId note (writeStatus orderId order status note now db)

theorem updateOrderStatus_returns {text : String} {status : OrderStatus}
    (h : s.orders.get? o = some order) (hst : OrderStatus.ofValue? text = some status)
    (actorId : ℕ) (note : Option String) (now : ℕ) :
    Returns (updateOrderStatus o text actorId note none now) s
      ((statusUpdated o order status actorId note now s).orders.get? o)
      (statusUpdated o order status actorId note now s) := by
  unfold updateOrderStatus
  exact Returns.get_bind (Returns.orRaise_bind h (Returns.orRaise_bind hst ⟨rfl, rfl⟩))

theorem orderDetail_returns (h : s.orders.get? o = some order) (hown : order.userId = u) :
    Returns (orderDetail o u) s ⟨order, s.orderItems.select fun i => i.orderId = o⟩ s :=
  Returns.get_bind (Returns.orRaise_bind h
    (Returns.raiseIf_bind (not_not.2 hown) (returns_pure _ s)))

theorem orderDetail_raises (h : ∀ order, s.orders.get? o = some order → order.userId ≠ u) :
    Raises (orderDetail o u) s s := by
  unfold orderDetail
  cases hord : s.orders.get? o with
  | none => exact Raises.get_bind (raises_orRaise_bind hord _ _ s)
  | some order =>
    exact Raises.get_bind (Raises.orRaise_bind hord
      (raises_raiseIf_bind (h order hord) _ _ s))

/-- The order is the customer's, and can be cancelled. -/
def Cancels (u : ℕ) (order : Order) : Prop := order.userId = u ∧ ¬ Underway order.status

/-- The customer's own order is cancelled. -/
theorem final_cancelOrder (h : s.orders.get? o = some order) (hc : Cancels u order)
    (reason : String) (now : ℕ) :
    final (cancelOrder o u reason now) s =
      statusUpdated o order .cancelled u (some reason) now s := by
  unfold cancelOrder
  rw [(orderDetail_returns h hc.1).final_bind]
  simp only [hc.2, if_false]
  have hst : OrderStatus.ofValue? "cancelled" = some .cancelled := by decide
  rw [(updateOrderStatus_returns h hst u (some reason) now).final_bind]
  rfl

/-- Another's order, and one that is underway, is left alone. -/
theorem cancelOrder_cases (o u : ℕ) (reason : String) (now : ℕ) (s : Db) :
    (∃ order, s.orders.get? o = some order ∧ Cancels u order ∧
      final (cancelOrder o u reason now) s =
        statusUpdated o order .cancelled u (some reason) now s) ∨
    (∀ order, s.orders.get? o = some order → ¬ Cancels u order) ∧
      final (cancelOrder o u reason now) s = s := by
  by_cases hown : ∃ order, s.orders.get? o = some order ∧ order.userId = u
  · obtain ⟨order, hord, hown⟩ := hown
    by_cases hunder : Underway order.status
    · refine Or.inr ⟨fun other hother hc => ?_, ?_⟩
      · rw [hord] at hother
        cases hother
        exact hc.2 hunder
      · unfold cancelOrder
        rw [(orderDetail_returns hord hown).final_bind]
        simp only [hunder, if_true]
        rfl
    · exact Or.inl ⟨order, hord, ⟨hown, hunder⟩, final_cancelOrder hord ⟨hown, hunder⟩ reason now⟩
  · have hother : ∀ order, s.orders.get? o = some order → order.userId ≠ u :=
      fun order hord hu => hown ⟨order, hord, hu⟩
    exact Or.inr ⟨fun order hord hc => hother order hord hc.1,
      ((orderDetail_raises hother).bind _).final⟩

/-- A delivered order of the customer, that can still be returned. -/
structure Returnable (s : Db) (u : ℕ) (data : ReturnIn) (now : ℕ) (order : Order) : Prop where
  own : Payment.ownOrder s u data.orderId = some order
  delivered : order.status = .delivered
  inTime : ¬ ReturnExpired now order

/-- A return request that is accepted marks the order. -/
theorem orders_createReturn (h : Returnable s u data now order) :
    (final (createReturn u data now) s).orders =
      s.orders.modify data.orderId fun o => { o with status := .returnRequested } := by
  unfold createReturn
  rw [final_get_bind, h.own, final_orRaise_some_bind, final_raiseIf_bind,
    if_neg (not_not.2 h.delivered), final_raiseIf_bind, if_neg h.inTime]
  cases hadmin : s.users.first? fun u => u.role = .admin <;> rfl

theorem createReturn_raises (h : ∀ order, ¬ Returnable s u data now order) :
    Raises (createReturn u data now) s s := by
  unfold createReturn
  cases hown : Payment.ownOrder s u data.orderId with
  | none => exact Raises.get_bind (raises_orRaise_bind hown _ _ s)
  | some order =>
    refine Raises.get_bind (Raises.orRaise_bind hown ?_)
    by_cases hdelivered : order.status = .delivered
    · refine Raises.raiseIf_bind (not_not.2 hdelivered) (raises_raiseIf_bind ?_ _ _ s)
      by_contra hlate
      exact h order ⟨hown, hdelivered, hlate⟩
    · exact raises_raiseIf_bind hdelivered _ _ s

/-- A return request is refused, or it marks one delivered order. -/
theorem createReturn_cases (u : ℕ) (data : ReturnIn) (now : ℕ) (s : Db) :
    Raises (createReturn u data now) s s ∨
      ∃ order, Returnable s u data now order ∧
        (final (createReturn u data now) s).orders =
          s.orders.modify data.orderId fun o => { o with status := .returnRequested } := by
  by_cases h : ∃ order, Returnable s u data now order
  · obtain ⟨order, h⟩ := h
    exact Or.inr ⟨order, h, orders_createReturn h⟩
  · exact Or.inl (createReturn_raises fun order hret => h ⟨order, hret⟩)

end Effects

end OrderService

end Orders

end SweetCrust
