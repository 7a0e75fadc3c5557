import SweetCrust.Orders.OrderService
import SweetCrust.Sell.Shop

/-!
# Order status in the bakery and in the shop

The store-ops service moves an order for the admin (`update_order_status`, and the two
ways of naming a rider, `offer_delivery` and `assign_delivery`) and for the shop that sold
it (`update_sales_status`); the picking service moves it through the kitchen, and the
routing service names a rider too.

Each handler has a lemma that says when it goes through and what it leaves in the
database, and one that says that it is refused otherwise.
-/

namespace SweetCrust

open Tabular Session Text

namespace Orders

namespace StoreOps

/-! ## The admin -/

/-- `OFFER_TTL_SEC`. -/
def offerTtlSec : ℕ := 45

/-- An order as the admin leaves it. -/
def setStatus (status : OrderStatus) (note : Option String) (deliveryPersonId : Option ℕ)
    (now : ℕ) (o : Order) : Order :=
  { o with
    status
    deliveryPersonId := deliveryPersonId.or o.deliveryPersonId
    offerExpiresAt :=
      if status = .deliveryAssigned then none
      else if status = .deliveryOffered then some (now + offerTtlSec)
      else o.offerExpiresAt
    internalNotes :=
      match truthy note with
      | some line => noted line o.internalNotes
      | none => o.internalNotes
    deliveredAt := if status = .delivered then some now else o.deliveredAt
    cancelledAt := if status = .cancelled then some now else o.cancelledAt
    cancelReason := if status = .cancelled then note else o.cancelReason }

/-- The rider that a tracking row is kept for: the one named, and on an assignment or an
offer the one of the order. -/
def trackedRider (status : OrderStatus) (deliveryPersonId : Option ℕ) (o : Order) : Option ℕ :=
  deliveryPersonId.or
    (if status = .deliveryAssigned ∨ status = .deliveryOffered then truthyId o.deliveryPersonId
    else none)

/-- What `update_order_status` commits. -/
def statusUpdated (orderId : ℕ) (order : Order) (status : OrderStatus) (note : Option String)
    (deliveryPersonId : Option ℕ) (now : ℕ) (db : Db) : Db :=
  { db with
    orders := db.orders.modify orderId (setStatus status note deliveryPersonId now)
    tracking :=
      match trackedRider status deliveryPersonId order with
      | some personId => upsertTracking orderId personId db.tracking
      | none => db.tracking }

/-- The rider that a request names, if it names one, exists. -/
def RiderKnown (db : Db) (deliveryPersonId : Option ℕ) : Prop :=
  ∀ personId ∈ deliveryPersonId, (db.deliveryPersons.get? personId).isSome

instance (db : Db) (deliveryPersonId : Option ℕ) : Decidable (RiderKnown db deliveryPersonId) :=
  inferInstanceAs (Decidable (∀ personId ∈ deliveryPersonId, _))

/-- `update_order_status`: the order's row as it is then. -/
def updateOrderStatus (orderId : ℕ) (status : String) (note : Option String)
    (deliveryPersonId : Option ℕ) (now : ℕ) : Service (Option Order) := do
  let db ← get
  let order ← orRaise (db.orders.get? orderId) (.notFound "Order not found")
  let st ← orRaise (OrderStatus.ofValue? status) (.badRequest ("Invalid status: " ++ status))
  raiseIf (¬ RiderKnown db deliveryPersonId) (.notFound "Delivery person not found")
  modify (statusUpdated orderId order st note deliveryPersonId now)
  commit
  let db ← get
  return db.orders.get? orderId

/-- `offer_delivery`: soft offer with 45s accept window. -/
def offerDelivery (orderId deliveryPersonId now : ℕ) : Service (Option Order) :=
  updateOrderStatus orderId OrderStatus.deliveryOffered.value (some "Offered to rider")
    (some deliveryPersonId) now

/-- `assign_delivery`: forced assign; rider must run it. -/
def assignDelivery (orderId deliveryPersonId now : ℕ) : Service (Option Order) :=
  updateOrderStatus orderId OrderStatus.deliveryAssigned.value (some "Assigned to rider")
    (some deliveryPersonId) now

/-! ## The shop -/

/-- `_SHOP_STATUSES`. -/
def shopStatuses : List OrderStatus :=
  [.placed, .accepted, .rejected, .preparing, .packed, .outForDelivery, .delivered, .cancelled]

/-- An order as the shop leaves it. -/
def setSalesStatus (status : OrderStatus) (note : Option String) (now : ℕ) (o : Order) : Order :=
  { o with
    status
    deliveredAt := if status = .delivered then some now else o.deliveredAt
    cancelledAt := if status = .cancelled then some now else o.cancelledAt
    cancelReason := if status = .cancelled then note else o.cancelReason }

/-- What `update_sales_status` commits. -/
def salesUpdated (userId orderId : ℕ) (order : Order) (status : OrderStatus)
    (note : Option String) (now : ℕ) (db : Db) : Db :=
  { db with
    orders := db.orders.modify orderId (setSalesStatus status note now)
    history := db.history.insert
      ⟨orderId, status, some ((truthy note).getD ("Shop updated to " ++ status.value)), some userId⟩
    notifications := db.notifications.insert
      { userId := order.userId
        type := .order
        title := "Order " ++ order.orderNumber
        body := "Status updated to " ++ String.ofList (replaceChar '_' ' ' status.value.toList)
        data := some { orderId := some orderId, status := some status } } }

/-- The order, if the shop sold it. -/
def soldOrder (db : Db) (userId orderId : ℕ) : Option Order :=
  (db.orders.get? orderId).filter fun o => o.shopUserId = some userId

/-- `update_sales_status`: the order's row as it is then. -/
def updateSalesStatus (userId orderId : ℕ) (status : String) (note : Option String) (now : ℕ) :
    Service (Option Order) := do
  let _ ← Sell.sellingShop userId now
  let db ← get
  let order ← orRaise (soldOrder db userId orderId) (.notFound "Order not found")
  let newStatus ← orRaise (OrderStatus.ofValue? status) (.badRequest ("Invalid status: " ++ status))
  raiseIf (newStatus ∉ shopStatuses) (.badRequest ("Shop cannot set status " ++ status))
  modify (salesUpdated userId orderId order newStatus note now)
  commit
  let db ← get
  return db.orders.get? orderId

end StoreOps

/-! ## The kitchen -/

namespace Picking

/-- Move an order from one of the statuses given to another. -/
def move (orderId : ℕ) (sources : List OrderStatus) (target : OrderStatus) (verb : String) :
    Service (Option Order) := do
  let db ← get
  let order ← orRaise (db.orders.get? orderId) (.notFound "Order not found")
  raiseIf (order.status ∉ sources)
    (.badRequest ("Cannot " ++ verb ++ " from status " ++ order.status.value))
  modify (writeOrder orderId fun o => { o with status := target })
  commit
  let db ← get
  return db.orders.get? orderId

/-- `start`. -/
def start (orderId : ℕ) : Service (Option Order) :=
  move orderId [.accepted, .paymentReceived, .placed] .preparing "start picking"

/-- `pack`. -/
def pack (orderId : ℕ) : Service (Option Order) :=
  move orderId [.preparing, .accepted] .packed "pack"

end Picking

/-! ## The route -/

namespace Routing

/-- An order that a rider runs. -/
def assigned (personId : ℕ) (o : Order) : Order :=
  { o with deliveryPersonId := some personId, status := .deliveryAssigned }

/-- `assign`: the order and its tracking row are committed one after the other. -/
def assign (orderId deliveryPersonId : ℕ) : Service (Option Order) := do
  let db ← get
  let _ ← orRaise (db.orders.get? orderId) (.notFound "Order not found")
  let _ ← orRaise (db.deliveryPersons.get? deliveryPersonId) (.notFound "Delivery person not found")
  modify (writeOrder orderId (assigned deliveryPersonId))
  commit
  modify fun db => { db with tracking := upsertTracking orderId deliveryPersonId db.tracking }
  commit
  let db ← get
  return db.orders.get? orderId

end Routing

/-! ## What the handlers do -/

section Effects

variable {s : Db} {o u p now : ℕ} {text : String} {note : Option String} {person : Option ℕ}
  {order : Order} {status : OrderStatus}

/-- The admin's request names an order, a status and a rider that exist. -/
theorem final_updateOrderStatus (h : s.orders.get? o = some order)
    (hst : OrderStatus.ofValue? text = some status) (hp : StoreOps.RiderKnown s person)
    (note : Option String) (now : ℕ) :
    final (StoreOps.updateOrderStatus o text note person now) s =
      StoreOps.statusUpdated o order status note person now s := by
  unfold StoreOps.updateOrderStatus
  rw [final_get_bind, h, final_orRaise_some_bind, hst, final_orRaise_some_bind,
    final_raiseIf_bind, if_neg (not_not.2 hp)]
  rfl

/-- Otherwise it does nothing. -/
theorem updateOrderStatus_cases (o : ℕ) (text : String) (note : Option String) (person : Option ℕ)
    (now : ℕ) (s : Db) :
    (∃ order status, s.orders.get? o = some order ∧ OrderStatus.ofValue? text = some status ∧
      StoreOps.RiderKnown s person ∧
      final (StoreOps.updateOrderStatus o text note person now) s =
        StoreOps.statusUpdated o order status note person now s) ∨
    (∀ order status, s.orders.get? o = some order → OrderStatus.ofValue? text = some status →
        ¬ StoreOps.RiderKnown s person) ∧
      final (StoreOps.updateOrderStatus o text note person now) s = s := by
  cases hord : s.orders.get? o with
  | none =>
    refine Or.inr ⟨fun _ _ h => absurd h (by simp), ?_⟩
    unfold StoreOps.updateOrderStatus
    rw [final_get_bind, hord]
    rfl
  | some order =>
    cases hst : OrderStatus.ofValue? text with
    | none =>
      refine Or.inr ⟨fun _ _ _ h => absurd h (by simp), ?_⟩
      unfold StoreOps.updateOrderStatus
      rw [final_get_bind, hord, final_orRaise_some_bind, hst]
      rfl
    | some status =>
      by_cases hp : StoreOps.RiderKnown s person
      · exact Or.inl ⟨order, status, rfl, rfl, hp, final_updateOrderStatus hord hst hp note now⟩
      · refine Or.inr ⟨fun _ _ _ _ => hp, ?_⟩
        unfold StoreOps.updateOrderStatus
        rw [final_get_bind, hord, final_orRaise_some_bind, hst, final_orRaise_some_bind,
          final_raiseIf_bind, if_pos hp]

/-- A shop that may sell moves an order it sold. -/
theorem final_updateSalesStatus {i : ℕ} {profile : RetailerProfile}
    (hshop : Sell.MaySell s u now i profile) (h : StoreOps.soldOrder s u o = some order)
    (hst : OrderStatus.ofValue? text = some status) (hmem : status ∈ StoreOps.shopStatuses)
    (note : Option String) :
    final (StoreOps.updateSalesStatus u o text note now) s =
      StoreOps.salesUpdated u o order status note now s := by
  unfold StoreOps.updateSalesStatus
  rw [(Sell.sellingShop_returns hshop).final_bind, final_get_bind, h, final_orRaise_some_bind, hst,
    final_orRaise_some_bind, final_raiseIf_bind, if_neg (not_not.2 hmem)]
  rfl

/-- Another request of a shop marks at most the shop as expired. -/
theorem updateSalesStatus_cases (u o : ℕ) (text : String) (note : Option String) (now : ℕ)
    (s : Db) :
    (∃ order status, (∃ i profile, Sell.MaySell s u now i profile) ∧
      StoreOps.soldOrder s u o = some order ∧ OrderStatus.ofValue? text = some status ∧
      status ∈ StoreOps.shopStatuses ∧
      final (StoreOps.updateSalesStatus u o text note now) s =
        StoreOps.salesUpdated u o order status note now s) ∨
    (∀ order status, (∃ i profile, Sell.MaySell s u now i profile) →
        StoreOps.soldOrder s u o = some order → OrderStatus.ofValue? text = some status →
        status ∉ StoreOps.shopStatuses) ∧
      ∃ profiles, final (StoreOps.updateSalesStatus u o text note now) s =
        { s with profiles := profiles } := by
  by_cases hshop : ∃ i profile, Sell.MaySell s u now i profile
  · obtain ⟨i, profile, hmay⟩ := hshop
    cases hord : StoreOps.soldOrder s u o with
    | none =>
      refine Or.inr ⟨fun _ _ _ h => absurd h (by simp), s.profiles, ?_⟩
      unfold StoreOps.updateSalesStatus
      rw [(Sell.sellingShop_returns hmay).final_bind, final_get_bind, hord]
      rfl
    | some order =>
      cases hst : OrderStatus.ofValue? text with
      | none =>
        refine Or.inr ⟨fun _ _ _ _ h => absurd h (by simp), s.profiles, ?_⟩
        unfold StoreOps.updateSalesStatus
        rw [(Sell.sellingShop_returns hmay).final_bind, final_get_bind, hord,
          final_orRaise_some_bind, hst]
        rfl
      | some status =>
        by_cases hmem : status ∈ StoreOps.shopStatuses
        · exact Or.inl ⟨order, status, ⟨i, profile, hmay⟩, rfl, rfl, hmem,
            final_updateSalesStatus hmay hord hst hmem note⟩
        · refine Or.inr ⟨fun _ _ _ _ h => Option.some.inj h ▸ hmem, s.profiles, ?_⟩
          unfold StoreOps.updateSalesStatus
          rw [(Sell.sellingShop_returns hmay).final_bind, final_get_bind, hord,
            final_orRaise_some_bind, hst, final_orRaise_some_bind, final_raiseIf_bind, if_pos hmem]
  · have hno : ∀ i profile, ¬ Sell.MaySell s u now i profile := by simpa using hshop
    obtain ⟨t, hraises, profiles, rfl⟩ := Sell.sellingShop_raises hno
    exact Or.inr ⟨fun _ _ h => absurd h hshop, profiles, (hraises.bind _).final⟩

/-- The kitchen moves an order that is in one of the statuses given. -/
theorem orders_move {sources : List OrderStatus} (h : s.orders.get? o = some order)
    (hfrom : order.status ∈ sources) (target : OrderStatus) (verb : String) :
    (final (Picking.move o sources target verb) s).orders =
      s.orders.modify o fun o => { o with status := target } := by
  unfold Picking.move
  rw [final_get_bind, h, final_orRaise_some_bind, final_raiseIf_bind, if_neg (not_not.2 hfrom)]
  rfl

theorem move_cases (o : ℕ) (sources : List OrderStatus) (target : OrderStatus) (verb : String)
    (s : Db) :
    (∃ order, s.orders.get? o = some order ∧ order.status ∈ sources ∧
      (final (Picking.move o sources target verb) s).orders =
        s.orders.modify o fun o => { o with status := target }) ∨
    (∀ order, s.orders.get? o = some order → order.status ∉ sources) ∧
      final (Picking.move o sources target verb) s = s := by
  cases hord : s.orders.get? o with
  | none =>
    refine Or.inr ⟨fun _ h => absurd h (by simp), ?_⟩
    unfold Picking.move
    rw [final_get_bind, hord]
    rfl
  | some order =>
    by_cases hfrom : order.status ∈ sources
    · exact Or.inl ⟨order, rfl, hfrom, orders_move hord hfrom target verb⟩
    · refine Or.inr ⟨fun _ h => Option.some.inj h ▸ hfrom, ?_⟩
      unfold Picking.move
      rw [final_get_bind, hord, final_orRaise_some_bind, final_raiseIf_bind, if_pos hfrom]

/-- The route names a rider that exists. -/
theorem orders_assign (h : s.orders.get? o = some order)
    (hp : (s.deliveryPersons.get? p).isSome) :
    (final (Routing.assign o p) s).orders = s.orders.modify o (Routing.assigned p) := by
  obtain ⟨person, hperson⟩ := Option.isSome_iff_exists.1 hp
  unfold Routing.assign
  rw [final_get_bind, h, final_orRaise_some_bind, hperson, final_orRaise_some_bind]
  rfl

theorem tracking_assign (h : s.orders.get? o = some order)
    (hp : (s.deliveryPersons.get? p).isSome) :
    (final (Routing.assign o p) s).tracking = upsertTracking o p s.tracking := by
  obtain ⟨person, hperson⟩ := Option.isSome_iff_exists.1 hp
  unfold Routing.assign
  rw [final_get_bind, h, final_orRaise_some_bind, hperson, final_orRaise_some_bind]
  rfl

theorem assign_cases (o p : ℕ) (s : Db) :
    (∃ order, s.orders.get? o = some order ∧ (s.deliveryPersons.get? p).isSome ∧
      (final (Routing.assign o p) s).orders = s.orders.modify o (Routing.assigned p) ∧
      (final (Routing.assign o p) s).tracking = upsertTracking o p s.tracking) ∨
    (∀ order, s.orders.get? o = some order → ¬ (s.deliveryPersons.get? p).isSome) ∧
      final (Routing.assign o p) s = s := by
  cases hord : s.orders.get? o with
  | none =>
    refine Or.inr ⟨fun _ h => absurd h (by simp), ?_⟩
    unfold Routing.assign
    rw [final_get_bind, hord]
    rfl
  | some order =>
    cases hperson : s.deliveryPersons.get? p with
    | none =>
      refine Or.inr ⟨fun _ _ => by simp, ?_⟩
      unfold Routing.assign
      rw [final_get_bind, hord, final_orRaise_some_bind, hperson]
      rfl
    | some person =>
      have hp : (s.deliveryPersons.get? p).isSome := by simp [hperson]
      exact Or.inl ⟨order, rfl, rfl, orders_assign hord hp, tracking_assign hord hp⟩

end Effects

end Orders

end SweetCrust
