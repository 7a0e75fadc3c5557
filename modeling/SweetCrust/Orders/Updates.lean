import SweetCrust.Orders.OrderService

/-!
# The order service's `update_order_status`, with and without a rider

A request goes through when the order, the status and the rider that it names exist; else it
leaves everything as it was, also what it had written before it looked for the rider.

* `final_updateOrderStatus` — what a request that goes through leaves.
-/

namespace SweetCrust

open Tabular Session

namespace Orders

namespace OrderService

/-- The rider that a request names, if it names one, exists. -/
def RiderNamed (db : Db) (deliveryPersonId : Option ℕ) : Prop :=
  ∀ personId ∈ truthyId deliveryPersonId, (db.deliveryPersons.get? personId).isSome

instance (db : Db) (deliveryPersonId : Option ℕ) : Decidable (RiderNamed db deliveryPersonId) :=
  inferInstanceAs (Decidable (∀ personId ∈ truthyId deliveryPersonId, _))

/-- The order, the status and the rider that a request names exist. -/
structure Accepts (db : Db) (o : ℕ) (text : String) (deliveryPersonId : Option ℕ) (order : Order)
    (status : OrderStatus) : Prop where
  found : db.orders.get? o = some order
  status_eq : OrderStatus.ofValue? text = some status
  rider : RiderNamed db deliveryPersonId

/-- An order with the rider that a request names. -/
def withRider (deliveryPersonId : Option ℕ) (o : Order) : Order :=
  { o with deliveryPersonId := (truthyId deliveryPersonId).or o.deliveryPersonId }

/-- What `nameRider` writes. -/
def riderNamed (orderId : ℕ) (deliveryPersonId : Option ℕ) (db : Db) : Db :=
  match truthyId deliveryPersonId with
  | none => db
  | some personId =>
    let t := Carts.withSettings (writeOrder orderId (setRider personId) db)
    { t with tracking := upsertTracking orderId personId t.tracking }

/-- The database once an order has a new status, and perhaps a new rider. -/
def updated (orderId : ℕ) (order : Order) (status : OrderStatus) (actorId : ℕ)
    (note : Option String) (deliveryPersonId : Option ℕ) (now : ℕ) (db : Db) : Db :=
  report orderId order status actorId note
    (riderNamed orderId deliveryPersonId (writeStatus orderId order status note now db))

section Effects

variable {s : Db} {o actorId now : ℕ} {text : String} {note : Option String} {person : Option ℕ}
  {order : Order} {status : OrderStatus}

/-- Reading the settings writes at most the settings. -/
theorem withSettings_eq (s : Db) :
    Carts.withSettings s = { s with settings := (Carts.withSettings s).settings } := by
  unfold Carts.withSettings
  split <;> rfl

theorem nameRider_outcome (h : RiderNamed s person) (o : ℕ) :
    (nameRider o person s).2 = .ok ((), riderNamed o person s) := by
  unfold nameRider riderNamed
  cases hp : truthyId person with
  | none => rfl
  | some personId =>
    obtain ⟨row, hrow⟩ := Option.isSome_iff_exists.1 (h personId hp)
    show ((orRaise (s.deliveryPersons.get? personId) _ >>= _ : Service Unit) s).2 = _
    rw [hrow]
    exact (Carts.settings_returns (writeOrder o (setRider personId) s)).outcome_bind

/-- A rider that does not exist is noticed before anything is committed. -/
theorem quiet_nameRider {α : Type} (h : ¬ RiderNamed s person) (o : ℕ) (k : Unit → Service α) :
    Quiet (nameRider o person >>= k) s := by
  simp only [RiderNamed, not_forall, Bool.not_eq_true, Option.isSome_eq_false_iff,
    Option.isNone_iff_eq_none] at h
  obtain ⟨personId, hp, hrow⟩ := h
  have hrun : nameRider o person s = ([], .error (.notFound "Delivery person not found")) := by
    unfold nameRider
    rw [show truthyId person = some personId from hp]
    show (orRaise (s.deliveryPersons.get? personId) _ >>= _ : Service Unit) s = _
    rw [hrow]
    rfl
  unfold Quiet commits
  rw [bind_run_of_error (congrArg Prod.snd hrun)]
  show (nameRider o person s).1 = []
  rw [hrun]

/-- A request that names an order, a status and a rider that exist. -/
theorem final_updateOrderStatus (h : Accepts s o text person order status) (actorId : ℕ)
    (note : Option String) (now : ℕ) :
    final (updateOrderStatus o text actorId note person now) s =
      updated o order status actorId note person now s := by
  have hrider : RiderNamed (writeStatus o order status note now s) person := h.rider
  unfold updateOrderStatus
  rw [final_get_bind, h.found, final_orRaise_some_bind, h.status_eq, final_orRaise_some_bind]
  show (commits (nameRider o person >>= _ : Service (Option Order))
    (writeStatus o order status note now s)).getLastD s = _
  unfold commits
  rw [bind_run_of_ok (nameRider_outcome hrider o)]
  exact List.getLastD_concat

theorem updateOrderStatus_cases (o : ℕ) (text : String) (actorId : ℕ) (note : Option String)
    (person : Option ℕ) (now : ℕ) (s : Db) :
    (∃ order status, Accepts s o text person order status ∧
      final (updateOrderStatus o text actorId note person now) s =
        updated o order status actorId note person now s) ∨
    (∀ order status, ¬ Accepts s o text person order status) ∧
      final (updateOrderStatus o text actorId note person now) s = s := by
  cases hord : s.orders.get? o with
  | none =>
    refine Or.inr ⟨fun _ _ h => absurd h.found (by simp [hord]), ?_⟩
    unfold updateOrderStatus
    rw [final_get_bind, hord]
    rfl
  | some order =>
    cases hst : OrderStatus.ofValue? text with
    | none =>
      refine Or.inr ⟨fun _ _ h => absurd h.status_eq (by simp [hst]), ?_⟩
      unfold updateOrderStatus
      rw [final_get_bind, hord, final_orRaise_some_bind, hst]
      rfl
    | some status =>
      by_cases hrider : RiderNamed s person
      · have haccepts : Accepts s o text person order status := ⟨hord, hst, hrider⟩
        exact Or.inl ⟨order, status, haccepts, final_updateOrderStatus haccepts actorId note now⟩
      · refine Or.inr ⟨fun _ _ h => hrider h.rider, ?_⟩
        unfold updateOrderStatus
        rw [final_get_bind, hord, final_orRaise_some_bind, hst, final_orRaise_some_bind]
        show (commits (nameRider o person >>= _ : Service (Option Order))
          (writeStatus o order status note now s)).getLastD s = _
        have hrider' : ¬ RiderNamed (writeStatus o order status note now s) person := hrider
        rw [show commits (nameRider o person >>= _ : Service (Option Order)) _ = [] from
          quiet_nameRider hrider' o _]
        rfl

/-! ## The new rows, table by table -/

theorem updated_orders (s : Db) :
    (updated o order status actorId note person now s).orders =
      s.orders.modify o fun a => withRider person (setStatus status note now a) := by
  show (riderNamed o person (writeStatus o order status note now s)).orders = _
  unfold riderNamed withRider
  cases truthyId person with
  | none => rfl
  | some personId =>
    show (Carts.withSettings (writeOrder o (setRider personId) _)).orders = _
    rw [withSettings_eq]
    exact Table.modify_modify _ _ _ _

theorem updated_users (s : Db) :
    (updated o order status actorId note person now s).users =
      if status = .delivered then
        s.users.modify order.userId fun u => { u with totalSpent := u.totalSpent + order.finalAmount }
      else s.users := by
  show (riderNamed o person (writeStatus o order status note now s)).users = _
  unfold riderNamed
  cases truthyId person with
  | none => rfl
  | some personId =>
    show (Carts.withSettings _).users = _
    rw [withSettings_eq]
    rfl

theorem updated_history (s : Db) :
    (updated o order status actorId note person now s).history =
      s.history.insert ⟨o, status, note, some actorId⟩ := by
  show (riderNamed o person (writeStatus o order status note now s)).history.insert _ = _
  unfold riderNamed
  cases truthyId person with
  | none => rfl
  | some personId =>
    show (Carts.withSettings _).history.insert _ = _
    rw [withSettings_eq]
    rfl

theorem updated_payments (s : Db) :
    (updated o order status actorId note person now s).payments = s.payments := by
  show (riderNamed o person (writeStatus o order status note now s)).payments = _
  unfold riderNamed
  cases truthyId person with
  | none => rfl
  | some personId =>
    show (Carts.withSettings _).payments = _
    rw [withSettings_eq]
    rfl

end Effects

end OrderService

end Orders

end SweetCrust
