import SweetCrust.Orders.OrderService

/-!
# The rider

A rider's calls: `my_orders`, `accept_order`, `reject_order`, `update_order_status` and
`mark_delivered`.  A delivery user without a rider row is linked to the one with the same
phone number, or gets a new one.

An offer that ran out is taken back when somebody looks at it: `_clear_expired_offer`.
-/

namespace SweetCrust

open Tabular Session Decimal Text

namespace Orders

namespace Rider

/-! ## The rider of a user -/

/-- `(user.name or "Rider").strip() or "Rider"`. -/
def riderName (name : Option String) : String :=
  (truthy (some (String.ofList (strip isSpace ((truthy name).getD "Rider").toList)))).getD "Rider"

/-- The rider row that is made for a user without one. -/
def newPerson (userId : ℕ) (user : User) : DeliveryPerson where
  userId := some userId
  name := riderName user.name
  phone := user.phone
  vehicleNumber := "TBD"
  isAvailable := true

/-- The rider row of a user, and else the one with the user's phone number. -/
def personOf (db : Db) (userId : ℕ) : Option (ℕ × DeliveryPerson) :=
  db.deliveryPersons.first? fun p => p.userId = some userId

def personWithPhone (db : Db) (phone : String) : Option (ℕ × DeliveryPerson) :=
  db.deliveryPersons.first? fun p => p.phone = phone

/-- The database with a rider row for the user in it. -/
def withPerson (userId : ℕ) (user : User) (db : Db) : Db :=
  match personOf db userId, personWithPhone db user.phone with
  | some _, _ => db
  | none, some (k, _) =>
    { db with
      deliveryPersons := db.deliveryPersons.modify k fun p => { p with userId := some userId } }
  | none, none => { db with deliveryPersons := db.deliveryPersons.insert (newPerson userId user) }

/-- `_person_for_user`: the key of the user's rider row. -/
def personForUser (userId : ℕ) (user : User) : Service ℕ := do
  let db ← get
  match personOf db userId, personWithPhone db user.phone with
  | some (k, _), _ => return k
  | none, some (k, _) =>
    modify (withPerson userId user)
    commit
    return k
  | none, none =>
    modify (withPerson userId user)
    commit
    return db.deliveryPersons.next

/-- The order, if it names the rider. -/
def riddenOrder (db : Db) (personId orderId : ℕ) : Option Order :=
  (db.orders.get? orderId).filter fun o => o.deliveryPersonId = some personId

/-! ## Offers -/

/-- An offer that is open at a time. -/
def OfferOpen (now : ℕ) (o : Order) : Prop :=
  o.status = .deliveryOffered ∧ ∃ exp ∈ o.offerExpiresAt, now < exp

instance (now : ℕ) (o : Order) : Decidable (OfferOpen now o) :=
  inferInstanceAs (Decidable (_ ∧ ∃ exp ∈ o.offerExpiresAt, now < exp))

/-- An offer that has run out. -/
def OfferExpired (now : ℕ) (o : Order) : Prop := o.status = .deliveryOffered ∧ ¬ OfferOpen now o

instance (now : ℕ) (o : Order) : Decidable (OfferExpired now o) := inferInstanceAs (Decidable (_ ∧ _))

/-- An order that waits for a rider again. -/
def withdrawn (line : String) (o : Order) : Order :=
  { o with
    status := .packed
    deliveryPersonId := none
    offerExpiresAt := none
    internalNotes := noted line o.internalNotes }

/-- `_clear_expired_offer`: whether the offer was taken back. -/
def clearExpiredOffer (orderId : ℕ) (order : Order) (now : ℕ) : Service Bool :=
  if OfferExpired now order then do
    modify (writeOrder orderId (withdrawn "Offer expired"))
    commit
    return true
  else return false

/-- The rider's orders, the newest fifty. -/
def newestOrders (db : Db) (personId : ℕ) : List ℕ :=
  (((db.orders.select fun o => o.deliveryPersonId = some personId).insertionSort
    fun a b => b.2.createdAt ≤ a.2.createdAt).take 50).map Prod.fst

/-- Take back the offers that ran out, and keep the other orders. -/
def clearExpired (now : ℕ) : List ℕ → Service (List ℕ)
  | [] => return []
  | orderId :: rest => do
    let db ← get
    match db.orders.get? orderId with
    | none => clearExpired now rest
    | some order =>
      if ← clearExpiredOffer orderId order now then clearExpired now rest
      else
        let shown ← clearExpired now rest
        return orderId :: shown

/-- `my_orders`: the keys of the orders shown. -/
def myOrders (userId : ℕ) (user : User) (now : ℕ) : Service (List ℕ) := do
  let personId ← personForUser userId user
  let db ← get
  clearExpired now (newestOrders db personId)

/-- An order whose offer was accepted. -/
def accepted (o : Order) : Order :=
  { o with
    status := .deliveryAssigned
    offerExpiresAt := none
    internalNotes := noted "Accepted by rider" o.internalNotes }

/-- `accept_order`: the order's row as it is then. -/
def acceptOrder (userId : ℕ) (user : User) (orderId now : ℕ) : Service (Option Order) := do
  let personId ← personForUser userId user
  let db ← get
  let order ← orRaise (riddenOrder db personId orderId) (.forbidden "Order not offered to you")
  if ← clearExpiredOffer orderId order now then raise (.badRequest "Offer expired")
  else
    let db ← get
    let _ ← orRaise ((db.orders.get? orderId).filter fun o => o.status = .deliveryOffered)
      (.badRequest "Order is not an open offer")
    modify (writeOrder orderId accepted)
    commit
    let db ← get
    return db.orders.get? orderId

/-- `reject_order`. -/
def rejectOrder (userId : ℕ) (user : User) (orderId : ℕ) : Service Unit := do
  let personId ← personForUser userId user
  let db ← get
  let order ← orRaise (riddenOrder db personId orderId) (.forbidden "Order not offered to you")
  raiseIf (order.status ≠ .deliveryOffered) (.badRequest "Only open offers can be rejected")
  modify (writeOrder orderId (withdrawn "Rejected by rider"))
  commit

/-! ## The trip -/

/-- `RIDER_STATUS_STEPS`. -/
def riderStatusSteps : List String := ["picked_up", "out_for_delivery", "near_location"]

/-- The step that a request names: `str(status or "").strip().lower()`. -/
def stepKey (status : String) : String := String.ofList (lower (strip isSpace status.toList))

/-- An order whose rider has reached the bakery. -/
def atBakery (o : Order) : Order :=
  { o with internalNotes := noted "Reached bakery" o.internalNotes }

/-- `update_order_status`: the order's row as it is then. -/
def updateOrderStatus (userId : ℕ) (user : User) (orderId : ℕ) (status : String) :
    Service (Option Order) := do
  let personId ← personForUser userId user
  let db ← get
  let order ← orRaise (riddenOrder db personId orderId) (.forbidden "Order not assigned to you")
  raiseIf (order.status = .deliveryOffered)
    (.badRequest "Accept the offer before updating trip status")
  if stepKey status = "reached_bakery" then
    modify (writeOrder orderId atBakery)
    commit
    let db ← get
    return db.orders.get? orderId
  else
    raiseIf (stepKey status ∉ riderStatusSteps)
      (.badRequest ("Invalid status. Allowed: reached_bakery, " ++ ", ".intercalate riderStatusSteps))
    let st ← orRaise (OrderStatus.ofValue? (stepKey status))
      (.badRequest ("Invalid status: " ++ stepKey status))
    modify (writeOrder orderId fun o => { o with status := st })
    commit
    let db ← get
    return db.orders.get? orderId

/-- A delivered order. -/
def delivered (now : ℕ) (o : Order) : Order :=
  { o with
    status := .delivered
    deliveredAt := some now
    paymentStatus := .paid
    internalNotes := noted "Delivered by rider" o.internalNotes }

/-- What `mark_delivered` commits: the order, and what its customer spent. -/
def delivery (orderId : ℕ) (order : Order) (now : ℕ) (db : Db) : Db :=
  { db with
    orders := db.orders.modify orderId (delivered now)
    users := db.users.modify order.userId fun u =>
      { u with totalSpent := u.totalSpent + order.finalAmount } }

/-- `mark_delivered`: the order's row as it is then. -/
def markDelivered (userId : ℕ) (user : User) (orderId now : ℕ) : Service (Option Order) := do
  let personId ← personForUser userId user
  let db ← get
  let order ← orRaise (riddenOrder db personId orderId) (.forbidden "Order not assigned to you")
  raiseIf (order.status = .deliveryOffered) (.badRequest "Accept the offer before delivering")
  modify (delivery orderId order now)
  commit
  let db ← get
  return db.orders.get? orderId

/-! ## What the calls do -/

section Effects

variable {s : Db} {u o now : ℕ} {user : User} {order : Order} {text : String}

/-- The rider row that a user has, or gets. -/
def riderFor (db : Db) (userId : ℕ) (user : User) : ℕ :=
  match personOf db userId, personWithPhone db user.phone with
  | some (k, _), _ => k
  | none, some (k, _) => k
  | none, none => db.deliveryPersons.next

theorem personForUser_returns (u : ℕ) (user : User) (s : Db) :
    Returns (personForUser u user) s (riderFor s u user) (withPerson u user s) := by
  unfold personForUser riderFor
  refine Returns.get_bind ?_
  cases hown : personOf s u with
  | some r =>
    have hkeep : withPerson u user s = s := by simp only [withPerson, hown]
    rw [hkeep]
    exact returns_pure _ _
  | none =>
    cases hphone : personWithPhone s user.phone with
    | some r => exact Returns.modify_commit (returns_pure _ _)
    | none => exact Returns.modify_commit (returns_pure _ _)

@[simp] theorem withPerson_orders (u : ℕ) (user : User) (s : Db) :
    (withPerson u user s).orders = s.orders := by
  unfold withPerson
  split <;> rfl

@[simp] theorem withPerson_users (u : ℕ) (user : User) (s : Db) :
    (withPerson u user s).users = s.users := by
  unfold withPerson
  split <;> rfl

@[simp] theorem withPerson_payments (u : ℕ) (user : User) (s : Db) :
    (withPerson u user s).payments = s.payments := by
  unfold withPerson
  split <;> rfl

@[simp] theorem riddenOrder_withPerson (u : ℕ) (user : User) (s : Db) (p o : ℕ) :
    riddenOrder (withPerson u user s) p o = riddenOrder s p o := by
  simp [riddenOrder]

/-- The user's rider row is named by the order. -/
theorem riddenOrder_eq_some {p : ℕ} : riddenOrder s p o = some order ↔
    s.orders.get? o = some order ∧ order.deliveryPersonId = some p := by
  simp [riddenOrder, Option.filter_eq_some_iff]

theorem clearExpiredOffer_returns (h : OfferExpired now order) (o : ℕ) (s : Db) :
    Returns (clearExpiredOffer o order now) s true (writeOrder o (withdrawn "Offer expired") s) := by
  unfold clearExpiredOffer
  rw [if_pos h]
  exact Returns.modify_commit (returns_pure _ _)

theorem clearExpiredOffer_returns_of_not (h : ¬ OfferExpired now order) (o : ℕ) (s : Db) :
    Returns (clearExpiredOffer o order now) s false s := by
  unfold clearExpiredOffer
  rw [if_neg h]
  exact returns_pure _ _

/-- A rider whom the order does not name cannot accept it. -/
theorem acceptOrder_raises (h : riddenOrder s (riderFor s u user) o = none) (now : ℕ) :
    Raises (acceptOrder u user o now) s (withPerson u user s) := by
  refine (personForUser_returns u user s).bind_raises (Raises.get_bind ?_)
  rw [riddenOrder_withPerson]
  exact raises_orRaise_bind h _ _ _

/-- Nor can he accept an offer that ran out, which is taken back. -/
theorem acceptOrder_raises_of_expired (hridden : riddenOrder s (riderFor s u user) o = some order)
    (hexpired : OfferExpired now order) :
    Raises (acceptOrder u user o now) s
      (writeOrder o (withdrawn "Offer expired") (withPerson u user s)) := by
  refine (personForUser_returns u user s).bind_raises (Raises.get_bind ?_)
  rw [riddenOrder_withPerson]
  refine Raises.orRaise_bind hridden ?_
  exact (clearExpiredOffer_returns hexpired o _).bind_raises (raises_raise _ _)

/-- He accepts an offer that is open. -/
theorem acceptOrder_returns (hridden : riddenOrder s (riderFor s u user) o = some order)
    (hopen : OfferOpen now order) :
    ∃ a, Returns (acceptOrder u user o now) s a (writeOrder o accepted (withPerson u user s)) := by
  have hget := (riddenOrder_eq_some.1 hridden).1
  have hkept := clearExpiredOffer_returns_of_not (fun h => h.2 hopen) o (withPerson u user s)
  refine ⟨(writeOrder o accepted (withPerson u user s)).orders.get? o,
    (personForUser_returns u user s).bind (Returns.get_bind ?_)⟩
  rw [riddenOrder_withPerson]
  refine Returns.orRaise_bind hridden (hkept.bind ?_)
  simp only [Bool.false_eq_true, if_false]
  refine Returns.get_bind (Returns.orRaise_bind (a := order) ?_
    (Returns.modify_commit ⟨rfl, rfl⟩))
  simp [hget, hopen.1]

/-- An order that is not on offer cannot be accepted. -/
theorem acceptOrder_raises_of_status
    (hridden : riddenOrder s (riderFor s u user) o = some order)
    (hstatus : order.status ≠ .deliveryOffered) (now : ℕ) :
    Raises (acceptOrder u user o now) s (withPerson u user s) := by
  have hget := (riddenOrder_eq_some.1 hridden).1
  have hkept : Returns (clearExpiredOffer o order now) (withPerson u user s) false _ :=
    clearExpiredOffer_returns_of_not (fun h => hstatus h.1) o _
  refine (personForUser_returns u user s).bind_raises (Raises.get_bind ?_)
  rw [riddenOrder_withPerson]
  refine Raises.orRaise_bind hridden (hkept.bind_raises ?_)
  simp only [Bool.false_eq_true, if_false]
  refine Raises.get_bind (raises_orRaise_bind ?_ _ _ _)
  simp [hget, hstatus]

/-- Accepting raises, or takes an offer back that ran out and raises, or accepts one that
is open. -/
theorem acceptOrder_cases (u : ℕ) (user : User) (o now : ℕ) (s : Db) :
    Raises (acceptOrder u user o now) s (withPerson u user s) ∨
      ∃ order, riddenOrder s (riderFor s u user) o = some order ∧
        (OfferExpired now order ∧ (∃ t, Raises (acceptOrder u user o now) s t ∧
            t.orders = s.orders.modify o (withdrawn "Offer expired")) ∨
          OfferOpen now order ∧ ∃ a t, Returns (acceptOrder u user o now) s a t ∧
            t.orders = s.orders.modify o accepted) := by
  cases hridden : riddenOrder s (riderFor s u user) o with
  | none => exact Or.inl (acceptOrder_raises hridden now)
  | some order =>
    by_cases hopen : OfferOpen now order
    · obtain ⟨a, hreturns⟩ := acceptOrder_returns hridden hopen
      exact Or.inr ⟨order, rfl, Or.inr ⟨hopen, a, _, hreturns, by simp [writeOrder]⟩⟩
    by_cases hoffered : order.status = .deliveryOffered
    · have hraises := acceptOrder_raises_of_expired hridden ⟨hoffered, hopen⟩
      exact Or.inr ⟨order, rfl, Or.inl ⟨⟨hoffered, hopen⟩, _, hraises, by simp [writeOrder]⟩⟩
    · exact Or.inl (acceptOrder_raises_of_status hridden hoffered now)

/-- Rejecting changes no order, or takes back an offer. -/
theorem rejectOrder_cases (u : ℕ) (user : User) (o : ℕ) (s : Db) :
    (final (rejectOrder u user o) s).orders = s.orders ∧
        (∀ order, riddenOrder s (riderFor s u user) o = some order →
          order.status ≠ .deliveryOffered) ∨
      ∃ order, riddenOrder s (riderFor s u user) o = some order ∧
        order.status = .deliveryOffered ∧
        (final (rejectOrder u user o) s).orders =
          s.orders.modify o (withdrawn "Rejected by rider") := by
  unfold rejectOrder
  rw [(personForUser_returns u user s).final_bind, final_get_bind, riddenOrder_withPerson]
  cases hridden : riddenOrder s (riderFor s u user) o with
  | none => exact Or.inl ⟨withPerson_orders u user s, by simp⟩
  | some order =>
    rw [final_orRaise_some_bind, final_raiseIf_bind]
    by_cases hoffered : order.status = .deliveryOffered
    · rw [if_neg (not_not.2 hoffered)]
      refine Or.inr ⟨order, rfl, hoffered, ?_⟩
      rw [← withPerson_orders u user s]
      rfl
    · rw [if_pos hoffered]
      exact Or.inl ⟨withPerson_orders u user s, by simpa using hoffered⟩

/-- The order names the rider, and is not an open offer. -/
def Rides (s : Db) (p o : ℕ) (order : Order) : Prop :=
  riddenOrder s p o = some order ∧ order.status ≠ .deliveryOffered

/-- A rider whom the order does not name, or only in an offer, is refused. -/
theorem raises_of_not_rides {α : Type} (h : ∀ order, ¬ Rides s (riderFor s u user) o order)
    (e e' : AppError) (next : Order → Service α) :
    Raises (personForUser u user >>= fun personId => get >>= fun db =>
        orRaise (riddenOrder db personId o) e >>= fun order =>
          raiseIf (order.status = .deliveryOffered) e' >>= fun _ => next order) s
      (withPerson u user s) := by
  refine (personForUser_returns u user s).bind_raises (Raises.get_bind ?_)
  rw [riddenOrder_withPerson]
  cases hridden : riddenOrder s (riderFor s u user) o with
  | none => exact raises_orRaise_bind rfl _ _ _
  | some order =>
    have hoffered : order.status = .deliveryOffered := by
      by_contra hnot
      exact h order ⟨hridden, hnot⟩
    exact Raises.orRaise_bind rfl (raises_raiseIf_bind hoffered _ _ _)

theorem updateOrderStatus_raises (h : ∀ order, ¬ Rides s (riderFor s u user) o order)
    (text : String) :
    Raises (updateOrderStatus u user o text) s (withPerson u user s) :=
  raises_of_not_rides h _ _ _

/-- A rider's step: to the bakery, along the way, or none that there is. -/
theorem orders_updateOrderStatus (h : Rides s (riderFor s u user) o order) (text : String) :
    (final (updateOrderStatus u user o text) s).orders =
      if stepKey text = "reached_bakery" then s.orders.modify o atBakery
      else
        match (OrderStatus.ofValue? (stepKey text)).filter fun _ => stepKey text ∈ riderStatusSteps with
        | some st => s.orders.modify o fun o => { o with status := st }
        | none => s.orders := by
  obtain ⟨hridden, hstatus⟩ := h
  unfold updateOrderStatus
  rw [(personForUser_returns u user s).final_bind, final_get_bind, riddenOrder_withPerson, hridden,
    final_orRaise_some_bind, final_raiseIf_bind, if_neg hstatus]
  rw [← withPerson_orders u user s]
  split_ifs with hbakery
  · rfl
  · rw [final_raiseIf_bind]
    by_cases hstep : stepKey text ∈ riderStatusSteps
    · rw [if_neg (not_not.2 hstep)]
      cases hst : OrderStatus.ofValue? (stepKey text) with
      | none => rfl
      | some st =>
        simp only [Option.filter_some, hstep, decide_true, if_true]
        rfl
    · rw [if_pos hstep]
      cases hst : OrderStatus.ofValue? (stepKey text) with
      | none => rfl
      | some st =>
        simp only [Option.filter_some, hstep, decide_false, Bool.false_eq_true, if_false]

/-- Every step along the way is a status. -/
theorem step_of_mem (h : stepKey text ∈ riderStatusSteps) :
    ∃ st, OrderStatus.ofValue? (stepKey text) = some st ∧
      (st = .pickedUp ∨ st = .outForDelivery ∨ st = .nearLocation) := by
  simp only [riderStatusSteps, List.mem_cons, List.not_mem_nil, or_false] at h
  rcases h with h | h | h
  · exact ⟨.pickedUp, by rw [h]; decide, by decide⟩
  · exact ⟨.outForDelivery, by rw [h]; decide, by decide⟩
  · exact ⟨.nearLocation, by rw [h]; decide, by decide⟩

/-- A rider's step along the way is written. -/
theorem orders_trip {st : OrderStatus} (h : Rides s (riderFor s u user) o order)
    (hst : OrderStatus.ofValue? (stepKey text) = some st) (hmem : stepKey text ∈ riderStatusSteps) :
    (final (updateOrderStatus u user o text) s).orders =
      s.orders.modify o fun o => { o with status := st } := by
  have hbakery : stepKey text ≠ "reached_bakery" := by
    intro heq
    rw [heq] at hmem
    revert hmem
    decide
  rw [orders_updateOrderStatus h, if_neg hbakery, hst]
  simp only [Option.filter_some, hmem, decide_true, if_true]

theorem markDelivered_raises (h : ∀ order, ¬ Rides s (riderFor s u user) o order) (now : ℕ) :
    Raises (markDelivered u user o now) s (withPerson u user s) :=
  raises_of_not_rides h _ _ _

/-- A rider's delivery is written, and counted. -/
theorem final_markDelivered (h : Rides s (riderFor s u user) o order) (now : ℕ) :
    final (markDelivered u user o now) s = delivery o order now (withPerson u user s) := by
  unfold markDelivered
  rw [(personForUser_returns u user s).final_bind, final_get_bind, riddenOrder_withPerson, h.1,
    final_orRaise_some_bind, final_raiseIf_bind, if_neg h.2]
  rfl

theorem orders_markDelivered (h : Rides s (riderFor s u user) o order) (now : ℕ) :
    (final (markDelivered u user o now) s).orders = s.orders.modify o (delivered now) := by
  rw [final_markDelivered h, ← withPerson_orders u user s]
  rfl

theorem offerExpired_withdrawn (now : ℕ) (line : String) (order : Order) :
    ¬ OfferExpired now (withdrawn line order) := by
  rintro ⟨hoffered, _⟩
  cases hoffered

/-- Looking through a list of orders takes back the offers among them that ran out. -/
theorem get?_clearExpired (now : ℕ) (os : List ℕ) (s : Db) (o : ℕ) :
    (final (clearExpired now os) s).orders.get? o =
      (s.orders.get? o).map fun order =>
        if o ∈ os ∧ OfferExpired now order then withdrawn "Offer expired" order else order := by
  induction os generalizing s with
  | nil => simp [clearExpired, final, commits]
  | cons k os ih =>
    unfold clearExpired
    rw [final_get_bind]
    cases hk : s.orders.get? k with
    | none =>
      simp only
      rw [ih]
      cases ho : s.orders.get? o with
      | none => rfl
      | some order =>
        have hne : o ≠ k := by
          rintro rfl
          rw [hk] at ho
          cases ho
        simp [hne]
    | some row =>
      simp only
      by_cases hexpired : OfferExpired now row
      · rw [(clearExpiredOffer_returns hexpired k s).final_bind]
        simp only [if_true]
        rw [ih, writeOrder, Table.get?_modify]
        by_cases hne : o = k
        · subst hne
          simp [hk, hexpired, offerExpired_withdrawn]
        · simp [hne]
      · rw [(clearExpiredOffer_returns_of_not hexpired k s).final_bind]
        simp only [Bool.false_eq_true, if_false]
        have hshown : final (clearExpired now os >>= fun shown => pure (k :: shown)) s =
            final (clearExpired now os) s :=
          final_bind_of_reads (fun _ _ => reads_pure _ _) s
        rw [hshown, ih]
        by_cases hne : o = k
        · subst hne
          simp [hk, hexpired]
        · simp [hne]

/-- Looking at one's orders takes back the offers among the newest fifty that ran out. -/
theorem get?_myOrders (u : ℕ) (user : User) (now : ℕ) (s : Db) (o : ℕ) :
    (final (myOrders u user now) s).orders.get? o =
      (s.orders.get? o).map fun order =>
        if o ∈ newestOrders s (riderFor s u user) ∧ OfferExpired now order then
          withdrawn "Offer expired" order
        else order := by
  have hnewest : newestOrders (withPerson u user s) (riderFor s u user) =
      newestOrders s (riderFor s u user) := by simp [newestOrders]
  unfold myOrders
  rw [(personForUser_returns u user s).final_bind, final_get_bind, get?_clearExpired,
    withPerson_orders, hnewest]

end Effects

end Rider

end Orders

end SweetCrust
