import SweetCrust.Orders.World

/-!
# What the order services leave beside the orders

The kitchen, the rider's calls and a requested return write the order and nothing in its
history or its tracking row; the route writes no history, and the payment service no tracking.
Nothing but a requested return writes a return request, and nothing writes the lines of an order.
Each handler has one lemma, about what it leaves of these and about the tables that are not of the
orders at all.

* `Leaves` — a handler that leaves a part of the database, in every state it commits.
* `rest`, `unpaid` — the database without the tables that the services of an order write.
* `claims_served` — the requests that leave the return requests and the lines of the orders.
-/

namespace SweetCrust

open Tabular Session

namespace Orders

variable {α β : Type} {f : Db → β}

/-- The handler leaves what `f` reads of the database. -/
def Leaves (f : Db → β) (m : Service α) : Prop := ∀ c, Keeps (fun db => f db = c) m

theorem Leaves.final {m : Service α} (h : Leaves f m) (s : Db) : f (final m s) = f s :=
  Keeps.final (h (f s)) rfl

/-- The history and the tracking rows. -/
def logs (db : Db) : Table OrderStatusHistory × Table DeliveryTracking := (db.history, db.tracking)

theorem history_of_logs {s t : Db} (h : logs t = logs s) : t.history = s.history :=
  congrArg Prod.fst h

theorem tracking_of_logs {s t : Db} (h : logs t = logs s) : t.tracking = s.tracking :=
  congrArg Prod.snd h

/-- The return requests, and the lines of the orders. -/
def claims (db : Db) : Table ReturnRequest × Table OrderItem := (db.returns, db.orderItems)

/-- What leaves a part leaves what can be read off it. -/
theorem Leaves.of {γ : Type} {m : Service α} (h : Leaves f m) (g : β → γ) :
    Leaves (fun db => g (f db)) m := by
  rintro c s rfl
  obtain ⟨hcommits, hreturns⟩ := h (f s) s rfl
  exact ⟨fun t ht => congrArg g (hcommits t ht), fun a t ht => congrArg g (hreturns a t ht)⟩

/-- All of them. -/
def aside (db : Db) := (logs db, claims db)

/-- The database without the tables that the services of an order write. -/
def rest (db : Db) : Db :=
  { db with
    orders := .empty
    history := .empty
    tracking := .empty
    returns := .empty
    deliveryPersons := .empty
    notifications := .empty
    settings := .empty
    profiles := .empty
    users := .empty }

/-- The same without the payments and the invoices. -/
def unpaid (db : Db) : Db := { rest db with payments := .empty, invoices := .empty }

/-- Two parts of the database. -/
def both {γ : Type} (f : Db → β) (g : Db → γ) (db : Db) : β × γ := (f db, g db)

section Parts

variable {γ : Type} {g : Db → γ} {m : Service α}

theorem Leaves.fst (h : Leaves (both f g) m) : Leaves f m := h.of Prod.fst

theorem Leaves.snd (h : Leaves (both f g) m) : Leaves g m := h.of Prod.snd

theorem Leaves.logs (h : Leaves aside m) : Leaves logs m := h.of Prod.fst

theorem Leaves.claims (h : Leaves aside m) : Leaves claims m := h.of Prod.snd

/-- The tracking rows, and the claims. -/
def tracked (db : Db) := (db.tracking, claims db)

theorem Leaves.tracked (h : Leaves (both aside g) m) : Leaves (both tracked g) m :=
  h.of fun r => ((r.1.1.2, r.1.2), r.2)

end Parts

/-! ## Composing handlers -/

theorem leaves_pure (a : α) : Leaves f (pure a : Service α) := fun _ => keeps_pure a

theorem leaves_raise (e : AppError) : Leaves f (raise e : Service α) := fun _ => keeps_raise e

theorem leaves_get_bind {γ : Type} {k : Db → Service γ} (h : ∀ db, Leaves f (k db)) :
    Leaves f (get >>= k) := fun c => keeps_get_bind fun db => h db c

theorem Leaves.bind {γ : Type} {m : Service α} {k : α → Service γ} (hm : Leaves f m)
    (hk : ∀ a, Leaves f (k a)) : Leaves f (m >>= k) := fun c => (hm c).bind fun a => hk a c

theorem leaves_commit : Leaves f (commit : Service Unit) := fun _ => keeps_commit

theorem leaves_modify {g : Db → Db} (h : ∀ db, f (g db) = f db) :
    Leaves f (modify g : Service Unit) :=
  fun _ => keeps_modify fun db hdb => (h db).trans hdb

theorem leaves_raiseIf (c : Prop) [Decidable c] (e : AppError) :
    Leaves f (raiseIf c e : Service Unit) := fun _ => keeps_raiseIf c e

theorem leaves_orRaise (o : Option α) (e : AppError) : Leaves f (orRaise o e : Service α) :=
  fun _ => keeps_orRaise o e

theorem leaves_ofExcept (x : Except AppError α) : Leaves f (ofExcept x : Service α) :=
  fun _ => keeps_ofExcept x

/-- A change of the rest, in front of a handler. -/
theorem leaves_modify_bind {γ : Type} {g : Db → Db} {k : Unit → Service γ}
    (h : ∀ db, f (g db) = f db) (hk : Leaves f (k ())) : Leaves f (modify g >>= k) :=
  (leaves_modify h).bind fun _ => hk

/-- A change of the rest and its commit, in front of a handler. -/
theorem leaves_modify_commit {γ : Type} {g : Db → Db} {m : Service γ} (h : ∀ db, f (g db) = f db)
    (hm : Leaves f m) : Leaves f (modify g >>= fun _ => commit >>= fun _ => m) :=
  leaves_modify_bind h (leaves_commit.bind fun _ => hm)

/-- Reading the order's row at the end. -/
theorem leaves_reread (k : ℕ) :
    Leaves f (get >>= fun db => pure (db.orders.get? k) : Service (Option Order)) :=
  leaves_get_bind fun _ => leaves_pure _

/-! ## The riders -/

section Riders

variable (u : ℕ) (user : User) (o now : ℕ)

theorem beside_withPerson (db : Db) :
    both aside rest (Rider.withPerson u user db) = both aside rest db := by
  unfold Rider.withPerson
  split <;> rfl

theorem leaves_personForUser : Leaves (both aside rest) (Rider.personForUser u user) := by
  unfold Rider.personForUser
  refine leaves_get_bind fun db => ?_
  split
  · exact leaves_pure _
  · exact leaves_modify_commit (beside_withPerson u user) (leaves_pure _)
  · exact leaves_modify_commit (beside_withPerson u user) (leaves_pure _)

theorem leaves_clearExpiredOffer (order : Order) :
    Leaves (both aside rest) (Rider.clearExpiredOffer o order now) := by
  unfold Rider.clearExpiredOffer
  split_ifs
  · exact leaves_modify_commit (fun _ => rfl) (leaves_pure _)
  · exact leaves_pure _

theorem leaves_clearExpired (os : List ℕ) :
    Leaves (both aside rest) (Rider.clearExpired now os) := by
  induction os with
  | nil => exact leaves_pure _
  | cons k os ih =>
    refine leaves_get_bind fun db => ?_
    split
    · exact ih
    · refine (leaves_clearExpiredOffer k now _).bind fun cleared => ?_
      split_ifs
      · exact ih
      · exact ih.bind fun _ => leaves_pure _

theorem leaves_myOrders : Leaves (both aside rest) (Rider.myOrders u user now) :=
  (leaves_personForUser u user).bind fun _ => leaves_get_bind fun _ => leaves_clearExpired now _

theorem leaves_acceptOrder : Leaves (both aside rest) (Rider.acceptOrder u user o now) := by
  refine (leaves_personForUser u user).bind fun _ => leaves_get_bind fun _ =>
    (leaves_orRaise _ _).bind fun order =>
      (leaves_clearExpiredOffer o now order).bind fun cleared => ?_
  split_ifs
  · exact leaves_raise _
  · exact leaves_get_bind fun _ => (leaves_orRaise _ _).bind fun _ =>
      leaves_modify_commit (fun _ => rfl) (leaves_reread o)

theorem leaves_rejectOrder : Leaves (both aside rest) (Rider.rejectOrder u user o) :=
  (leaves_personForUser u user).bind fun _ => leaves_get_bind fun _ =>
    (leaves_orRaise _ _).bind fun _ => (leaves_raiseIf _ _).bind fun _ =>
      leaves_modify_bind (fun _ => rfl) leaves_commit

theorem leaves_trip (text : String) :
    Leaves (both aside rest) (Rider.updateOrderStatus u user o text) := by
  refine (leaves_personForUser u user).bind fun _ => leaves_get_bind fun _ =>
    (leaves_orRaise _ _).bind fun _ => (leaves_raiseIf _ _).bind fun _ => ?_
  split_ifs
  · exact leaves_modify_commit (fun _ => rfl) (leaves_reread o)
  · exact (leaves_raiseIf _ _).bind fun _ => (leaves_orRaise _ _).bind fun _ =>
      leaves_modify_commit (fun _ => rfl) (leaves_reread o)

theorem leaves_markDelivered : Leaves (both aside rest) (Rider.markDelivered u user o now) :=
  (leaves_personForUser u user).bind fun _ => leaves_get_bind fun _ =>
    (leaves_orRaise _ _).bind fun _ => (leaves_raiseIf _ _).bind fun _ =>
      leaves_modify_commit (fun _ => rfl) (leaves_reread o)

end Riders

/-! ## The shop, the kitchen, the route and the returns -/

theorem leaves_approvedShop (u : ℕ) : Leaves (both aside rest) (Sell.approvedShop u) :=
  Leaves.bind (leaves_get_bind fun _ => (leaves_orRaise _ _).bind fun _ =>
    (leaves_raiseIf _ _).bind fun _ => leaves_pure _) fun _ =>
      (leaves_raiseIf _ _).bind fun _ => leaves_pure _

theorem leaves_sellingShop (u now : ℕ) : Leaves (both aside rest) (Sell.sellingShop u now) := by
  refine (leaves_approvedShop u).bind fun r => ?_
  split_ifs
  · exact leaves_modify_commit (fun _ => rfl) (leaves_raise _)
  · exact (leaves_raiseIf _ _).bind fun _ => leaves_pure _

theorem leaves_updateSalesStatus (u o : ℕ) (text : String) (note : Option String) (now : ℕ) :
    Leaves (both tracked rest) (StoreOps.updateSalesStatus u o text note now) :=
  (leaves_sellingShop u now).tracked.bind fun _ => leaves_get_bind fun _ =>
    (leaves_orRaise _ _).bind fun _ => (leaves_orRaise _ _).bind fun _ =>
      (leaves_raiseIf _ _).bind fun _ => leaves_modify_commit (fun _ => rfl) (leaves_reread o)

theorem leaves_move (o : ℕ) (sources : List OrderStatus) (target : OrderStatus) (verb : String) :
    Leaves (both aside rest) (Picking.move o sources target verb) :=
  leaves_get_bind fun _ => (leaves_orRaise _ _).bind fun _ => (leaves_raiseIf _ _).bind fun _ =>
    leaves_modify_commit (fun _ => rfl) (leaves_reread o)

theorem leaves_assign (o p : ℕ) :
    Leaves (both (fun db => (db.history, claims db)) rest) (Routing.assign o p) :=
  leaves_get_bind fun _ => (leaves_orRaise _ _).bind fun _ => (leaves_orRaise _ _).bind fun _ =>
    leaves_modify_commit (fun _ => rfl) (leaves_modify_commit (fun _ => rfl) (leaves_reread o))

theorem leaves_createReturn (u : ℕ) (data : OrderService.ReturnIn) (now : ℕ) :
    Leaves (both (fun db => (logs db, db.orderItems)) rest)
      (OrderService.createReturn u data now) := by
  refine leaves_get_bind fun db => (leaves_orRaise _ _).bind fun order =>
    (leaves_raiseIf _ _).bind fun _ => (leaves_raiseIf _ _).bind fun _ =>
      leaves_modify_commit (fun _ => rfl) (leaves_modify_commit (fun _ => rfl) ?_)
  split
  · exact leaves_modify_commit (fun _ => rfl) (leaves_pure _)
  · exact leaves_pure _

theorem leaves_nameRider (o : ℕ) (p : Option ℕ) :
    Leaves (both claims rest) (OrderService.nameRider o p) := by
  unfold OrderService.nameRider
  split
  · exact leaves_pure _
  · refine leaves_get_bind fun db => (leaves_orRaise _ _).bind fun _ =>
      leaves_modify_bind (fun _ => rfl) (Leaves.bind ?_ fun _ => leaves_modify fun _ => rfl)
    refine leaves_get_bind fun db => ?_
    split
    · exact leaves_pure _
    · refine leaves_modify_commit (fun db => ?_) (leaves_pure _)
      unfold Carts.withSettings
      split <;> rfl

theorem leaves_cancelOrder (o u : ℕ) (reason : String) (now : ℕ) :
    Leaves (both claims rest) (OrderService.cancelOrder o u reason now) := by
  refine Leaves.bind (leaves_get_bind fun _ => (leaves_orRaise _ _).bind fun _ =>
    (leaves_raiseIf _ _).bind fun _ => leaves_pure _) fun detail => ?_
  split_ifs
  · exact leaves_pure _
  · exact Leaves.bind (leaves_get_bind fun _ => (leaves_orRaise _ _).bind fun _ =>
      (leaves_orRaise _ _).bind fun _ => leaves_modify_bind (fun _ => rfl)
        ((leaves_nameRider _ _).bind fun _ => leaves_modify_commit (fun _ => rfl)
          (leaves_reread o))) fun _ => leaves_pure _

theorem leaves_adminUpdate (o : ℕ) (text : String) (note : Option String) (p : Option ℕ)
    (now : ℕ) : Leaves (both claims rest) (StoreOps.updateOrderStatus o text note p now) :=
  leaves_get_bind fun _ => (leaves_orRaise _ _).bind fun _ => (leaves_orRaise _ _).bind fun _ =>
    (leaves_raiseIf _ _).bind fun _ => leaves_modify_commit (fun _ => rfl) (leaves_reread o)

/-! ## The payments -/

section Payments

theorem leaves_getOrderPayment (hf : ∀ u o order txn db,
    f (Payment.withPayment u o order txn db) = f db) (u o : ℕ) (txn : String) :
    Leaves f (Payment.getOrderPayment u o txn) := by
  refine leaves_get_bind fun db => (leaves_orRaise _ _).bind fun order => ?_
  split
  · exact leaves_pure _
  · exact leaves_modify_commit (hf u o order txn) (leaves_pure _)

theorem leaves_generateInvoice (o : ℕ) (order : Order) :
    Leaves (both aside unpaid) (Payment.generateInvoice o order) := by
  refine leaves_get_bind fun db => ?_
  split
  · exact leaves_pure _
  · exact leaves_modify_commit (fun _ => rfl) (leaves_pure _)

theorem leaves_razorpayCreate (env : Payment.Env) (gateway : Payment.Gateway) (u : ℕ) (user : User)
    (o : ℕ) (link : Bool) (txn : String) :
    Leaves (both aside unpaid) (Payment.razorpayCreate env gateway u user o link txn) := by
  refine (leaves_getOrderPayment (fun _ _ _ _ _ => rfl) u o txn).bind fun r => ?_
  obtain ⟨order, i, p⟩ := r
  dsimp only
  split_ifs
  · exact leaves_pure _
  · exact (leaves_ofExcept _).bind fun _ => (leaves_ofExcept _).bind fun _ =>
      leaves_modify_commit (fun _ => rfl) (leaves_pure _)

theorem leaves_razorpayVerify (env : Payment.Env) (u o : ℕ) (roid pid sig txn : String) :
    Leaves (both tracked unpaid) (Payment.razorpayVerify env u o roid pid sig txn) := by
  refine (leaves_getOrderPayment (fun _ _ _ _ _ => rfl) u o txn).bind fun r => ?_
  obtain ⟨order, i, p⟩ := r
  dsimp only
  split_ifs
  · exact leaves_pure _
  · exact leaves_modify_bind (fun _ => rfl)
      ((leaves_generateInvoice o _).tracked.bind fun _ =>
        leaves_commit.bind fun _ => leaves_pure _)
  · exact leaves_modify_commit (fun _ => rfl) (leaves_raise _)

theorem leaves_razorpayWebhook (env : Payment.Env) (body : Payment.WebhookBody)
    (signature : String) :
    Leaves (both tracked unpaid) (Payment.razorpayWebhook env body signature) := by
  refine (leaves_raiseIf _ _).bind fun _ => (leaves_orRaise _ _).bind fun payload => ?_
  split
  · split_ifs
    · refine (leaves_orRaise _ _).bind fun n => leaves_get_bind fun db => ?_
      split
      · exact leaves_pure _
      · split
        · exact leaves_pure _
        · split_ifs
          · exact leaves_pure _
          · exact leaves_modify_commit (fun _ => rfl) (leaves_pure _)
    · exact leaves_pure _
  · exact leaves_pure _

theorem leaves_processPayment (u o : ℕ) (method : String) (upiId : Option String) (fail : Bool) :
    Leaves (both tracked unpaid) (Payment.processPayment u o method upiId fail) := by
  refine leaves_get_bind fun db => (leaves_orRaise _ _).bind fun order =>
    (leaves_orRaise _ _).bind fun r => ?_
  obtain ⟨i, p⟩ := r
  refine (leaves_orRaise _ _).bind fun chosen => leaves_modify_commit (fun _ => rfl) ?_
  split_ifs
  · exact leaves_modify_commit (fun _ => rfl) (leaves_pure _)
  · exact leaves_modify_bind (fun _ => rfl)
      ((leaves_generateInvoice o _).tracked.bind fun _ =>
        leaves_commit.bind fun _ => leaves_pure _)

/-- No call of the payment service writes a tracking row or a claim, nor the rest but for payments
and invoices. -/
theorem tracked_pay (env : Payment.Env) (db : Db) (call : Payment.Call) :
    both tracked unpaid ((call.commits env db).getLastD db) = both tracked unpaid db := by
  cases call with
  | create gateway u user o link txn =>
    exact (leaves_razorpayCreate env gateway u user o link txn).tracked.final db
  | verify u o roid pid sig txn => exact (leaves_razorpayVerify env u o roid pid sig txn).final db
  | webhook body signature => exact (leaves_razorpayWebhook env body signature).final db
  | process u o method upiId fail => exact (leaves_processPayment u o method upiId fail).final db

theorem tracking_pay (env : Payment.Env) (db : Db) (call : Payment.Call) :
    ((call.commits env db).getLastD db).tracking = db.tracking :=
  congrArg (fun r => r.1.1) (tracked_pay env db call)

end Payments

/-- The lines of the orders stay, and the return requests do, unless one is made. -/
theorem claims_served (env : Payment.Env) (w : World) (r : Request) :
    claims (served env w r) = claims w.db ∨ ∃ u data, r = .createReturn u data := by
  cases r with
  | cancel u o reason => exact Or.inl ((leaves_cancelOrder o u reason w.now).fst.final w.db)
  | createReturn u data => exact Or.inr ⟨u, data, rfl⟩
  | admin o text note p => exact Or.inl ((leaves_adminUpdate o text note p w.now).fst.final w.db)
  | offer o p => exact Or.inl ((leaves_adminUpdate o _ _ _ w.now).fst.final w.db)
  | assign o p => exact Or.inl ((leaves_adminUpdate o _ _ _ w.now).fst.final w.db)
  | sales u o text note =>
    exact Or.inl (((leaves_updateSalesStatus u o text note w.now).fst.of Prod.snd).final w.db)
  | start o => exact Or.inl ((leaves_move o _ _ _).fst.claims.final w.db)
  | pack o => exact Or.inl ((leaves_move o _ _ _).fst.claims.final w.db)
  | route o p => exact Or.inl (((leaves_assign o p).fst.of Prod.snd).final w.db)
  | accept u user o => exact Or.inl ((leaves_acceptOrder u user o w.now).fst.claims.final w.db)
  | reject u user o => exact Or.inl ((leaves_rejectOrder u user o).fst.claims.final w.db)
  | trip u user o text => exact Or.inl ((leaves_trip u user o text).fst.claims.final w.db)
  | deliver u user o => exact Or.inl ((leaves_markDelivered u user o w.now).fst.claims.final w.db)
  | myOrders u user => exact Or.inl ((leaves_myOrders u user w.now).fst.claims.final w.db)
  | pay call => exact Or.inl (congrArg (fun r => r.1.2) (tracked_pay env w.db call))
  | wait n => exact Or.inl rfl

end Orders

end SweetCrust
