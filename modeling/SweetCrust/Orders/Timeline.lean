import SweetCrust.Lib.Runs
import SweetCrust.Orders.Beside
import SweetCrust.Orders.Updates

/-!
# Does the customer's timeline record every status change?

The order service, the shop and the payment service write a row in the history of an order
with its status.  The admin, the kitchen, the route, the rider and `create_return` do not.

* `Diary` — the world, with the statuses that each order took.
* `recorded_iff` — the history of every order is the sequence of statuses that it took,
  exactly if those who write no history change no status, and the others change it.
* `preparing_unrecorded` — an order that the kitchen starts on.
-/

namespace SweetCrust

open Tabular Session Runs

namespace Orders

namespace Timeline

/-! ## The requests -/

/-- The requests of `World`, and the order service's `update_order_status`. -/
inductive Act
  | serve (r : Request)
  | update (orderId : ℕ) (status : String) (actorId : ℕ) (note : Option String)
      (deliveryPersonId : Option ℕ)

def act (env : Payment.Env) (w : World) : Act → Db
  | .serve r => served env w r
  | .update o status actorId note p =>
    final (OrderService.updateOrderStatus o status actorId note p w.now) w.db

def Act.seconds : Act → ℕ
  | .serve r => r.seconds
  | .update .. => 0

/-! ## The history of an order -/

/-- The statuses in the history of an order, oldest first. -/
def entries (db : Db) (o : ℕ) : List OrderStatus :=
  (db.history.select fun h => h.orderId = o).map fun r => r.2.status

/-- The status that an order has in `t` and had not in `s`. -/
def changed (s t : Db) (o : ℕ) : List OrderStatus :=
  if (t.orders.get? o).map Order.status = (s.orders.get? o).map Order.status then []
  else ((t.orders.get? o).map Order.status).toList

/-- The world, with the statuses that each order took one after the other. -/
structure Diary where
  world : World
  taken : ℕ → List OrderStatus

def Diary.step (env : Payment.Env) (d : Diary) (a : Act) : Diary where
  world := { db := act env d.world a, now := d.world.now + a.seconds }
  taken o := d.taken o ++ changed d.world.db (act env d.world a) o

/-- The last status that an order took is the one it has. -/
def Diary.Current (d : Diary) : Prop :=
  ∀ o order, d.world.db.orders.get? o = some order → (d.taken o).getLast? = some order.status

/-- The history of an order is the sequence of statuses that it took, and its last row is the
status of the order. -/
structure Diary.Recorded (d : Diary) : Prop where
  rows : ∀ o, (d.world.db.orders.get? o).isSome → entries d.world.db o = d.taken o
  last : ∀ o order, d.world.db.orders.get? o = some order →
    (entries d.world.db o).getLast? = some order.status

/-- Who writes no history finds the status there already, and who writes it finds another. -/
def Records (env : Payment.Env) (w : World) : Act → Prop
  | .serve (.createReturn u data) => ∀ a, ¬ OrderService.Returnable w.db u data w.now a
  | .serve (.admin o text _ p) => ∀ a st, w.db.orders.get? o = some a →
      OrderStatus.ofValue? text = some st → StoreOps.RiderKnown w.db p → a.status = st
  | .serve (.offer o p) => ∀ a, w.db.orders.get? o = some a → StoreOps.RiderKnown w.db (some p) →
      a.status = .deliveryOffered
  | .serve (.assign o p) => ∀ a, w.db.orders.get? o = some a → StoreOps.RiderKnown w.db (some p) →
      a.status = .deliveryAssigned
  | .serve (.sales u o text _) => ∀ a st, (∃ i profile, Sell.MaySell w.db u w.now i profile) →
      StoreOps.soldOrder w.db u o = some a → OrderStatus.ofValue? text = some st →
      st ∈ StoreOps.shopStatuses → a.status ≠ st
  | .serve (.start o) => ∀ a, w.db.orders.get? o = some a →
      a.status ∉ [.accepted, .paymentReceived, .placed]
  | .serve (.pack o) => ∀ a, w.db.orders.get? o = some a → a.status ∉ [.preparing, .accepted]
  | .serve (.route o p) => ∀ a, w.db.orders.get? o = some a → (w.db.deliveryPersons.get? p).isSome →
      a.status = .deliveryAssigned
  | .serve (.accept u user o) => ∀ a, Rider.riddenOrder w.db (Rider.riderFor w.db u user) o = some a →
      a.status ≠ .deliveryOffered
  | .serve (.reject u user o) => ∀ a, Rider.riddenOrder w.db (Rider.riderFor w.db u user) o = some a →
      a.status ≠ .deliveryOffered
  | .serve (.trip u user o text) => ∀ a, Rider.Rides w.db (Rider.riderFor w.db u user) o a →
      Rider.stepKey text ∈ Rider.riderStatusSteps →
      OrderStatus.ofValue? (Rider.stepKey text) = some a.status
  | .serve (.deliver u user o) => ∀ a, Rider.Rides w.db (Rider.riderFor w.db u user) o a →
      a.status = .delivered
  | .serve (.myOrders u user) => ∀ o a, w.db.orders.get? o = some a →
      o ∈ Rider.newestOrders w.db (Rider.riderFor w.db u user) → ¬ Rider.OfferExpired w.now a
  | .serve (.pay (.verify u o roid pid sig _)) => ∀ a, Payment.Payable w.db u o a →
      Payment.verifyPaymentSignature env roid pid sig = true → a.status ≠ .paymentReceived
  | .serve (.pay (.process u o method _ fail)) => ∀ a chosen,
      Payment.Confirmable w.db u o method a chosen → fail = false → a.status ≠ .paymentReceived
  | .update o text _ _ p => ∀ a st, OrderService.Accepts w.db o text p a st → a.status ≠ st
  | _ => True

/-! ## One request -/

section Steps

variable {env : Payment.Env} {w : World} {s t : Db} {k o : ℕ} {a b : Order} {f : Order → Order}
  {st : OrderStatus} {row : OrderStatusHistory}

/-- The history of every order goes on with its new status, if it has one. -/
def Told (s t : Db) : Prop :=
  ∀ o, (s.orders.get? o).isSome → entries t o = entries s o ++ changed s t o

theorem entries_congr (h : t.history = s.history) (o : ℕ) : entries t o = entries s o := by
  unfold entries
  rw [h]

theorem entries_insert (h : t.history = s.history.insert row) (o : ℕ) :
    entries t o = entries s o ++ if row.orderId = o then [row.status] else [] := by
  unfold entries
  rw [h, Table.select_insert, List.map_append]
  by_cases ho : row.orderId = o <;> simp [ho]

theorem changed_of_same (h : t.orders = s.orders) (o : ℕ) : changed s t o = [] := by
  unfold changed
  rw [h, if_pos rfl]

theorem changed_row (ha : s.orders.get? o = some a) (hb : t.orders.get? o = some b) :
    changed s t o = if b.status = a.status then [] else [b.status] := by
  unfold changed
  rw [ha, hb]
  by_cases hst : b.status = a.status <;> simp [hst]

theorem changed_modify (h : t.orders = s.orders.modify k f) (ha : s.orders.get? k = some a)
    (o : ℕ) : changed s t o = if k = o ∧ (f a).status ≠ a.status then [(f a).status] else [] := by
  unfold changed
  rw [h, Table.get?_modify]
  by_cases hk : o = k
  · subst hk
    rw [if_pos rfl, ha]
    by_cases hst : (f a).status = a.status <;> simp [hst]
  · rw [if_neg hk, if_pos rfl, if_neg fun hand => hk hand.1.symm]

/-- Who writes no history must change no status. -/
theorem told_quiet_iff (h : t.history = s.history) :
    Told s t ↔ ∀ o, (s.orders.get? o).isSome → changed s t o = [] := by
  unfold Told
  simp only [entries_congr h, List.self_eq_append_right]

theorem told_of_same (h : t.history = s.history) (hord : t.orders = s.orders) : Told s t :=
  (told_quiet_iff h).2 fun o _ => changed_of_same hord o

theorem told_silent_iff (st : OrderStatus) (h : t.history = s.history)
    (hord : t.orders = s.orders.modify k f)
    (ha : s.orders.get? k = some a) (hst : (f a).status = st) : Told s t ↔ a.status = st := by
  subst hst
  rw [told_quiet_iff h]
  constructor
  · intro hall
    have hk := hall k (by rw [ha]; rfl)
    rw [changed_modify hord ha] at hk
    by_contra hne
    rw [if_pos ⟨rfl, fun heq => hne heq.symm⟩] at hk
    cases hk
  · intro hst o _
    rw [changed_modify hord ha, if_neg fun hand => hand.2 hst.symm]

/-- Who writes history must change the status. -/
theorem told_reported_iff (st : OrderStatus) {note : Option String} {actor : Option ℕ}
    (h : t.history = s.history.insert ⟨k, st, note, actor⟩) (hord : t.orders = s.orders.modify k f)
    (ha : s.orders.get? k = some a) (hst : (f a).status = st) : Told s t ↔ a.status ≠ st := by
  subst hst
  unfold Told
  simp only [entries_insert h, List.append_cancel_left_eq, changed_modify hord ha]
  constructor
  · intro hall heq
    have hk := hall k (by rw [ha]; rfl)
    rw [if_pos rfl, if_neg fun hand => hand.2 heq.symm] at hk
    cases hk
  · intro hne o _
    by_cases ho : k = o
    · rw [if_pos ho, if_pos ⟨ho, fun heq => hne heq.symm⟩]
    · rw [if_neg ho, if_neg fun hand => ho hand.1]

/-- The admin writes no history. -/
theorem told_admin_iff (k : ℕ) (text : String) (note : Option String) (p : Option ℕ) (now : ℕ) :
    Told s (final (StoreOps.updateOrderStatus k text note p now) s) ↔
      ∀ a st, s.orders.get? k = some a → OrderStatus.ofValue? text = some st →
        StoreOps.RiderKnown s p → a.status = st := by
  rcases updateOrderStatus_cases k text note p now s with
    ⟨a, st, ha, hst, hp, hfinal⟩ | ⟨hnot, hfinal⟩
  · rw [hfinal]
    have hsilent : Told s (StoreOps.statusUpdated k a st note p now s) ↔ a.status = st :=
      told_silent_iff st rfl rfl ha rfl
    rw [hsilent]
    constructor
    · rintro rfl b st' hb hst' -
      rw [ha] at hb
      rw [hst] at hst'
      cases hb
      cases hst'
      rfl
    · exact fun hall => hall a st ha hst hp
  · rw [hfinal]
    exact iff_of_true (told_of_same rfl rfl) fun a st ha hst hp => absurd hp (hnot a st ha hst)

/-- The shop does. -/
theorem told_sales_iff (u k : ℕ) (text : String) (note : Option String) (now : ℕ) :
    Told s (final (StoreOps.updateSalesStatus u k text note now) s) ↔
      ∀ a st, (∃ i profile, Sell.MaySell s u now i profile) → StoreOps.soldOrder s u k = some a →
        OrderStatus.ofValue? text = some st → st ∈ StoreOps.shopStatuses → a.status ≠ st := by
  rcases updateSalesStatus_cases u k text note now s with
    ⟨a, st, hshop, hsold, hst, hmem, hfinal⟩ | ⟨hnot, profiles, hfinal⟩
  · rw [hfinal]
    have hreported : Told s (StoreOps.salesUpdated u k a st note now s) ↔ a.status ≠ st :=
      told_reported_iff st rfl rfl (Option.filter_eq_some_iff.1 hsold).1 rfl
    rw [hreported]
    constructor
    · intro hne b st' _ hsold' hst' _
      rw [hsold] at hsold'
      rw [hst] at hst'
      cases hsold'
      cases hst'
      exact hne
    · exact fun hall => hall a st hshop hsold hst hmem
  · rw [hfinal]
    exact iff_of_true (told_of_same rfl rfl) fun a st hshop hsold hst hmem =>
      absurd hmem (hnot a st hshop hsold hst)

theorem told_update_iff (k : ℕ) (text : String) (actorId : ℕ) (note : Option String)
    (p : Option ℕ) (now : ℕ) :
    Told s (final (OrderService.updateOrderStatus k text actorId note p now) s) ↔
      ∀ a st, OrderService.Accepts s k text p a st → a.status ≠ st := by
  rcases OrderService.updateOrderStatus_cases k text actorId note p now s with
    ⟨a, st, haccepts, hfinal⟩ | ⟨hnot, hfinal⟩
  · rw [hfinal]
    have hreported : Told s (OrderService.updated k a st actorId note p now s) ↔ a.status ≠ st :=
      told_reported_iff st (OrderService.updated_history s) (OrderService.updated_orders s)
        haccepts.found rfl
    rw [hreported]
    constructor
    · intro hne b st' hb
      have hrow := haccepts.found.symm.trans hb.found
      have hstatus := haccepts.status_eq.symm.trans hb.status_eq
      cases hrow
      cases hstatus
      exact hne
    · exact fun hall => hall a st haccepts
  · rw [hfinal]
    exact iff_of_true (told_of_same rfl rfl) fun a st haccepts => absurd haccepts (hnot a st)

theorem told_move_iff (k : ℕ) (sources : List OrderStatus) {target : OrderStatus} (verb : String)
    (hnew : target ∉ sources) :
    Told s (final (Picking.move k sources target verb) s) ↔
      ∀ a, s.orders.get? k = some a → a.status ∉ sources := by
  have hquiet := history_of_logs ((leaves_move k sources target verb).fst.logs.final s)
  rcases move_cases k sources target verb s with ⟨a, ha, hfrom, horders⟩ | ⟨hnot, hfinal⟩
  · rw [told_silent_iff target hquiet horders ha rfl]
    refine iff_of_false (fun heq : a.status = target => ?_) fun hall => hall a ha hfrom
    rw [heq] at hfrom
    exact hnew hfrom
  · rw [hfinal]
    exact iff_of_true (told_of_same rfl rfl) hnot

theorem told_assign_iff (k p : ℕ) :
    Told s (final (Routing.assign k p) s) ↔
      ∀ a, s.orders.get? k = some a → (s.deliveryPersons.get? p).isSome →
        a.status = .deliveryAssigned := by
  have hquiet := congrArg Prod.fst ((leaves_assign k p).fst.final s)
  rcases assign_cases k p s with ⟨a, ha, hp, horders, -⟩ | ⟨hnot, hfinal⟩
  · rw [told_silent_iff .deliveryAssigned hquiet horders ha rfl]
    constructor
    · intro hst b hb _
      rw [ha] at hb
      cases hb
      exact hst
    · exact fun hall => hall a ha hp
  · rw [hfinal]
    exact iff_of_true (told_of_same rfl rfl) fun b hb hsome => absurd hsome (hnot b hb)

theorem orders_writeOrder_withPerson (u : ℕ) (user : User) (k : ℕ) (f : Order → Order) (s : Db) :
    (writeOrder k f (Rider.withPerson u user s)).orders = s.orders.modify k f := by
  simp [writeOrder]

theorem told_withPerson (u : ℕ) (user : User) : Told s (Rider.withPerson u user s) :=
  told_of_same (history_of_logs (congrArg (fun r => r.1.1) (beside_withPerson u user s)))
    (Rider.withPerson_orders u user s)

/-- The answer to an offer is written in no history, nor is its end. -/
theorem told_accept_iff (u : ℕ) (user : User) (k now : ℕ) :
    Told s (final (Rider.acceptOrder u user k now) s) ↔
      ∀ a, Rider.riddenOrder s (Rider.riderFor s u user) k = some a →
        a.status ≠ .deliveryOffered := by
  have hquiet := history_of_logs ((leaves_acceptOrder u user k now).fst.logs.final s)
  cases hridden : Rider.riddenOrder s (Rider.riderFor s u user) k with
  | none =>
    rw [(Rider.acceptOrder_raises hridden now).final]
    exact iff_of_true (told_withPerson u user) fun a ha => by cases ha
  | some a =>
    have ha := (Rider.riddenOrder_eq_some.1 hridden).1
    by_cases hst : a.status = .deliveryOffered
    · have hnot : ¬ ∀ b, some a = some b → b.status ≠ .deliveryOffered := fun hall => hall a rfl hst
      refine iff_of_false (fun htold => ?_) hnot
      by_cases hopen : Rider.OfferOpen now a
      · obtain ⟨_, hreturns⟩ := Rider.acceptOrder_returns hridden hopen
        have hord := (congrArg Db.orders hreturns.final).trans
          (orders_writeOrder_withPerson u user k Rider.accepted s)
        have hsame := (told_silent_iff .deliveryAssigned hquiet hord ha rfl).1 htold
        rw [hst] at hsame
        cases hsame
      · have hraises := Rider.acceptOrder_raises_of_expired hridden ⟨hst, hopen⟩
        have hord := (congrArg Db.orders hraises.final).trans
          (orders_writeOrder_withPerson u user k (Rider.withdrawn "Offer expired") s)
        have hsame := (told_silent_iff .packed hquiet hord ha rfl).1 htold
        rw [hst] at hsame
        cases hsame
    · rw [(Rider.acceptOrder_raises_of_status hridden hst now).final]
      exact iff_of_true (told_withPerson u user) fun b hb => by
        cases hb
        exact hst

theorem told_reject_iff (u : ℕ) (user : User) (k : ℕ) :
    Told s (final (Rider.rejectOrder u user k) s) ↔
      ∀ a, Rider.riddenOrder s (Rider.riderFor s u user) k = some a →
        a.status ≠ .deliveryOffered := by
  have hquiet := history_of_logs ((leaves_rejectOrder u user k).fst.logs.final s)
  rcases Rider.rejectOrder_cases u user k s with ⟨hord, hnot⟩ | ⟨a, hridden, hst, hord⟩
  · exact iff_of_true (told_of_same hquiet hord) hnot
  · have ha := (Rider.riddenOrder_eq_some.1 hridden).1
    rw [told_silent_iff .packed hquiet hord ha rfl, hst]
    exact iff_of_false (by decide) fun hall => hall a hridden hst

theorem told_trip_iff (u : ℕ) (user : User) (k : ℕ) (text : String) :
    Told s (final (Rider.updateOrderStatus u user k text) s) ↔
      ∀ a, Rider.Rides s (Rider.riderFor s u user) k a →
        Rider.stepKey text ∈ Rider.riderStatusSteps →
          OrderStatus.ofValue? (Rider.stepKey text) = some a.status := by
  have hquiet := history_of_logs ((leaves_trip u user k text).fst.logs.final s)
  by_cases hgo : ∃ a, Rider.Rides s (Rider.riderFor s u user) k a
  · obtain ⟨a, hrides⟩ := hgo
    have ha := (Rider.riddenOrder_eq_some.1 hrides.1).1
    by_cases hmem : Rider.stepKey text ∈ Rider.riderStatusSteps
    · obtain ⟨st, hst, -⟩ := Rider.step_of_mem hmem
      rw [told_silent_iff st hquiet (Rider.orders_trip hrides hst hmem) ha rfl, hst]
      constructor
      · rintro rfl b hb -
        have hrow := hrides.1.symm.trans hb.1
        cases hrow
        rfl
      · exact fun hall => (Option.some.inj (hall a hrides hmem)).symm
    · refine iff_of_true ?_ fun _ _ hin => absurd hin hmem
      have hord := Rider.orders_updateOrderStatus hrides text
      split_ifs at hord with hbakery
      · exact (told_silent_iff a.status hquiet hord ha rfl).2 rfl
      · cases hst : OrderStatus.ofValue? (Rider.stepKey text) with
        | none =>
          rw [hst] at hord
          exact told_of_same hquiet hord
        | some st =>
          rw [hst] at hord
          simp only [Option.filter_some, hmem, decide_false, Bool.false_eq_true, if_false] at hord
          exact told_of_same hquiet hord
  · simp only [not_exists] at hgo
    rw [(Rider.updateOrderStatus_raises hgo text).final]
    exact iff_of_true (told_withPerson u user) fun a hrides => absurd hrides (hgo a)

theorem told_deliver_iff (u : ℕ) (user : User) (k now : ℕ) :
    Told s (final (Rider.markDelivered u user k now) s) ↔
      ∀ a, Rider.Rides s (Rider.riderFor s u user) k a → a.status = .delivered := by
  have hquiet := history_of_logs ((leaves_markDelivered u user k now).fst.logs.final s)
  by_cases hgo : ∃ a, Rider.Rides s (Rider.riderFor s u user) k a
  · obtain ⟨a, hrides⟩ := hgo
    have ha := (Rider.riddenOrder_eq_some.1 hrides.1).1
    rw [told_silent_iff .delivered hquiet (Rider.orders_markDelivered hrides now) ha rfl]
    constructor
    · intro hst b hb
      have hrow := hrides.1.symm.trans hb.1
      cases hrow
      exact hst
    · exact fun hall => hall a hrides
  · simp only [not_exists] at hgo
    rw [(Rider.markDelivered_raises hgo now).final]
    exact iff_of_true (told_withPerson u user) fun a hrides => absurd hrides (hgo a)

theorem told_myOrders_iff (u : ℕ) (user : User) (now : ℕ) :
    Told s (final (Rider.myOrders u user now) s) ↔
      ∀ o a, s.orders.get? o = some a → o ∈ Rider.newestOrders s (Rider.riderFor s u user) →
        ¬ Rider.OfferExpired now a := by
  rw [told_quiet_iff (history_of_logs ((leaves_myOrders u user now).fst.logs.final s))]
  have hrow : ∀ o a, s.orders.get? o = some a →
      (changed s (final (Rider.myOrders u user now) s) o = [] ↔
        (o ∈ Rider.newestOrders s (Rider.riderFor s u user) → ¬ Rider.OfferExpired now a)) := by
    intro o a ha
    have hb := Rider.get?_myOrders u user now s o
    rw [ha, Option.map_some] at hb
    rw [changed_row ha hb]
    split_ifs with hexpired hsame hsame
    · rw [hexpired.2.1] at hsame
      cases hsame
    · exact iff_of_false (by simp) fun hall => hall hexpired.1 hexpired.2
    · exact iff_of_true rfl fun hmem hout => hexpired ⟨hmem, hout⟩
    · exact absurd rfl hsame
  constructor
  · intro hall o a ha
    exact (hrow o a ha).1 (hall o (by rw [ha]; rfl))
  · intro hall o ho
    obtain ⟨a, ha⟩ := Option.isSome_iff_exists.1 ho
    exact (hrow o a ha).2 (hall o a ha)

/-- Each call of the payment service that moves an order on writes it down. -/
theorem told_pay_iff (call : Payment.Call) (w : World) :
    Told w.db ((call.commits env w.db).getLastD w.db) ↔ Records env w (.serve (.pay call)) := by
  cases call with
  | create gateway u user k link txn =>
    refine iff_of_true ?_ trivial
    have hquiet := history_of_logs
      ((leaves_razorpayCreate env gateway u user k link txn).fst.logs.final w.db)
    rcases Payment.orders_razorpayCreate env gateway u user k link txn w.db with hord | hord
    · exact told_of_same hquiet hord
    · refine (told_quiet_iff hquiet).2 fun o ho => ?_
      obtain ⟨a, ha⟩ := Option.isSome_iff_exists.1 ho
      have hb := congrArg (Table.get? · o) hord
      rw [Table.get?_modify] at hb
      split_ifs at hb
      · rw [ha, Option.map_some] at hb
        rw [changed_row ha hb]
        exact if_pos rfl
      · rw [ha] at hb
        rw [changed_row ha hb]
        exact if_pos rfl
  | verify u k roid pid sig txn =>
    by_cases hgo : ∃ a, Payment.Payable w.db u k a
    · obtain ⟨a, hpay⟩ := hgo
      have ha := (Payment.ownOrder_eq_some.1 hpay.own).1
      have hhistory := Payment.history_razorpayVerify env hpay roid pid sig txn
      have hord := Payment.orders_razorpayVerify env hpay roid pid sig txn
      cases hsig : Payment.verifyPaymentSignature env roid pid sig with
      | true =>
        rw [hsig, if_pos rfl] at hhistory hord
        refine (told_reported_iff .paymentReceived hhistory hord ha rfl).trans ?_
        constructor
        · intro hne b hb _
          have hrow := hpay.own.symm.trans hb.own
          cases hrow
          exact hne
        · exact fun hall => hall a hpay hsig
      | false =>
        rw [hsig, if_neg Bool.false_ne_true] at hhistory hord
        refine iff_of_true ?_ fun b _ htrue => ?_
        · exact (told_silent_iff a.status hhistory hord ha rfl).2 rfl
        · rw [hsig] at htrue
          cases htrue
    · simp only [not_exists] at hgo
      rw [show (Payment.Call.commits env w.db (.verify u k roid pid sig txn)).getLastD w.db = w.db from
        Payment.final_razorpayVerify_of_not hgo roid pid sig txn]
      exact iff_of_true (told_of_same rfl rfl) fun a hpay => absurd hpay (hgo a)
  | webhook body signature =>
    refine iff_of_true ?_ trivial
    rcases Payment.final_razorpayWebhook env body signature w.db with
      ht | ⟨k, a, i, event, pid, ha, ht⟩
    · rw [show (Payment.Call.commits env w.db (.webhook body signature)).getLastD w.db = w.db from ht]
      exact told_of_same rfl rfl
    · rw [show (Payment.Call.commits env w.db (.webhook body signature)).getLastD w.db = _ from ht]
      by_cases hplaced : a.status = .placed
      · refine (told_reported_iff .paymentReceived (if_pos hplaced) rfl ha (if_pos hplaced)).2 ?_
        rw [hplaced]
        decide
      · exact (told_silent_iff a.status (if_neg hplaced) rfl ha (if_neg hplaced)).2 rfl
  | process u k method upiId fail =>
    by_cases hgo : ∃ a chosen, Payment.Confirmable w.db u k method a chosen
    · obtain ⟨a, chosen, hpay⟩ := hgo
      have ha := (Payment.ownOrder_eq_some.1 hpay.own).1
      have hhistory := Payment.history_processPayment hpay upiId fail
      have hord := Payment.orders_processPayment hpay upiId fail
      cases fail with
      | true =>
        refine iff_of_true ?_ fun _ _ _ hfalse => by cases hfalse
        exact (told_silent_iff a.status hhistory hord ha rfl).2 rfl
      | false =>
        refine (told_reported_iff .paymentReceived hhistory hord ha rfl).trans ?_
        constructor
        · intro hne b _ hb _
          have hrow := hpay.own.symm.trans hb.own
          cases hrow
          exact hne
        · exact fun hall => hall a chosen hpay rfl
    · simp only [not_exists] at hgo
      rw [show (Payment.Call.commits env w.db (.process u k method upiId fail)).getLastD w.db = w.db
        from Payment.final_processPayment_of_not hgo upiId fail]
      exact iff_of_true (told_of_same rfl rfl) fun a chosen hpay => absurd hpay (hgo a chosen)

/-- A request keeps the timelines of all orders exactly if it records what it changes. -/
theorem told_act_iff (env : Payment.Env) (w : World) (x : Act) :
    Told w.db (act env w x) ↔ Records env w x := by
  cases x with
  | update o text actorId note p => exact told_update_iff o text actorId note p w.now
  | serve r =>
    cases r with
    | cancel u o reason =>
      refine iff_of_true ?_ trivial
      rcases OrderService.cancelOrder_cases o u reason w.now w.db with
        ⟨a, ha, hc, hfinal⟩ | ⟨-, hfinal⟩
      · have ht : act env w (.serve (.cancel u o reason)) = _ := hfinal
        rw [ht]
        refine (told_reported_iff .cancelled rfl rfl ha rfl).2 fun hcancelled => hc.2 ?_
        rw [hcancelled]
        decide
      · have ht : act env w (.serve (.cancel u o reason)) = w.db := hfinal
        rw [ht]
        exact told_of_same rfl rfl
    | createReturn u data =>
      have hquiet := history_of_logs (((leaves_createReturn u data w.now).fst.of Prod.fst).final w.db)
      by_cases hgo : ∃ a, OrderService.Returnable w.db u data w.now a
      · obtain ⟨a, hret⟩ := hgo
        have ha := (Payment.ownOrder_eq_some.1 hret.own).1
        have hord := OrderService.orders_createReturn hret
        refine (told_silent_iff .returnRequested hquiet hord ha rfl).trans ?_
        rw [hret.delivered]
        exact iff_of_false (by decide) fun hnone => hnone a hret
      · simp only [not_exists] at hgo
        have ht : act env w (.serve (.createReturn u data)) = w.db :=
          (OrderService.createReturn_raises hgo).final
        rw [ht]
        exact iff_of_true (told_of_same rfl rfl) hgo
    | admin o text note p => exact told_admin_iff o text note p w.now
    | offer o p =>
      refine (told_admin_iff o _ _ (some p) w.now).trans ?_
      rw [OrderStatus.ofValue?_value]
      exact ⟨fun hall a ha hp => hall a _ ha rfl hp, fun hall a st ha hst hp => by
        cases hst
        exact hall a ha hp⟩
    | assign o p =>
      refine (told_admin_iff o _ _ (some p) w.now).trans ?_
      rw [OrderStatus.ofValue?_value]
      exact ⟨fun hall a ha hp => hall a _ ha rfl hp, fun hall a st ha hst hp => by
        cases hst
        exact hall a ha hp⟩
    | sales u o text note => exact told_sales_iff u o text note w.now
    | start o => exact told_move_iff o _ "start picking" (by decide)
    | pack o => exact told_move_iff o _ "pack" (by decide)
    | route o p => exact told_assign_iff o p
    | accept u user o => exact told_accept_iff u user o w.now
    | reject u user o => exact told_reject_iff u user o
    | trip u user o text => exact told_trip_iff u user o text
    | deliver u user o => exact told_deliver_iff u user o w.now
    | myOrders u user => exact told_myOrders_iff u user w.now
    | pay call => exact told_pay_iff call w
    | wait n => exact iff_of_true (told_of_same rfl rfl) trivial

/-- No request makes an order, or removes one. -/
theorem isSome_act (env : Payment.Env) (w : World) (x : Act) (o : ℕ) :
    ((act env w x).orders.get? o).isSome = (w.db.orders.get? o).isSome := by
  cases x with
  | serve r =>
    obtain ⟨hnone, hsome⟩ := rewrites_served env w r o
    show ((served env w r).orders.get? o).isSome = _
    cases ha : w.db.orders.get? o with
    | none => rw [hnone ha]
    | some a =>
      obtain ⟨b, hb, -⟩ := hsome a ha
      rw [hb]
      rfl
  | update k text actorId note p =>
    show ((final (OrderService.updateOrderStatus k text actorId note p w.now) w.db).orders.get?
      o).isSome = _
    rcases OrderService.updateOrderStatus_cases k text actorId note p w.now w.db with
      ⟨a, st, -, hfinal⟩ | ⟨-, hfinal⟩
    · rw [hfinal, OrderService.updated_orders, Table.get?_modify]
      split_ifs
      · exact Option.isSome_map
      · rfl
    · rw [hfinal]

end Steps

/-! ## A run -/

section Run

variable {env : Payment.Env} {d : Diary}

/-- The diary is kept up to date. -/
theorem Diary.current_step (x : Act) (h : d.Current) : (d.step env x).Current := by
  intro o b hb
  have hsome := isSome_act env d.world x o
  have hb' : (act env d.world x).orders.get? o = some b := hb
  rw [hb'] at hsome
  obtain ⟨a, ha⟩ := Option.isSome_iff_exists.1 hsome.symm
  show (d.taken o ++ changed d.world.db (act env d.world x) o).getLast? = some b.status
  rw [changed_row ha hb']
  by_cases hst : b.status = a.status
  · rw [if_pos hst, List.append_nil, h o a ha, hst]
  · rw [if_neg hst, List.getLast?_concat]

/-- A request keeps the timelines true exactly if it records what it changes. -/
theorem recorded_step_iff (x : Act) (hcurrent : d.Current) (h : d.Recorded) :
    (d.step env x).Recorded ↔ Records env d.world x := by
  rw [← told_act_iff]
  have hsome := isSome_act env d.world x
  constructor
  · intro hafter o ho
    rw [h.rows o ho]
    exact hafter.rows o ((hsome o).trans ho)
  · intro htold
    have hrows : ∀ o, ((act env d.world x).orders.get? o).isSome →
        entries (act env d.world x) o = d.taken o ++ changed d.world.db (act env d.world x) o := by
      intro o ho
      have hbefore := (hsome o).symm.trans ho
      rw [← h.rows o hbefore]
      exact htold o hbefore
    refine ⟨hrows, fun o b hb => ?_⟩
    have hrow := hrows o (by rw [show (act env d.world x).orders.get? o = some b from hb]; rfl)
    exact (congrArg List.getLast? hrow).trans (Diary.current_step x hcurrent o b hb)

/-- The timelines are true throughout a run exactly if each request of it records what it
changes. -/
theorem recorded_iff (env : Payment.Env) (hcurrent : d.Current) (h : d.Recorded) (xs : List Act) :
    Throughout (Diary.step env) Diary.Recorded d xs ↔
      Stepwise (Diary.step env) (fun d x => Records env d.world x) d xs :=
  throughout_iff_stepwise (fun _ x hc => Diary.current_step x hc)
    (fun _ x hc hr => recorded_step_iff x hc hr) hcurrent h xs

end Run

/-! ## An order that the kitchen starts on -/

/-- A placed order of user 7, as the checkout leaves it. -/
def placedOrder : Diary where
  world :=
    { db :=
        { Db.empty with
          orders := .ofList [{ (default : Order) with userId := 7 }]
          history := .ofList [⟨1, .placed, some "Order placed", some 7⟩] }
      now := 0 }
  taken := fun _ => [.placed]

theorem orders_placedOrder {o : ℕ} {a : Order}
    (h : placedOrder.world.db.orders.get? o = some a) : o = 1 ∧ a.status = .placed := by
  have hlt : o < 2 := Table.lt_next_of_get? h
  have ho : o = 1 := by
    rcases Nat.eq_zero_or_pos o with rfl | hpos
    · cases h
    · omega
  subst ho
  cases h
  exact ⟨rfl, rfl⟩

theorem current_placedOrder : placedOrder.Current := by
  intro o a ha
  rw [(orders_placedOrder ha).2]
  rfl

theorem recorded_placedOrder : placedOrder.Recorded := by
  refine ⟨fun o ho => ?_, fun o a ha => ?_⟩
  · obtain ⟨a, ha⟩ := Option.isSome_iff_exists.1 ho
    rw [(orders_placedOrder ha).1]
    decide
  · rw [(orders_placedOrder ha).1, (orders_placedOrder ha).2]
    decide

/-- The order service accepts the order, and the customer cancels it. -/
theorem cancellation_recorded : Throughout (Diary.step Payment.plainEnv) Diary.Recorded placedOrder
    [.update 1 "accepted" 9 none none, .serve (.cancel 7 1 "late")] := by
  refine (recorded_iff Payment.plainEnv current_placedOrder recorded_placedOrder _).2 ?_
  refine stepwise_cons.2 ⟨fun a st haccepts => ?_, stepwise_cons.2 ⟨trivial, stepwise_nil _ _⟩⟩
  rw [(orders_placedOrder haccepts.found).2]
  rintro rfl
  exact absurd haccepts.status_eq (by decide)

/-- The kitchen starts on it, and the timeline still ends with placed. -/
theorem preparing_unrecorded : ¬ Throughout (Diary.step Payment.plainEnv) Diary.Recorded placedOrder
    [.serve (.start 1)] := by
  intro h
  have hentries : entries (run (Diary.step Payment.plainEnv) placedOrder
      [.serve (.start 1)]).world.db 1 = [.placed] := by decide +kernel
  have hstatus : ((run (Diary.step Payment.plainEnv) placedOrder
      [.serve (.start 1)]).world.db.orders.get? 1).map Order.status = some .preparing := by
    decide +kernel
  obtain ⟨a, ha, hpreparing⟩ := Option.map_eq_some_iff.1 hstatus
  have hlast := h.final.last 1 a ha
  rw [hentries, hpreparing] at hlast
  cases hlast

end Timeline

end Orders

end SweetCrust
