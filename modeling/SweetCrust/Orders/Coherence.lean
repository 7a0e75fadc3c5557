import SweetCrust.Lib.Runs
import SweetCrust.Orders.Beside

/-!
# Are the fields of an assignment coherent?

An offer to a rider is a status, a rider, the time at which it ends, and a tracking row.  Some
requests write all four, and some only the status.

* `Coherent` — an order has a time at which its offer ends exactly while it is on offer; it has
  a rider from the offer until it is there; and its tracking row names its rider.
* `tracked_step` — no request breaks the last of these.
* `coherent_iff` — all three hold throughout a run exactly if no request takes an order off
  offer and leaves the time, or moves an order without a rider where it needs one.
* `offer_left_over` — an order that is cancelled while it is on offer.
-/

namespace SweetCrust

open Tabular Session Runs

namespace Orders

namespace Coherence

/-! ## The law -/

/-- The statuses in which an order has a rider. -/
def ridden : List OrderStatus :=
  [.deliveryOffered, .deliveryAssigned, .pickedUp, .outForDelivery, .nearLocation]

/-- An offer ends exactly while there is one, and a rider is named where one is needed. -/
structure Assigned (a : Order) : Prop where
  offer : a.offerExpiresAt.isSome ↔ a.status = .deliveryOffered
  rider : a.status ∈ ridden → a.deliveryPersonId.isSome

/-- Every tracking row names the rider of its order, if that has one. -/
def Tracked (db : Db) : Prop :=
  ∀ r ∈ db.tracking.rows, ∀ a p, db.orders.get? r.2.orderId = some a →
    a.deliveryPersonId = some p → r.2.deliveryPersonId = some p

/-- No order has two tracking rows. -/
def Single (tracking : Table DeliveryTracking) : Prop :=
  ∀ r ∈ tracking.rows, ∀ r' ∈ tracking.rows, r.2.orderId = r'.2.orderId → r = r'

structure Coherent (w : World) : Prop where
  assigned : ∀ o a, w.db.orders.get? o = some a → Assigned a
  tracked : Tracked w.db

/-- A request that leaves the end of an offer does not find one, and one that moves an order
where it needs a rider finds or names one. -/
def Coheres (env : Payment.Env) (w : World) : Request → Prop
  | .cancel u o _ => ∀ a, Payment.ownOrder w.db u o = some a → a.status ≠ .deliveryOffered
  | .admin o text _ p => ∀ a st, w.db.orders.get? o = some a →
      OrderStatus.ofValue? text = some st → StoreOps.RiderKnown w.db p →
      (a.status = .deliveryOffered → st = .deliveryOffered ∨ st = .deliveryAssigned) ∧
        (st ∈ ridden → p.isSome ∨ a.deliveryPersonId.isSome)
  | .sales u o text _ => ∀ a st, (∃ i profile, Sell.MaySell w.db u w.now i profile) →
      StoreOps.soldOrder w.db u o = some a → OrderStatus.ofValue? text = some st →
      st ∈ StoreOps.shopStatuses →
      a.status ≠ .deliveryOffered ∧ (st = .outForDelivery → a.deliveryPersonId.isSome)
  | .route o p => ∀ a, w.db.orders.get? o = some a → (w.db.deliveryPersons.get? p).isSome →
      a.status ≠ .deliveryOffered
  | .pay (.verify u o roid pid sig _) => ∀ a, Payment.Payable w.db u o a →
      Payment.verifyPaymentSignature env roid pid sig = true → a.status ≠ .deliveryOffered
  | .pay (.process u o method _ fail) => ∀ a chosen,
      Payment.Confirmable w.db u o method a chosen → fail = false → a.status ≠ .deliveryOffered
  | _ => True

/-! ## The tracking rows -/

section Tracking

variable {tracking : Table DeliveryTracking} {o p : ℕ} {r : ℕ × DeliveryTracking}

/-- The rows after `_upsert_tracking`: the one of the order names the rider, and the others
are as they were. -/
theorem mem_upsertTracking (hsingle : Single tracking)
    (h : r ∈ (upsertTracking o p tracking).rows) :
    r.2.orderId = o ∧ r.2.deliveryPersonId = some p ∨ r.2.orderId ≠ o ∧ r ∈ tracking.rows := by
  unfold upsertTracking at h
  cases hfirst : tracking.first? fun t => t.orderId = o with
  | none =>
    have hnone : ∀ q ∈ tracking.rows, q.2.orderId ≠ o := by
      simpa [Table.first?, List.find?_eq_none] using hfirst
    rw [hfirst] at h
    rcases List.mem_append.1 h with hold | hnew
    · exact Or.inr ⟨hnone r hold, hold⟩
    · rw [List.mem_singleton.1 hnew]
      exact Or.inl ⟨rfl, rfl⟩
  | some q =>
    obtain ⟨k, row⟩ := q
    obtain ⟨hget, hrow⟩ := Table.get?_of_first? hfirst
    have hmem : (k, row) ∈ tracking.rows := Table.get?_eq_some.1 hget
    have horder : row.orderId = o := by simpa using hrow
    simp only [hfirst, Table.rows_modify, List.mem_map] at h
    obtain ⟨q, hq, rfl⟩ := h
    by_cases hqo : q.2.orderId = o
    · have hqk : q = (k, row) := hsingle q hq (k, row) hmem (hqo.trans horder.symm)
      subst hqk
      left
      simp [horder]
    · have hqk : q.1 ≠ k := by
        intro heq
        have hsame : q.2 = row := Table.row_unique (i := k) (heq ▸ hq) hmem
        rw [hsame] at hqo
        exact hqo horder
      right
      rw [if_neg hqk]
      exact ⟨hqo, hq⟩

theorem single_upsertTracking (hsingle : Single tracking) (o p : ℕ) :
    Single (upsertTracking o p tracking) := by
  unfold upsertTracking
  cases hfirst : tracking.first? fun t => t.orderId = o with
  | none =>
    have hnone : ∀ q ∈ tracking.rows, q.2.orderId ≠ o := by
      simpa [Table.first?, List.find?_eq_none] using hfirst
    intro r hr r' hr' heq
    rcases List.mem_append.1 hr with hold | hnew <;> rcases List.mem_append.1 hr' with hold' | hnew'
    · exact hsingle r hold r' hold' heq
    · rw [List.mem_singleton.1 hnew'] at heq
      exact absurd heq (hnone r hold)
    · rw [List.mem_singleton.1 hnew] at heq
      exact absurd heq.symm (hnone r' hold')
    · rw [List.mem_singleton.1 hnew, List.mem_singleton.1 hnew']
  | some q =>
    obtain ⟨k, row⟩ := q
    have hkeep : ∀ q : ℕ × DeliveryTracking, (if q.1 = k then
        { q.2 with deliveryPersonId := some p } else q.2).orderId = q.2.orderId := by
      intro q
      split_ifs <;> rfl
    intro r hr r' hr' heq
    simp only [Table.rows_modify, List.mem_map] at hr hr'
    obtain ⟨q, hq, rfl⟩ := hr
    obtain ⟨q', hq', rfl⟩ := hr'
    rw [hkeep, hkeep] at heq
    rw [hsingle q hq q' hq' heq]

/-- A request that names no rider leaves that of each order, or takes it. -/
theorem tracked_of_same {s t : Db} (h : Tracked s) (htracking : t.tracking = s.tracking)
    (hrider : ∀ o b, t.orders.get? o = some b → b.deliveryPersonId = none ∨
      ∃ a, s.orders.get? o = some a ∧ b.deliveryPersonId = a.deliveryPersonId) : Tracked t := by
  intro r hr b p hb hp
  rw [htracking] at hr
  rcases hrider _ b hb with hnone | ⟨a, ha, hsame⟩
  · rw [hnone] at hp
    cases hp
  · exact h r hr a p ha (hsame ▸ hp)

/-- A request that names one writes the tracking row. -/
theorem tracked_of_upsert {s t : Db} {f : Order → Order} (hsingle : Single s.tracking)
    (h : Tracked s) (htracking : t.tracking = upsertTracking o p s.tracking)
    (hord : t.orders = s.orders.modify o f)
    (hf : ∀ a, s.orders.get? o = some a → (f a).deliveryPersonId = some p) : Tracked t := by
  intro r hr b p' hb hp'
  rw [htracking] at hr
  rw [hord, Table.get?_modify] at hb
  rcases mem_upsertTracking hsingle hr with ⟨horder, hrow⟩ | ⟨horder, hold⟩
  · rw [if_pos horder, horder] at hb
    obtain ⟨a, ha, rfl⟩ := Option.map_eq_some_iff.1 hb
    rw [hf a ha] at hp'
    rw [hrow, hp']
  · rw [if_neg horder] at hb
    exact h r hold b p' hb hp'

end Tracking

/-! ## One request and the tracking rows -/

section Steps

variable {env : Payment.Env} {w : World} {r : Request} {o : ℕ} {a b : Order}

theorem tracked_admin (hsingle : Single w.db.tracking) (h : Tracked w.db) (o : ℕ) (text : String)
    (note : Option String) (p : Option ℕ) :
    Tracked (final (StoreOps.updateOrderStatus o text note p w.now) w.db) ∧
      Single (final (StoreOps.updateOrderStatus o text note p w.now) w.db).tracking := by
  rcases updateOrderStatus_cases o text note p w.now w.db with
    ⟨a, st, ha, -, -, hfinal⟩ | ⟨-, hfinal⟩
  · rw [hfinal]
    cases htracked : StoreOps.trackedRider st p a with
    | some personId =>
      have htracking : (StoreOps.statusUpdated o a st note p w.now w.db).tracking =
          upsertTracking o personId w.db.tracking := by
        unfold StoreOps.statusUpdated
        rw [htracked]
      refine ⟨tracked_of_upsert hsingle h htracking rfl fun b hb => ?_, ?_⟩
      · rw [ha] at hb
        cases hb
        show p.or a.deliveryPersonId = some personId
        unfold StoreOps.trackedRider truthyId at htracked
        cases p with
        | some q => exact htracked
        | none =>
          rw [Option.none_or] at htracked ⊢
          split_ifs at htracked
          exact (Option.filter_eq_some_iff.1 htracked).1
      · rw [htracking]
        exact single_upsertTracking hsingle o personId
    | none =>
      have htracking : (StoreOps.statusUpdated o a st note p w.now w.db).tracking =
          w.db.tracking := by
        unfold StoreOps.statusUpdated
        rw [htracked]
      refine ⟨tracked_of_same h htracking fun k b hrow => ?_, htracking ▸ hsingle⟩
      have hb : (w.db.orders.modify o (StoreOps.setStatus st note p w.now)).get? k = some b := hrow
      have hp : p = none := by
        unfold StoreOps.trackedRider at htracked
        exact (Option.or_eq_none_iff.1 htracked).1
      rw [Table.get?_modify] at hb
      right
      split_ifs at hb with hk
      · obtain ⟨c, hc, rfl⟩ := Option.map_eq_some_iff.1 hb
        exact ⟨c, hc, by simp [StoreOps.setStatus, hp]⟩
      · exact ⟨b, hb, rfl⟩
  · rw [hfinal]
    exact ⟨h, hsingle⟩

theorem tracked_route (hsingle : Single w.db.tracking) (h : Tracked w.db) (o p : ℕ) :
    Tracked (final (Routing.assign o p) w.db) ∧
      Single (final (Routing.assign o p) w.db).tracking := by
  rcases assign_cases o p w.db with ⟨a, -, -, horders, htracking⟩ | ⟨-, hfinal⟩
  · refine ⟨tracked_of_upsert hsingle h htracking horders fun _ _ => rfl, ?_⟩
    rw [htracking]
    exact single_upsertTracking hsingle o p
  · rw [hfinal]
    exact ⟨h, hsingle⟩

/-- Only the admin and the route name a rider. -/
def Names : Request → Prop
  | .admin .. | .offer .. | .assign .. | .route .. => True
  | _ => False

theorem rider_of_rewrites (hw : Rewrites env w o a r b) (hr : ¬ Names r) :
    b.deliveryPersonId = none ∨ b.deliveryPersonId = a.deliveryPersonId := by
  cases hw with
  | admin | offer | assign | route => exact absurd trivial hr
  | expire | reject => exact Or.inl rfl
  | _ => exact Or.inr rfl

theorem tracking_served (env : Payment.Env) (w : World) {r : Request} (hr : ¬ Names r) :
    (served env w r).tracking = w.db.tracking := by
  cases r with
  | admin | offer | assign | route => exact absurd trivial hr
  | cancel u o reason =>
    rcases OrderService.cancelOrder_cases o u reason w.now w.db with ⟨a, -, -, hfinal⟩ | ⟨-, hfinal⟩
    · exact (congrArg Db.tracking hfinal).trans rfl
    · exact congrArg Db.tracking hfinal
  | createReturn u data =>
    exact tracking_of_logs (((leaves_createReturn u data w.now).fst.of Prod.fst).final w.db)
  | sales u o text note =>
    exact congrArg Prod.fst ((leaves_updateSalesStatus u o text note w.now).fst.final w.db)
  | start o => exact tracking_of_logs ((leaves_move o _ _ _).fst.logs.final w.db)
  | pack o => exact tracking_of_logs ((leaves_move o _ _ _).fst.logs.final w.db)
  | accept u user o =>
    exact tracking_of_logs ((leaves_acceptOrder u user o w.now).fst.logs.final w.db)
  | reject u user o => exact tracking_of_logs ((leaves_rejectOrder u user o).fst.logs.final w.db)
  | trip u user o text => exact tracking_of_logs ((leaves_trip u user o text).fst.logs.final w.db)
  | deliver u user o =>
    exact tracking_of_logs ((leaves_markDelivered u user o w.now).fst.logs.final w.db)
  | myOrders u user => exact tracking_of_logs ((leaves_myOrders u user w.now).fst.logs.final w.db)
  | pay call => exact tracking_pay env w.db call
  | wait n => rfl

/-- No request parts an order from its tracking row. -/
theorem tracked_step (env : Payment.Env) (r : Request) (hsingle : Single w.db.tracking)
    (h : Tracked w.db) : Tracked (step env w r).db ∧ Single (step env w r).db.tracking := by
  by_cases hr : Names r
  · cases r with
    | admin o text note p => exact tracked_admin hsingle h o text note p
    | offer o p => exact tracked_admin hsingle h o _ _ (some p)
    | assign o p => exact tracked_admin hsingle h o _ _ (some p)
    | route o p => exact tracked_route hsingle h o p
    | _ => exact absurd hr id
  · have htracking : (step env w r).db.tracking = w.db.tracking := tracking_served env w hr
    refine ⟨tracked_of_same h htracking fun o b hb => ?_, htracking ▸ hsingle⟩
    cases ha : w.db.orders.get? o with
    | none =>
      rw [get?_step_none env r ha] at hb
      cases hb
    | some a =>
      obtain ⟨c, hc, hw⟩ := rewrites_step env r ha
      rw [hb] at hc
      cases hc
      exact (rider_of_rewrites hw hr).imp_right fun hsame => ⟨a, rfl, hsame⟩

/-! ## One request and the orders -/

theorem assigned_of_same {f : Order → Order} (h : Assigned a)
    (hoffer : (f a).offerExpiresAt = a.offerExpiresAt) (hstatus : (f a).status = a.status)
    (hrider : (f a).deliveryPersonId = a.deliveryPersonId) : Assigned (f a) := by
  refine ⟨?_, ?_⟩
  · rw [hoffer, hstatus]
    exact h.offer
  · rw [hstatus, hrider]
    exact h.rider

theorem offer_eq_none (h : Assigned a) (hst : a.status ≠ .deliveryOffered) :
    a.offerExpiresAt = none := by
  rw [← Option.not_isSome_iff_eq_none, h.offer]
  exact hst

/-- What the admin leaves of an order. -/
theorem assigned_setStatus_iff (h : Assigned a) (st : OrderStatus) (note : Option String)
    (p : Option ℕ) (now : ℕ) :
    Assigned (StoreOps.setStatus st note p now a) ↔
      (a.status = .deliveryOffered → st = .deliveryOffered ∨ st = .deliveryAssigned) ∧
        (st ∈ ridden → p.isSome ∨ a.deliveryPersonId.isSome) := by
  have hrider : (StoreOps.setStatus st note p now a).deliveryPersonId.isSome ↔
      p.isSome ∨ a.deliveryPersonId.isSome := by
    simp [StoreOps.setStatus, Option.isSome_or]
  have hoffer : ((StoreOps.setStatus st note p now a).offerExpiresAt.isSome ↔
        st = .deliveryOffered) ↔
      (a.status = .deliveryOffered → st = .deliveryOffered ∨ st = .deliveryAssigned) := by
    show ((if st = .deliveryAssigned then none
      else if st = .deliveryOffered then some (now + StoreOps.offerTtlSec)
      else a.offerExpiresAt).isSome ↔ st = .deliveryOffered) ↔ _
    by_cases hassigned : st = .deliveryAssigned
    · simp [hassigned]
    · by_cases hoffered : st = .deliveryOffered
      · simp [hoffered]
      · simp [hassigned, hoffered, ← h.offer]
  constructor
  · intro hafter
    exact ⟨hoffer.1 hafter.offer, fun hmem => hrider.1 (hafter.rider hmem)⟩
  · rintro ⟨hend, hneeds⟩
    exact ⟨hoffer.2 hend, fun hmem => hrider.2 (hneeds hmem)⟩

/-- A new status, with the same rider and the same end of an offer. -/
theorem assigned_status_iff (st : OrderStatus) (hother : st ≠ .deliveryOffered) (h : Assigned a)
    (hst : b.status = st) (hoffer : b.offerExpiresAt = a.offerExpiresAt)
    (hrider : b.deliveryPersonId = a.deliveryPersonId) :
    Assigned b ↔
      a.status ≠ .deliveryOffered ∧ (st ∈ ridden → a.deliveryPersonId.isSome) := by
  subst hst
  constructor
  · intro hafter
    refine ⟨fun hoffered => hother (hafter.offer.1 ?_), fun hmem => hrider ▸ hafter.rider hmem⟩
    rw [hoffer, h.offer]
    exact hoffered
  · rintro ⟨hend, hneeds⟩
    refine ⟨?_, fun hmem => hrider ▸ hneeds hmem⟩
    rw [hoffer, h.offer]
    exact iff_of_false hend hother

/-- A status outside of the delivery needs no rider. -/
theorem assigned_of_left (st : OrderStatus) (hleft : st ∉ ridden) (h : Assigned a)
    (hend : a.status ≠ .deliveryOffered) (hst : b.status = st)
    (hoffer : b.offerExpiresAt = a.offerExpiresAt)
    (hrider : b.deliveryPersonId = a.deliveryPersonId) : Assigned b := by
  refine (assigned_status_iff st (fun heq => hleft ?_) h hst hoffer hrider).2
    ⟨hend, fun hmem => absurd hmem hleft⟩
  rw [heq]
  decide

theorem assigned_withdrawn (line : String) (a : Order) : Assigned (Rider.withdrawn line a) :=
  ⟨iff_of_false (by simp [Rider.withdrawn]) (by simp [Rider.withdrawn]),
    fun hmem => absurd hmem (by simp [Rider.withdrawn, ridden])⟩

/-- What a request that coheres leaves of an order. -/
theorem assigned_of_rewrites (hw : Rewrites env w o a r b) (ha : w.db.orders.get? o = some a)
    (h : Assigned a) (hok : Coheres env w r) : Assigned b := by
  cases hw with
  | same => exact h
  | cancel u reason hc =>
    have hoffered := hok a (Payment.ownOrder_eq_some.2 ⟨ha, hc.1⟩)
    exact assigned_of_left .cancelled (by decide) h hoffered rfl rfl rfl
  | createReturn u data hd =>
    exact assigned_of_left .returnRequested (by decide) h (by rw [hd]; decide) rfl rfl rfl
  | admin text note p status hst hp =>
    exact (assigned_setStatus_iff h status note p w.now).2 (hok a status ha hst hp)
  | offer p hp =>
    exact (assigned_setStatus_iff h _ _ _ w.now).2 ⟨fun _ => Or.inl rfl, fun _ => Or.inl rfl⟩
  | assign p hp =>
    exact (assigned_setStatus_iff h _ _ _ w.now).2 ⟨fun _ => Or.inr rfl, fun _ => Or.inl rfl⟩
  | sales u text note status hshop hsold hst hmem =>
    obtain ⟨hoffered, hneeds⟩ := hok a status hshop hsold hst hmem
    have hridden : status ∈ ridden → status = .outForDelivery := by
      revert hmem
      cases status <;> decide
    have hother : status ≠ .deliveryOffered := by
      rintro rfl
      revert hmem
      decide
    have hiff := assigned_status_iff (b := StoreOps.setSalesStatus status note w.now a) status hother
      h rfl rfl rfl
    exact hiff.2 ⟨hoffered, fun hin => hneeds (hridden hin)⟩
  | start hmem =>
    refine assigned_of_left .preparing (by decide) h (fun hoffered => ?_) rfl rfl rfl
    rw [hoffered] at hmem
    revert hmem
    decide
  | pack hmem =>
    refine assigned_of_left .packed (by decide) h (fun hoffered => ?_) rfl rfl rfl
    rw [hoffered] at hmem
    revert hmem
    decide
  | route p hp =>
    refine ⟨?_, fun _ => rfl⟩
    show a.offerExpiresAt.isSome ↔ _
    rw [offer_eq_none h (hok a ha hp)]
    exact iff_of_false (by simp) (by simp [Routing.assigned])
  | accept u user hrider hopen =>
    refine ⟨iff_of_false (by simp [Rider.accepted]) (by simp [Rider.accepted]), fun _ => ?_⟩
    show a.deliveryPersonId.isSome
    rw [hrider]
    rfl
  | expire _ hexpired => exact assigned_withdrawn _ a
  | reject u user hrider hoffered => exact assigned_withdrawn _ a
  | atBakery => exact assigned_of_same (f := Rider.atBakery) h rfl rfl rfl
  | trip u user text status hrides hst hmem =>
    obtain ⟨st, hst', hstep⟩ := Rider.step_of_mem hmem
    have hsame : status = st := Option.some.inj (hst.symm.trans hst')
    have hother : status ≠ .deliveryOffered := by
      rcases hstep with rfl | rfl | rfl <;> simp [hsame]
    have hrider := (Rider.riddenOrder_eq_some.1 hrides.1).2
    have hiff := assigned_status_iff (b := { a with status := status }) status hother h rfl rfl rfl
    exact hiff.2 ⟨hrides.2, fun _ => by rw [hrider]; rfl⟩
  | deliver u user hrides =>
    exact assigned_of_left .delivered (by decide) h hrides.2 rfl rfl rfl
  | failed => exact assigned_of_same (f := Payment.failedOrder) h rfl rfl rfl
  | verified u roid pid sig txn hpay hsig =>
    exact assigned_of_left .paymentReceived (by decide) h (hok a hpay hsig) rfl rfl rfl
  | confirmed u method upiId chosen hpay =>
    exact assigned_of_left .paymentReceived (by decide) h (hok a chosen hpay rfl) rfl rfl rfl
  | reported =>
    by_cases hplaced : a.status = .placed
    · exact assigned_of_left .paymentReceived (by decide) h (by rw [hplaced]; decide)
        (if_pos hplaced) rfl rfl
    · exact assigned_of_same (f := Payment.reportedOrder) h rfl (if_neg hplaced) rfl
  | viaRazorpay => exact assigned_of_same (f := Payment.viaRazorpay) h rfl rfl rfl

/-- What a request that writes to one order leaves of it. -/
theorem assigned_of_write {f : Order → Order} {t : Db} (ht : t.orders = w.db.orders.modify o f)
    (ha : w.db.orders.get? o = some a)
    (hlaw : ∀ o b, t.orders.get? o = some b → Assigned b) : Assigned (f a) := by
  refine hlaw o (f a) ?_
  rw [ht, Table.get?_modify_self, ha, Option.map_some]

/-- A request leaves the orders coherent exactly if it coheres. -/
theorem assigned_step_iff (env : Payment.Env) (r : Request)
    (h : ∀ o a, w.db.orders.get? o = some a → Assigned a) :
    (∀ o b, (step env w r).db.orders.get? o = some b → Assigned b) ↔ Coheres env w r := by
  constructor
  · intro hlaw
    cases r with
    | cancel u o reason =>
      intro a hown hoffered
      obtain ⟨ha, huser⟩ := Payment.ownOrder_eq_some.1 hown
      have hc : OrderService.Cancels u a := ⟨huser, by rw [hoffered]; decide⟩
      have ht := congrArg Db.orders (OrderService.final_cancelOrder ha hc reason w.now)
      have hafter := assigned_of_write ht ha hlaw
      have hiff := assigned_status_iff
        (b := OrderService.setStatus .cancelled (some reason) w.now a) .cancelled (by decide)
        (h o a ha) rfl rfl rfl
      exact (hiff.1 hafter).1 hoffered
    | admin o text note p =>
      intro a st ha hst hp
      exact (assigned_setStatus_iff (h o a ha) st note p w.now).1 (assigned_of_write
        (congrArg Db.orders (final_updateOrderStatus ha hst hp note w.now)) ha hlaw)
    | sales u o text note =>
      rintro a st ⟨i, profile, hshop⟩ hsold hst hmem
      have ha := (Option.filter_eq_some_iff.1 hsold).1
      have hafter := assigned_of_write
        (congrArg Db.orders (final_updateSalesStatus hshop hsold hst hmem note)) ha hlaw
      have hother : st ≠ .deliveryOffered := by
        rintro rfl
        revert hmem
        decide
      obtain ⟨hend, hneeds⟩ := (assigned_status_iff
        (b := StoreOps.setSalesStatus st note w.now a) st hother (h o a ha) rfl rfl rfl).1 hafter
      refine ⟨hend, ?_⟩
      rintro rfl
      exact hneeds (by decide)
    | route o p =>
      intro a ha hp hoffered
      have hafter := assigned_of_write (orders_assign ha hp) ha hlaw
      have hassigned := hafter.offer.1 (by rw [← (h o a ha).offer] at hoffered; exact hoffered)
      cases hassigned
    | pay call =>
      cases call with
      | create | webhook => exact trivial
      | verify u o roid pid sig txn =>
        intro a hpay hsig
        have ha := (Payment.ownOrder_eq_some.1 hpay.own).1
        have ht := Payment.orders_razorpayVerify env hpay roid pid sig txn
        rw [if_pos hsig] at ht
        have hiff := assigned_status_iff (b := Payment.receivedOrder .razorpay a)
          .paymentReceived (by decide) (h o a ha) rfl rfl rfl
        exact (hiff.1 (assigned_of_write ht ha hlaw)).1
      | process u o method upiId fail =>
        rintro a chosen hpay rfl
        have ha := (Payment.ownOrder_eq_some.1 hpay.own).1
        have ht := Payment.orders_processPayment hpay upiId false
        have hiff := assigned_status_iff (b := Payment.receivedOrder chosen a)
          .paymentReceived (by decide) (h o a ha) rfl rfl rfl
        exact (hiff.1 (assigned_of_write ht ha hlaw)).1
    | createReturn | offer | assign | start | pack | accept | reject | trip | deliver | myOrders
    | wait => exact trivial
  · intro hok o b hb
    cases ha : w.db.orders.get? o with
    | none =>
      rw [get?_step_none env r ha] at hb
      cases hb
    | some a =>
      obtain ⟨c, hc, hw⟩ := rewrites_step env r ha
      rw [hb] at hc
      cases hc
      exact assigned_of_rewrites hw ha (h o a ha) hok

end Steps

/-! ## A run -/

/-- The fields of every assignment are coherent throughout a run exactly if each request of
it coheres. -/
theorem coherent_iff (env : Payment.Env) {w : World} (hsingle : Single w.db.tracking)
    (h : Coherent w) (rs : List Request) :
    Throughout (step env) Coherent w rs ↔ Stepwise (step env) (Coheres env) w rs := by
  -- the third part of the law is kept by every request, with the single tracking rows
  have hkept : ∀ pre : List Request,
      Tracked (run (step env) w pre).db ∧ Single (run (step env) w pre).db.tracking :=
    run_induction (I := fun w : World => Tracked w.db ∧ Single w.db.tracking)
      (fun _ r hw => tracked_step env r hw.2 hw.1) ⟨h.tracked, hsingle⟩
  have hiff := throughout_iff_stepwise (I := fun _ : World => True)
    (P := fun w : World => ∀ o a, w.db.orders.get? o = some a → Assigned a) (fun _ _ _ => trivial)
    (fun _ r _ hw => assigned_step_iff env r hw) trivial h.assigned rs
  rw [← hiff]
  exact ⟨fun hall pre hpre => (hall pre hpre).assigned,
    fun hall pre hpre => ⟨hall pre hpre, (hkept pre).1⟩⟩

/-! ## An order that is cancelled while it is on offer -/

/-- A packed order of user 7, and rider 1, user 9. -/
def packedOrder : World where
  db :=
    { Db.empty with
      orders := .ofList [{ (default : Order) with userId := 7, status := .packed }]
      deliveryPersons := .ofList [{ (default : DeliveryPerson) with userId := some 9 }] }
  now := 0

theorem coherent_packedOrder : Coherent packedOrder := by
  refine ⟨fun o a ha => ?_, fun r hr => absurd hr List.not_mem_nil⟩
  have hlt : o < 2 := Table.lt_next_of_get? ha
  have ho : o = 1 := by
    rcases Nat.eq_zero_or_pos o with rfl | hpos
    · cases ha
    · omega
  subst ho
  cases ha
  exact ⟨by decide, by decide⟩

theorem single_packedOrder : Single packedOrder.db.tracking :=
  fun _ hr => absurd hr List.not_mem_nil

/-- The order is offered, accepted, and brought. -/
theorem delivery_coherent : Throughout (step Payment.plainEnv) Coherent packedOrder
    [.offer 1 1, .accept 9 default 1, .trip 9 default 1 "picked_up", .deliver 9 default 1] :=
  (coherent_iff Payment.plainEnv single_packedOrder coherent_packedOrder _).2
    (stepwise_cons.2 ⟨trivial, stepwise_cons.2 ⟨trivial, stepwise_cons.2 ⟨trivial,
      stepwise_cons.2 ⟨trivial, stepwise_nil _ _⟩⟩⟩⟩)

/-- The order is offered, and its customer cancels it: the offer has an end, and there is none. -/
theorem offer_left_over : ¬ Throughout (step Payment.plainEnv) Coherent packedOrder
    [.offer 1 1, .cancel 7 1 "late"] := by
  intro h
  have hrow : ((run (step Payment.plainEnv) packedOrder
      [.offer 1 1, .cancel 7 1 "late"]).db.orders.get? 1).map
      (fun a => (a.offerExpiresAt, a.status)) = some (some 45, .cancelled) := by decide +kernel
  obtain ⟨a, ha, hpair⟩ := Option.map_eq_some_iff.1 hrow
  obtain ⟨hend, hst⟩ := Prod.mk.inj hpair
  have hoffered := (h.final.assigned 1 a ha).offer.1 (by rw [hend]; rfl)
  rw [hst] at hoffered
  cases hoffered

end Coherence

end Orders

end SweetCrust
