import SweetCrust.Lib.Since
import SweetCrust.Orders.Coherence

/-!
# Where the rider is

The tracking row of an order says where its rider is.  It is made when the order first gets a
rider, at the bakery, or at no place where the routing service makes it; the rider's phone reports
the place from then on, and the bakery may correct it.  Both are broadcast as events too, where
Redis takes them.  The dispatch service names riders as well, and makes no row.

* `Map` — the database, with the places, and the events that were broadcast.
* `Dispatch.updateOrderStatus` — the status of an order, as the dispatch service changes it.
* `updateLocation`, `correctLocation` — the rider's report, and the bakery's.
* `shownAt_iff` — along every run, where a customer is shown the rider, from the calls.
* `live_agrees` — who follows the events knows what is shown, since the last report of the order was
  broadcast.
-/

namespace SweetCrust

open Tabular Session Text Runs

namespace Orders

/-! ## The dispatch service -/

namespace Dispatch

/-- An order as the dispatch service leaves it. -/
def setStatus (status : OrderStatus) (note : Option String) (deliveryPersonId : Option ℕ)
    (now : ℕ) (o : Order) : Order :=
  { o with
    status
    deliveryPersonId := deliveryPersonId.or o.deliveryPersonId
    internalNotes :=
      match truthy note with
      | some line => noted line o.internalNotes
      | none => o.internalNotes
    deliveredAt := if status = .delivered then some now else o.deliveredAt
    cancelledAt := if status = .cancelled then some now else o.cancelledAt
    cancelReason := if status = .cancelled then note else o.cancelReason }

/-- `update_order_status` of the dispatch service: the order's row as it is then.  A rider need not
exist. -/
def updateOrderStatus (orderId : ℕ) (status : String) (note : Option String)
    (deliveryPersonId : Option ℕ) (now : ℕ) : Service (Option Order) := do
  let db ← get
  let _ ← orRaise (db.orders.get? orderId) (.notFound "Order not found")
  let st ← orRaise (OrderStatus.ofValue? status) (.badRequest ("Invalid status: " ++ status))
  modify (writeOrder orderId (setStatus st note deliveryPersonId now))
  commit
  let db ← get
  return db.orders.get? orderId

/-- `assign`. -/
def assign (orderId deliveryPersonId now : ℕ) : Service (Option Order) :=
  updateOrderStatus orderId "delivery_assigned" none (some deliveryPersonId) now

end Dispatch

namespace Live

structure Spot where
  lat : ℚ
  lng : ℚ
  deriving DecidableEq

/-- The columns of a tracking row beside its order and its rider. -/
structure Progress where
  rider : Option Spot := none
  etaMinutes : Option ℤ := none
  distanceKm : Option ℚ := none
  deriving DecidableEq

/-- An event `delivery_location`; those of the bakery have no distance. -/
structure LocationEvent where
  orderId : ℕ
  spot : Spot
  etaMinutes : Option ℤ
  distanceKm : Option ℚ := none
  deliveryPersonId : Option ℕ
  deriving DecidableEq

structure Map where
  world : World
  /-- By the keys of the tracking rows. -/
  progress : ℕ → Progress := fun _ => {}
  /-- `current_lat` and `current_lng` of the riders. -/
  current : ℕ → Option Spot := fun _ => none
  feed : List LocationEvent := []

inductive Call
  /-- A request of the order services, with the place of the bakery in its settings. -/
  | order (request : Request) (bakery : Spot)
  /-- `update_status` and `assign` of the dispatch service. -/
  | dispatch (orderId : ℕ) (status : String) (note : Option String) (deliveryPersonId : Option ℕ)
  | dispatchAssign (orderId deliveryPersonId : ℕ)
  /-- A request that writes no tracking row, such as a checkout: what it makes of the other tables
  is open. -/
  | elsewhere (db : Db)
  /-- Reports, which Redis takes or not. -/
  | report (userId : ℕ) (user : User) (spot : Spot) (orderId : Option ℕ) (eta : Option ℤ)
    (distance : Option ℚ) (published : Bool)
  | correct (orderId : ℕ) (spot : Spot) (eta : Option ℤ) (published : Bool)

/-- The event of the call reaches Redis. -/
def Call.published : Call → Bool
  | .report _ _ _ _ _ _ published => published
  | .correct _ _ _ published => published
  | _ => false

/-- `emit_delivery_location`. -/
def emitDeliveryLocation (published : Bool) (e : LocationEvent) (feed : List LocationEvent) :
    List LocationEvent :=
  if published then feed ++ [e] else feed

/-- The tracking row of an order. -/
def trackOf (orderId : ℕ) (tracking : Table DeliveryTracking) : Option (ℕ × DeliveryTracking) :=
  tracking.first? fun t => t.orderId = orderId

/-- What a new row says: the routing service fills in nothing. -/
def newProgress (bakery : Spot) : Request → Progress
  | .route .. => {}
  | _ => { rider := some bakery, etaMinutes := some 35, distanceKm := some (42 / 10) }

/-- A row after a report. -/
def reported (spot : Spot) (eta : Option ℤ) (distance : Option ℚ) (p : Progress) : Progress where
  rider := some spot
  etaMinutes := eta.or p.etaMinutes
  distanceKm := distance.or p.distanceKm

/-- `update_location` of the rider. -/
def updateLocation (userId : ℕ) (user : User) (spot : Spot) (orderId : Option ℕ) (eta : Option ℤ)
    (distance : Option ℚ) (published : Bool) (m : Map) : Map :=
  let personId := Rider.riderFor m.world.db userId user
  let linked : Map :=
    { m with world := { m.world with db := Rider.withPerson userId user m.world.db } }
  let moved := { linked with current := Function.update m.current personId (some spot) }
  match truthyId orderId with
  | none => moved
  | some o =>
    match Rider.riddenOrder m.world.db personId o with
    -- "Order not assigned to you": only what `_person_for_user` committed is left
    | none => linked
    | some _ =>
      match trackOf o m.world.db.tracking with
      | none =>
        { moved with
          feed := emitDeliveryLocation published ⟨o, spot, eta, distance, some personId⟩ m.feed }
      | some (k, _) =>
        let now := reported spot eta distance (m.progress k)
        { moved with
          progress := Function.update m.progress k now
          feed := emitDeliveryLocation published
            ⟨o, spot, now.etaMinutes, now.distanceKm, some personId⟩ m.feed }

/-- `update_location` of the bakery. -/
def correctLocation (orderId : ℕ) (spot : Spot) (eta : Option ℤ) (published : Bool) (m : Map) :
    Map :=
  match trackOf orderId m.world.db.tracking with
  | none => m
  | some (k, row) =>
    let now := reported spot eta none (m.progress k)
    { m with
      progress := Function.update m.progress k now
      feed := emitDeliveryLocation published
        ⟨orderId, spot, now.etaMinutes, none, row.deliveryPersonId⟩ m.feed }

/-- A request of the order services; a row that it makes is new. -/
def serve (env : Payment.Env) (request : Request) (bakery : Spot) (m : Map) : Map :=
  { m with
    world := step env m.world request
    progress := fun k => if (m.world.db.tracking.get? k).isSome then m.progress k
      else newProgress bakery request }

/-- With another database. -/
def withDb (db : Db) (m : Map) : Map := { m with world := { m.world with db } }

def advance (env : Payment.Env) (m : Map) : Call → Map
  | .order request bakery => serve env request bakery m
  | .dispatch orderId status note p =>
    withDb (final (Dispatch.updateOrderStatus orderId status note p m.world.now) m.world.db) m
  | .dispatchAssign orderId p =>
    withDb (final (Dispatch.assign orderId p m.world.now) m.world.db) m
  | .elsewhere db => withDb { db with tracking := m.world.db.tracking } m
  | .report userId user spot orderId eta distance published =>
    updateLocation userId user spot orderId eta distance published m
  | .correct orderId spot eta published => correctLocation orderId spot eta published m

/-- What `track_order` shows of the tracking row of an order. -/
def shown (m : Map) (orderId : ℕ) : Option Progress :=
  (trackOf orderId m.world.db.tracking).map fun r => m.progress r.1

/-- The order has a tracking row. -/
def HasRow (m : Map) (orderId : ℕ) : Prop := (trackOf orderId m.world.db.tracking).isSome = true

/-- A report for the order that is taken: its rider's, or the bakery's. -/
inductive Reports (m : Map) (o : ℕ) (spot : Spot) : Call → Prop
  | rider {u : ℕ} {user : User} {orderId : Option ℕ} (eta : Option ℤ) (distance : Option ℚ)
      (horder : truthyId orderId = some o)
      (hrides : (Rider.riddenOrder m.world.db (Rider.riderFor m.world.db u user) o).isSome = true)
      (published : Bool) (hrow : HasRow m o) :
      Reports m o spot (.report u user spot orderId eta distance published)
  | bakery (eta : Option ℤ) (published : Bool) (hrow : HasRow m o) :
      Reports m o spot (.correct o spot eta published)

/-- The admin's update of an order writes its tracking row. -/
def TracksUpdate (w : World) (o : ℕ) (text : String) (deliveryPersonId : Option ℕ) : Prop :=
  ∃ order status, w.db.orders.get? o = some order ∧ OrderStatus.ofValue? text = some status ∧
    StoreOps.RiderKnown w.db deliveryPersonId ∧
    (StoreOps.trackedRider status deliveryPersonId order).isSome = true

/-- The request writes the tracking row of the order. -/
def Tracks (w : World) (o : ℕ) : Request → Prop
  | .admin k text _ p => k = o ∧ TracksUpdate w o text p
  | .offer k p => k = o ∧ TracksUpdate w o OrderStatus.deliveryOffered.value (some p)
  | .assign k p => k = o ∧ TracksUpdate w o OrderStatus.deliveryAssigned.value (some p)
  | .route k p => k = o ∧ (w.db.orders.get? o).isSome ∧ (w.db.deliveryPersons.get? p).isSome
  | _ => False

/-- The order gets its tracking row, at a place. -/
inductive Starts (m : Map) (o : ℕ) (spot : Spot) : Call → Prop
  | order (request : Request) (bakery : Spot) (hnone : ¬ HasRow m o)
      (htracks : Tracks m.world o request)
      (hspot : (newProgress bakery request).rider = some spot) :
      Starts m o spot (.order request bakery)

/-- The call puts the rider of the order at the place. -/
def Puts (o : ℕ) (spot : Spot) (m : Map) (c : Call) : Prop :=
  Reports m o spot c ∨ Starts m o spot c

/-- The call puts the rider of the order somewhere else. -/
def PutsElsewhere (o : ℕ) (spot : Spot) (m : Map) (c : Call) : Prop :=
  ∃ other, other ≠ spot ∧ Reports m o other c

/-! ## The rows that a request makes -/

section Rows

variable {env : Payment.Env} {w : World} {o : ℕ}

/-- The key of the row of an order stays, or the row is made. -/
theorem key_upsertTracking (o o' p : ℕ) (t : Table DeliveryTracking) :
    (trackOf o (upsertTracking o' p t)).map Prod.fst = (trackOf o t).map Prod.fst ∧
        (o' = o → (trackOf o t).isSome = true) ∨
      trackOf o t = none ∧ o' = o ∧
        (trackOf o (upsertTracking o' p t)).map Prod.fst = some t.next := by
  unfold upsertTracking trackOf
  cases hfirst : t.first? fun t => t.orderId = o' with
  | some r =>
    obtain ⟨k, row⟩ := r
    left
    simp only
    have hmodify := Table.first?_modify t (i := k) (p := fun t => decide (t.orderId = o))
      (f := fun t => { t with deliveryPersonId := some p }) fun a => rfl
    rw [hmodify]
    constructor
    · cases t.first? fun t => t.orderId = o <;> rfl
    · rintro rfl
      rw [hfirst]
      rfl
  | none =>
    simp only
    rw [Table.first?_insert]
    by_cases ho : o' = o
    · subst ho
      right
      rw [hfirst]
      simp
    · left
      simp [ho]

theorem tracking_update (w : World) (o : ℕ) (text : String) (note : Option String)
    (p : Option ℕ) :
    (TracksUpdate w o text p ∧ ∃ q,
        (final (StoreOps.updateOrderStatus o text note p w.now) w.db).tracking =
          upsertTracking o q w.db.tracking) ∨
      ¬ TracksUpdate w o text p ∧
        (final (StoreOps.updateOrderStatus o text note p w.now) w.db).tracking = w.db.tracking := by
  obtain ⟨a, status, ha, hst, hknown, hfinal⟩ | ⟨hnot, hfinal⟩ :=
    updateOrderStatus_cases o text note p w.now w.db
  · rw [hfinal]
    unfold StoreOps.statusUpdated
    cases hrider : StoreOps.trackedRider status p a with
    | none =>
      refine .inr ⟨?_, rfl⟩
      rintro ⟨a', status', ha', hst', -, hrider'⟩
      rw [ha] at ha'
      rw [hst] at hst'
      cases ha'
      cases hst'
      simp [hrider] at hrider'
    | some q => exact .inl ⟨⟨a, status, ha, hst, hknown, by rw [hrider]; rfl⟩, q, rfl⟩
  · rw [hfinal]
    refine .inr ⟨?_, rfl⟩
    rintro ⟨a, status, ha, hst, hknown, -⟩
    exact hnot a status ha hst hknown

/-- A request writes the row of one order, or leaves them all. -/
def WritesOne (env : Payment.Env) (w : World) (r : Request) : Prop :=
  (∃ o p, (∀ o', Tracks w o' r ↔ o' = o) ∧
      (step env w r).db.tracking = upsertTracking o p w.db.tracking) ∨
    (∀ o, ¬ Tracks w o r) ∧ (step env w r).db.tracking = w.db.tracking

theorem writesOne_update {r : Request} {text : String} {note : Option String} {p : Option ℕ}
    (htracks : ∀ o', Tracks w o' r ↔ o = o' ∧ TracksUpdate w o' text p)
    (hstep : (step env w r).db = final (StoreOps.updateOrderStatus o text note p w.now) w.db) :
    WritesOne env w r := by
  unfold WritesOne
  rw [hstep]
  obtain ⟨hupdate, q, htracking⟩ | ⟨hupdate, htracking⟩ := tracking_update w o text note p
  · refine .inl ⟨o, q, fun o' => (htracks o').trans ⟨fun h => h.1.symm, ?_⟩, htracking⟩
    rintro rfl
    exact ⟨rfl, hupdate⟩
  · refine .inr ⟨fun o' h => ?_, htracking⟩
    obtain ⟨rfl, h'⟩ := (htracks o').1 h
    exact hupdate h'

theorem tracking_step (env : Payment.Env) (w : World) (r : Request) : WritesOne env w r := by
  by_cases hr : Coherence.Names r
  · cases r with
    | admin o text note p => exact writesOne_update (fun _ => Iff.rfl) rfl
    | offer o p => exact writesOne_update (fun _ => Iff.rfl) rfl
    | assign o p => exact writesOne_update (fun _ => Iff.rfl) rfl
    | route o p =>
      obtain ⟨a, ha, hp, -, htracking⟩ | ⟨hnot, hfinal⟩ := assign_cases o p w.db
      · refine .inl ⟨o, p, fun o' => ⟨fun h => h.1.symm, ?_⟩, htracking⟩
        rintro rfl
        exact ⟨rfl, by rw [ha]; rfl, hp⟩
      · refine .inr ⟨?_, congrArg Db.tracking hfinal⟩
        rintro o' ⟨rfl, horder, hp⟩
        obtain ⟨a, ha⟩ := Option.isSome_iff_exists.1 horder
        exact hnot a ha hp
    | _ => exact absurd hr id
  · refine .inr ⟨fun o h => ?_, Coherence.tracking_served env w hr⟩
    cases r with
    | admin | offer | assign | route => exact hr trivial
    | _ => exact h

/-- The row of an order stays under its key, or it is made under a new one. -/
theorem key_step (env : Payment.Env) (w : World) (r : Request) (o : ℕ) :
    (trackOf o (step env w r).db.tracking).map Prod.fst = (trackOf o w.db.tracking).map Prod.fst ∧
        (Tracks w o r → (trackOf o w.db.tracking).isSome = true) ∨
      trackOf o w.db.tracking = none ∧ Tracks w o r ∧
        (trackOf o (step env w r).db.tracking).map Prod.fst = some w.db.tracking.next := by
  obtain ⟨o', p, htracks, hupsert⟩ | ⟨htracks, hsame⟩ := tracking_step env w r
  · rw [hupsert, htracks, eq_comm (a := o)]
    exact key_upsertTracking o o' p w.db.tracking
  · rw [hsame]
    exact .inl ⟨rfl, fun h => absurd h (htracks o)⟩

end Rows

/-! ## What is shown after a call -/

section Shown

variable {env : Payment.Env} {m : Map} {o k : ℕ}

theorem shown_eq_none_iff : shown m o = none ↔ ¬ HasRow m o := by
  simp [shown, HasRow, Option.isSome_iff_ne_none]

/-- A request leaves what is shown of an order with a row, and shows a new row as it is made. -/
theorem shown_serve (env : Payment.Env) (m : Map) (o : ℕ) (request : Request) (bakery : Spot) :
    shown (serve env request bakery m) o = shown m o ∧ (Tracks m.world o request → HasRow m o) ∨
      ¬ HasRow m o ∧ Tracks m.world o request ∧
        shown (serve env request bakery m) o = some (newProgress bakery request) := by
  have hshown : ∀ (m : Map), shown m o =
      ((trackOf o m.world.db.tracking).map Prod.fst).map m.progress := by
    intro m
    rw [shown, Option.map_map]
    rfl
  obtain ⟨hsame, htracks⟩ | ⟨hnone, htracks, hnew⟩ := key_step env m.world request o
  · refine .inl ⟨?_, htracks⟩
    rw [hshown, hshown]
    show Option.map _ ((trackOf o (step env m.world request).db.tracking).map Prod.fst) = _
    rw [hsame]
    cases hrow : trackOf o m.world.db.tracking with
    | none => rfl
    | some r =>
      -- the key of a row that was there is in the table
      have hget : m.world.db.tracking.get? r.1 = some r.2 := (Table.get?_of_first? hrow).1
      simp [serve, hget]
  · right
    have hget : m.world.db.tracking.get? m.world.db.tracking.next = none :=
      Table.get?_next m.world.db.tracking
    refine ⟨by simp [HasRow, hnone], htracks, ?_⟩
    rw [hshown]
    show Option.map _ ((trackOf o (step env m.world request).db.tracking).map Prod.fst) = _
    rw [hnew]
    simp [serve, hget]

/-- A row that is rewritten shows it, and the rows of other orders do not. -/
theorem shown_update {row : DeliveryTracking} (h : trackOf o m.world.db.tracking = some (k, row))
    {m' : Map} (htracking : m'.world.db.tracking = m.world.db.tracking) {now : Progress}
    (hprogress : m'.progress = Function.update m.progress k now) (o' : ℕ) :
    shown m' o' = if o' = o then some now else shown m o' := by
  unfold shown
  rw [htracking, hprogress]
  split_ifs with ho
  · rw [ho, h, Option.map_some, Function.update_self]
  · cases hother : trackOf o' m.world.db.tracking with
    | none => rfl
    | some r =>
      have hne : r.1 ≠ k := by
        intro hk
        obtain ⟨hget, hrow⟩ := Table.get?_of_first? h
        obtain ⟨hget', hrow'⟩ := Table.get?_of_first? hother
        rw [hk, hget] at hget'
        cases hget'
        simp only [decide_eq_true_eq] at hrow hrow'
        exact ho (hrow'.symm.trans hrow)
      rw [Option.map_some, Option.map_some, Function.update_of_ne hne]

/-- A call reports one place, for one order. -/
theorem Reports.unique {c : Call} {o o' : ℕ} {spot spot' : Spot} (h : Reports m o spot c)
    (h' : Reports m o' spot' c) : o' = o ∧ spot' = spot := by
  cases h with
  | rider eta distance horder hrides published hrow =>
    cases h' with
    | rider _ _ horder' _ _ _ =>
      rw [horder] at horder'
      cases horder'
      exact ⟨rfl, rfl⟩
  | bakery eta published hrow =>
    cases h'
    exact ⟨rfl, rfl⟩

/-- What a report does. -/
inductive Happens (m : Map) (c : Call) (m' : Map) : Prop
  /-- It is shown, and broadcast where Redis takes it. -/
  | taken (o : ℕ) (spot : Spot) (now : Progress) (e : LocationEvent) (hreports : Reports m o spot c)
      (hshown : ∀ o', shown m' o' = if o' = o then some now else shown m o')
      (hspot : now.rider = some spot) (hfeed : m'.feed = emitDeliveryLocation c.published e m.feed)
      (hevent : e.orderId = o ∧ e.spot = spot ∧ e.etaMinutes = now.etaMinutes)
  /-- It is broadcast only: the order has no row. -/
  | unseen (o : ℕ) (e : LocationEvent) (hrow : ¬ HasRow m o) (horder : e.orderId = o)
      (hnone : ∀ o' spot, ¬ Reports m o' spot c) (hshown : ∀ o', shown m' o' = shown m o')
      (hfeed : m'.feed = emitDeliveryLocation c.published e m.feed)
  | nothing (hnone : ∀ o spot, ¬ Reports m o spot c) (hshown : ∀ o, shown m' o = shown m o)
      (hfeed : m'.feed = m.feed)

theorem tracking_withPerson (u : ℕ) (user : User) (db : Db) :
    (Rider.withPerson u user db).tracking = db.tracking := by
  unfold Rider.withPerson
  split <;> rfl

theorem shown_of_same {m' : Map} (htracking : m'.world.db.tracking = m.world.db.tracking)
    (hprogress : m'.progress = m.progress) (o : ℕ) : shown m' o = shown m o := by
  unfold shown
  rw [htracking, hprogress]

theorem happens_updateLocation (u : ℕ) (user : User) (spot : Spot) (orderId : Option ℕ)
    (eta : Option ℤ) (distance : Option ℚ) (published : Bool) (m : Map) :
    Happens m (.report u user spot orderId eta distance published)
      (updateLocation u user spot orderId eta distance published m) := by
  have hreported : ∀ o' spot',
      Reports m o' spot' (.report u user spot orderId eta distance published) →
      truthyId orderId = some o' ∧ (Rider.riddenOrder m.world.db
        (Rider.riderFor m.world.db u user) o').isSome = true ∧ HasRow m o' := by
    rintro o' spot' ⟨-, -, horder, hrides, -, hrow⟩
    exact ⟨horder, hrides, hrow⟩
  unfold updateLocation
  cases horder : truthyId orderId with
  | none =>
    refine .nothing (fun o' spot' h => ?_) (shown_of_same (tracking_withPerson ..) rfl) rfl
    have hsome := (hreported o' spot' h).1
    rw [horder] at hsome
    cases hsome
  | some o =>
    cases hrides : Rider.riddenOrder m.world.db (Rider.riderFor m.world.db u user) o with
    | none =>
      simp only [hrides]
      refine .nothing (fun o' spot' h => ?_) (shown_of_same (tracking_withPerson ..) rfl) rfl
      obtain ⟨ho', hrides', -⟩ := hreported o' spot' h
      rw [horder] at ho'
      cases ho'
      simp [hrides] at hrides'
    | some a =>
      simp only [hrides]
      cases hrow : trackOf o m.world.db.tracking with
      | none =>
        refine .unseen o _ (by simp [HasRow, hrow]) rfl (fun o' spot' h => ?_)
          (shown_of_same (tracking_withPerson ..) rfl) rfl
        obtain ⟨ho', -, hrow'⟩ := hreported o' spot' h
        rw [horder] at ho'
        cases ho'
        simp [HasRow, hrow] at hrow'
      | some r =>
        refine .taken o spot (reported spot eta distance (m.progress r.1)) _ ?_
          (shown_update hrow (tracking_withPerson ..) rfl) rfl rfl ⟨rfl, rfl, rfl⟩
        exact .rider eta distance horder (by rw [hrides]; rfl) published (by simp [HasRow, hrow])

theorem happens_correctLocation (o : ℕ) (spot : Spot) (eta : Option ℤ) (published : Bool)
    (m : Map) :
    Happens m (.correct o spot eta published) (correctLocation o spot eta published m) := by
  cases hrow : trackOf o m.world.db.tracking with
  | none =>
    have hsame : correctLocation o spot eta published m = m := by simp only [correctLocation, hrow]
    rw [hsame]
    refine .nothing (fun o' spot' h => ?_) (fun _ => rfl) rfl
    cases h with
    | bakery _ _ hrow' => simp [HasRow, hrow] at hrow'
  | some r =>
    obtain ⟨k, row⟩ := r
    simp only [correctLocation, hrow]
    exact .taken o spot (reported spot eta none (m.progress k)) _
      (.bakery eta published (by simp [HasRow, hrow])) (shown_update hrow (by rfl) (by rfl)) rfl rfl
      ⟨rfl, rfl, rfl⟩

theorem tracking_dispatch (o : ℕ) (text : String) (note : Option String) (p : Option ℕ) (now : ℕ)
    (db : Db) :
    (final (Dispatch.updateOrderStatus o text note p now) db).tracking = db.tracking := by
  have hkeeps : Keeps (fun t : Db => t.tracking = db.tracking)
      (Dispatch.updateOrderStatus o text note p now) := by
    unfold Dispatch.updateOrderStatus
    refine keeps_get_bind fun _ => (keeps_orRaise _ _).bind fun _ => ?_
    refine (keeps_orRaise _ _).bind fun st => Keeps.bind (keeps_modify fun _ h => h) fun _ => ?_
    exact keeps_commit.bind fun _ => keeps_get_bind fun _ => keeps_pure _
  exact hkeeps.final rfl

/-- The call is not one of the requests that may make a row. -/
def Call.Rowless : Call → Prop
  | .order .. => False
  | _ => True

theorem happens_advance (env : Payment.Env) (m : Map) (c : Call) (hc : c.Rowless) :
    Happens m c (advance env m c) := by
  have hdb : ∀ {db : Db}, db.tracking = m.world.db.tracking →
      (∀ o spot, ¬ Reports m o spot c) → Happens m c (withDb db m) := fun htracking hnone =>
    .nothing hnone (shown_of_same htracking rfl) rfl
  cases c with
  | order request bakery => exact hc.elim
  | dispatch o status note p => exact hdb (tracking_dispatch ..) fun _ _ h => nomatch h
  | dispatchAssign o p => exact hdb (tracking_dispatch ..) fun _ _ h => nomatch h
  | elsewhere db => exact hdb rfl fun _ _ h => nomatch h
  | report u user spot orderId eta distance published =>
    exact happens_updateLocation u user spot orderId eta distance published m
  | correct o spot eta published => exact happens_correctLocation o spot eta published m

end Shown

/-! ## Where a customer is shown the rider -/

section Place

variable {env : Payment.Env} {m : Map} {o : ℕ} {spot : Spot} {c : Call}

/-- The place at which a customer is shown the rider. -/
def shownAt (m : Map) (orderId : ℕ) : Option Spot := (shown m orderId).bind Progress.rider

/-- What a call does to the place. -/
inductive Moves (m : Map) (o : ℕ) (c : Call) (m' : Map) : Prop
  | reported (spot : Spot) (hreports : Reports m o spot c) (hat : shownAt m' o = some spot)
  /-- The row is made. -/
  | started (hreports : ∀ other, ¬ Reports m o other c) (hnone : shownAt m o = none)
      (hstarts : ∀ other, Starts m o other c ↔ shownAt m' o = some other)
  | kept (hreports : ∀ other, ¬ Reports m o other c) (hstarts : ∀ other, ¬ Starts m o other c)
      (hsame : shownAt m' o = shownAt m o)

theorem moves_of_happens {m' : Map} (h : Happens m c m')
    (hstarts : ∀ other, ¬ Starts m o other c) : Moves m o c m' := by
  have hkept : shown m' o = shown m o → shownAt m' o = shownAt m o := by
    intro hsame
    rw [shownAt, hsame, shownAt]
  cases h with
  | taken o' spot' now e hreports hshown hspot hfeed hevent =>
    by_cases ho : o = o'
    · subst ho
      refine .reported spot' hreports ?_
      rw [shownAt, hshown, if_pos rfl, Option.bind_some, hspot]
    · refine .kept (fun other hother => ho (hreports.unique hother).1) hstarts (hkept ?_)
      rw [hshown, if_neg ho]
  | unseen o' e hrow horder hnone hshown hfeed =>
    exact .kept (hnone o) hstarts (hkept (hshown o))
  | nothing hnone hshown hfeed => exact .kept (hnone o) hstarts (hkept (hshown o))

theorem moves_serve (env : Payment.Env) (m : Map) (o : ℕ) (request : Request) (bakery : Spot) :
    Moves m o (.order request bakery) (serve env request bakery m) := by
  have hreports : ∀ other, ¬ Reports m o other (.order request bakery) := by
    intro other h
    cases h
  obtain ⟨hsame, htracks⟩ | ⟨hnone, htracks, hnew⟩ := shown_serve env m o request bakery
  · refine .kept hreports (fun other h => ?_) (by rw [shownAt, hsame, shownAt])
    cases h with
    | order _ _ hnone htracks' _ => exact hnone (htracks htracks')
  · refine .started hreports (by rw [shownAt, shown_eq_none_iff.2 hnone]; rfl) fun other => ?_
    rw [shownAt, hnew, Option.bind_some]
    constructor
    · intro h
      cases h with
      | order _ _ _ _ hspot => exact hspot
    · exact .order request bakery hnone htracks

theorem moves_advance (env : Payment.Env) (m : Map) (o : ℕ) (c : Call) :
    Moves m o c (advance env m c) := by
  cases c with
  | order request bakery => exact moves_serve env m o request bakery
  | _ => exact moves_of_happens (happens_advance env m _ trivial) fun other h => nomatch h

theorem switch_shownAt (env : Payment.Env) (o : ℕ) (spot : Spot) :
    Switch (advance env) (fun _ => True) (fun m => shownAt m o = some spot) (Puts o spot)
      (PutsElsewhere o spot) where
  keeps _ _ _ := trivial
  on {m c} _ hputs := by
    cases moves_advance env m o c with
    | reported other hother hat =>
      obtain hreports | hstarts := hputs
      · rw [hat, (hother.unique hreports).2]
      · -- a call that makes a row reports nothing
        cases hstarts
        cases hother
    | started hreports hnone hstarts =>
      exact (hstarts spot).1 (hputs.resolve_left (hreports spot))
    | kept hreports hstarts hsame => exact absurd hputs (not_or.2 ⟨hreports spot, hstarts spot⟩)
  off {m c} _ helse hspot := by
    obtain ⟨other, hne, hother⟩ := helse
    cases moves_advance env m o c with
    | reported place hplace hat =>
      rw [hat, (hother.unique hplace).2] at hspot
      exact hne (Option.some.inj hspot)
    | started hreports hnone hstarts => exact hreports other hother
    | kept hreports hstarts hsame => exact hreports other hother
  stays {m c} _ hputs helse := by
    cases moves_advance env m o c with
    | reported other hother hat =>
      by_cases hspot : other = spot
      · exact absurd (.inl (hspot ▸ hother)) hputs
      · exact absurd ⟨other, hspot, hother⟩ helse
    | started hreports hnone hstarts =>
      rw [hnone, ← hstarts spot]
      exact iff_of_false (fun hstart => hputs (.inr hstart)) (by simp)
    | kept hreports hstarts hsame => rw [hsame]

/-- Along every run of requests, reports and corrections, a customer is shown the rider at a place
exactly if the last call to put the rider of the order anywhere put it there. -/
theorem shownAt_iff (env : Payment.Env) (m : Map) (calls : List Call) (o : ℕ) (spot : Spot) :
    shownAt (run (advance env) m calls) o = some spot ↔
      Since (advance env) (Puts o spot) (PutsElsewhere o spot) m calls ∨
        shownAt m o = some spot ∧
          Stepwise (advance env) (fun m c => ¬ PutsElsewhere o spot m c) m calls :=
  (switch_shownAt env o spot).on_iff trivial calls

end Place

/-! ## The feed -/

section Feed

variable {env : Payment.Env} {m : Map} {o : ℕ}

/-- The last event about an order. -/
def lastEvent (feed : List LocationEvent) (orderId : ℕ) : Option LocationEvent :=
  (feed.filter fun e => e.orderId = orderId).getLast?

theorem lastEvent_concat (feed : List LocationEvent) (e : LocationEvent) (o : ℕ) :
    lastEvent (feed ++ [e]) o = if e.orderId = o then some e else lastEvent feed o := by
  unfold lastEvent
  rw [List.filter_append]
  split_ifs with ho
  · simp [ho]
  · simp [ho]

/-- The event says what is shown. -/
def Says (e : LocationEvent) (p : Progress) : Prop :=
  p.rider = some e.spot ∧ p.etaMinutes = e.etaMinutes

/-- A report for the order is taken, and broadcast. -/
def Broadcasts (o : ℕ) (m : Map) (c : Call) : Prop :=
  ∃ spot, Reports m o spot c ∧ c.published = true

/-- A report for the order is taken, and Redis does not take the event. -/
def Lost (o : ℕ) (m : Map) (c : Call) : Prop := ∃ spot, Reports m o spot c ∧ c.published = false

/-- The last event about the order says what is shown. -/
def Agrees (o : ℕ) (m : Map) : Prop :=
  ∃ e p, lastEvent m.feed o = some e ∧ shown m o = some p ∧ Says e p

theorem lastEvent_emit (published : Bool) (e : LocationEvent) (feed : List LocationEvent) {o : ℕ}
    (ho : e.orderId ≠ o) :
    lastEvent (emitDeliveryLocation published e feed) o = lastEvent feed o := by
  unfold emitDeliveryLocation
  split_ifs
  · rw [lastEvent_concat, if_neg ho]
  · rfl

theorem Agrees.of_same {m' : Map} (h : Agrees o m)
    (hlast : lastEvent m'.feed o = lastEvent m.feed o) (hshown : shown m' o = shown m o) :
    Agrees o m' := by
  obtain ⟨e, p, he, hp, hsays⟩ := h
  exact ⟨e, p, hlast.trans he, hshown.trans hp, hsays⟩

theorem Agrees.hasRow (h : Agrees o m) : HasRow m o := by
  obtain ⟨e, p, -, hp, -⟩ := h
  by_contra hrow
  rw [shown_eq_none_iff.2 hrow] at hp
  cases hp

theorem agrees_of_broadcasts (env : Payment.Env) {c : Call} (h : Broadcasts o m c) :
    Agrees o (advance env m c) := by
  obtain ⟨spot, hreports, hpublished⟩ := h
  have hrowless : c.Rowless := by
    cases hreports <;> trivial
  cases happens_advance env m c hrowless with
  | taken k spot' now e hreports' hshown hspot hfeed hevent =>
    obtain ⟨rfl, rfl⟩ := hreports'.unique hreports
    obtain ⟨horder, hplace, heta⟩ := hevent
    refine ⟨e, now, ?_, by rw [hshown, if_pos rfl], by rw [hspot, hplace], heta.symm⟩
    rw [hfeed, emitDeliveryLocation, if_pos hpublished, lastEvent_concat, if_pos horder]
  | unseen k e hrow horder hnone hshown hfeed => exact absurd hreports (hnone o spot)
  | nothing hnone hshown hfeed => exact absurd hreports (hnone o spot)

theorem agrees_advance (env : Payment.Env) {c : Call} (h : Agrees o m) (hlost : ¬ Lost o m c) :
    Agrees o (advance env m c) := by
  by_cases hrowless : c.Rowless
  · cases happens_advance env m c hrowless with
    | taken k spot now e hreports hshown hspot hfeed hevent =>
      by_cases ho : k = o
      · subst ho
        have hpublished : c.published = true := by
          by_contra hnot
          exact hlost ⟨spot, hreports, by simpa using hnot⟩
        exact agrees_of_broadcasts env ⟨spot, hreports, hpublished⟩
      · refine h.of_same ?_ (by rw [hshown, if_neg fun heq => ho heq.symm])
        rw [hfeed, lastEvent_emit _ _ _ (by rw [hevent.1]; exact ho)]
    | unseen k e hrow horder hnone hshown hfeed =>
      -- the order of the event has no row, and the order `o` has one
      have hne : e.orderId ≠ o := by
        rintro rfl
        exact hrow (horder ▸ h.hasRow)
      exact h.of_same (by rw [hfeed, lastEvent_emit _ _ _ hne]) (hshown o)
    | nothing hnone hshown hfeed => exact h.of_same (by rw [hfeed]) (hshown o)
  · cases c with
    | order request bakery =>
      obtain ⟨hsame, -⟩ | ⟨hnone, -, -⟩ := shown_serve env m o request bakery
      · exact h.of_same rfl hsame
      · exact absurd h.hasRow hnone
    | _ => exact absurd trivial hrowless

/-- In every run, where the last report that was taken for an order was broadcast, the last event
about it says where its rider is shown, and when it is there, whatever was requested since. -/
theorem live_agrees (env : Payment.Env) (m : Map) (calls : List Call) (o : ℕ)
    (h : Since (advance env) (Broadcasts o) (Lost o) m calls) :
    ∃ e p, lastEvent (run (advance env) m calls).feed o = some e ∧
      shown (run (advance env) m calls) o = some p ∧ p.rider = some e.spot ∧
      p.etaMinutes = e.etaMinutes :=
  h.holds (agrees_of_broadcasts env) fun hagrees hlost => agrees_advance env hagrees hlost

/-- An order that is packed, before it has a rider. -/
def packedMap : Map where
  world := Coherence.packedOrder

/-- The rider sets out, and the first report is lost; the bakery corrects the place, and an hour
passes. -/
def broughtRun : List Call :=
  [.order (.offer 1 1) ⟨19, 73⟩, .report 9 default ⟨19, 74⟩ (some 1) (some 30) none false,
    .correct 1 ⟨20, 74⟩ none true, .order (.wait 3600) ⟨19, 73⟩]

theorem live_agrees_packed :
    ∃ e p, lastEvent (run (advance Payment.plainEnv) packedMap broughtRun).feed 1 = some e ∧
      shown (run (advance Payment.plainEnv) packedMap broughtRun) 1 = some p ∧
      p.rider = some e.spot ∧ p.etaMinutes = e.etaMinutes := by
  refine live_agrees Payment.plainEnv packedMap broughtRun 1 ⟨broughtRun.take 2, _, _, rfl, ?_, ?_⟩
  · exact ⟨_, .bakery none true (by unfold HasRow; decide +kernel), rfl⟩
  · refine stepwise_cons.2 ⟨?_, stepwise_nil _ _⟩
    rintro ⟨spot, hreports, -⟩
    cases hreports

/-- What it says. -/
example : (lastEvent (run (advance Payment.plainEnv) packedMap broughtRun).feed 1).map
    (fun e => (e.spot, e.etaMinutes)) = some (⟨20, 74⟩, some 30) := by decide +kernel

end Feed

end Live

end Orders

end SweetCrust
