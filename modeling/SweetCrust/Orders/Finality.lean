import SweetCrust.Lib.Runs
import SweetCrust.Orders.World

/-!
# Are delivered and cancelled final?

A cancelled or rejected order should stay so, and a delivered one should only go on to a
requested return.  The kitchen, `create_return`, the webhook and a rider's answer to an
offer look at the status first; the others write theirs over whatever it is.

* `allowed_step_iff` — a request keeps final statuses exactly if it is not one of those that
  go through on an order in a final status (`Spares`).
* `finality_iff` — the same for a run.
* `closedOrder_reopened` — a run in which a cancelled order is delivered.
-/

namespace SweetCrust

open Tabular Session Runs

namespace Orders

/-! ## The law -/

/-- A status may follow another: nothing follows cancelled and rejected, and only a
requested return follows delivered. -/
def Allowed (st st' : OrderStatus) : Prop :=
  (st = .cancelled ∨ st = .rejected → st' = st) ∧
    (st = .delivered → st' = .delivered ∨ st' = .returnRequested)

instance (st st' : OrderStatus) : Decidable (Allowed st st') := inferInstanceAs (Decidable (_ ∧ _))

/-- A status that the law says something about. -/
def Terminal (st : OrderStatus) : Prop := st = .cancelled ∨ st = .rejected ∨ st = .delivered

instance (st : OrderStatus) : Decidable (Terminal st) := inferInstanceAs (Decidable (_ ∨ _))

/-- The status of an order. -/
def statusAt (w : World) (o : ℕ) : Option OrderStatus := (w.db.orders.get? o).map Order.status

/-- Over a run, a cancelled or rejected order stays so for good, and a delivered one stays
so until a return of it is requested. -/
structure Finality (env : Payment.Env) (w : World) (rs : List Request) : Prop where
  closed : ∀ pre mid o st, pre ++ mid <+: rs → st = .cancelled ∨ st = .rejected →
    statusAt (run (step env) w pre) o = some st →
      statusAt (run (step env) w (pre ++ mid)) o = some st
  delivered : ∀ pre mid o, pre ++ mid <+: rs →
    statusAt (run (step env) w pre) o = some .delivered →
      statusAt (run (step env) w (pre ++ mid)) o = some .delivered ∨
        ∃ part, part <+: mid ∧
          statusAt (run (step env) w (pre ++ part)) o = some .returnRequested

/-- The request does not go through on an order in a final status, or what it writes may
follow that status.  The requests left out look at the status themselves. -/
def Spares (env : Payment.Env) (w : World) : Request → Prop
  | .cancel u o _ => ∀ a, Payment.ownOrder w.db u o = some a → a.status ≠ .rejected
  | .admin o text _ p => ∀ a st, w.db.orders.get? o = some a →
      OrderStatus.ofValue? text = some st → StoreOps.RiderKnown w.db p → Allowed a.status st
  | .offer o p => ∀ a, w.db.orders.get? o = some a → StoreOps.RiderKnown w.db (some p) →
      ¬ Terminal a.status
  | .assign o p => ∀ a, w.db.orders.get? o = some a → StoreOps.RiderKnown w.db (some p) →
      ¬ Terminal a.status
  | .sales u o text _ => ∀ a st, (∃ i profile, Sell.MaySell w.db u w.now i profile) →
      StoreOps.soldOrder w.db u o = some a → OrderStatus.ofValue? text = some st →
      st ∈ StoreOps.shopStatuses → Allowed a.status st
  | .route o p => ∀ a, w.db.orders.get? o = some a → (w.db.deliveryPersons.get? p).isSome →
      ¬ Terminal a.status
  | .trip u user o text => ∀ a, Rider.Rides w.db (Rider.riderFor w.db u user) o a →
      Rider.stepKey text ∈ Rider.riderStatusSteps → ¬ Terminal a.status
  | .deliver u user o => ∀ a, Rider.Rides w.db (Rider.riderFor w.db u user) o a →
      a.status ≠ .cancelled ∧ a.status ≠ .rejected
  | .pay (.verify u o roid pid sig _) => ∀ a, Payment.Payable w.db u o a →
      Payment.verifyPaymentSignature env roid pid sig = true → ¬ Terminal a.status
  | .pay (.process u o method _ fail) => ∀ a chosen,
      Payment.Confirmable w.db u o method a chosen → fail = false → ¬ Terminal a.status
  | _ => True

/-! ## One request -/

section Steps

variable {env : Payment.Env} {w : World} {r : Request} {o : ℕ} {a b : Order} {st st' : OrderStatus}

theorem allowed_refl (st : OrderStatus) : Allowed st st := ⟨fun _ => rfl, Or.inl⟩

/-- Where the status is not final, anything may follow. -/
theorem allowed_of_not_terminal (h : ¬ Terminal st) (st' : OrderStatus) : Allowed st st' := by
  simp only [Terminal, not_or] at h
  exact ⟨fun hc => (hc.elim h.1 h.2.1).elim, fun hd => (h.2.2 hd).elim⟩

/-- A status that is not final itself may only follow one that is not final, except for a
requested return. -/
theorem not_terminal_of_allowed (h : Allowed st st') (hst' : ¬ Terminal st')
    (hreturn : st' ≠ .returnRequested) : ¬ Terminal st := by
  revert h hst' hreturn
  cases st <;> cases st' <;> decide

/-- A request that spares final statuses writes only what may follow. -/
theorem allowed_of_rewrites (hw : Rewrites env w o a r b) (ha : w.db.orders.get? o = some a)
    (h : Spares env w r) : Allowed a.status b.status := by
  cases hw with
  | same => exact allowed_refl _
  | cancel u reason hc =>
    have hrejected := h a (Payment.ownOrder_eq_some.2 ⟨ha, hc.1⟩)
    have hunder := hc.2
    show Allowed a.status .cancelled
    revert hrejected hunder
    cases a.status <;> decide
  | createReturn u data hd =>
    refine ⟨fun hc => ?_, fun _ => Or.inr rfl⟩
    rw [hd] at hc
    simp at hc
  | admin text note p status hst hp => exact h a status ha hst hp
  | offer p hp => exact allowed_of_not_terminal (h a ha hp) _
  | assign p hp => exact allowed_of_not_terminal (h a ha hp) _
  | sales u text note status hshop hsold hst hmem => exact h a status hshop hsold hst hmem
  | start hmem =>
    refine allowed_of_not_terminal ?_ _
    revert hmem
    cases a.status <;> decide
  | pack hmem =>
    refine allowed_of_not_terminal ?_ _
    revert hmem
    cases a.status <;> decide
  | route p hp => exact allowed_of_not_terminal (h a ha hp) _
  | accept u user hrider hopen =>
    rw [hopen.1]
    exact allowed_of_not_terminal (by decide) _
  | expire _ hexpired =>
    rw [hexpired.1]
    exact allowed_of_not_terminal (by decide) _
  | reject u user hrider hoffered =>
    rw [hoffered]
    exact allowed_of_not_terminal (by decide) _
  | atBakery => exact allowed_refl _
  | trip u user text status hrides hst hmem => exact allowed_of_not_terminal (h a hrides hmem) _
  | deliver u user hrides =>
    obtain ⟨hcancelled, hrejected⟩ := h a hrides
    exact ⟨fun hc => (hc.elim hcancelled hrejected).elim, fun _ => Or.inl rfl⟩
  | failed => exact allowed_refl _
  | verified u roid pid sig txn hpay hsig =>
    exact allowed_of_not_terminal (h a hpay hsig) _
  | confirmed u method upiId chosen hpay => exact allowed_of_not_terminal (h a chosen hpay rfl) _
  | reported =>
    show Allowed a.status (if a.status = .placed then .paymentReceived else a.status)
    cases a.status <;> decide
  | viaRazorpay => exact allowed_refl _

/-- What a request that writes to one order's row leaves of its status. -/
theorem allowed_of_write {f : Order → Order} {t : Db} (ht : t.orders = w.db.orders.modify o f)
    (ha : w.db.orders.get? o = some a)
    (hlaw : ∀ o a, w.db.orders.get? o = some a → ∃ b, t.orders.get? o = some b ∧
      Allowed a.status b.status) : Allowed a.status (f a).status := by
  obtain ⟨b, hb, hallowed⟩ := hlaw o a ha
  rw [ht, Table.get?_modify_self, ha, Option.map_some] at hb
  cases hb
  exact hallowed

/-- A request keeps final statuses exactly if it spares them. -/
theorem allowed_step_iff (env : Payment.Env) (w : World) (r : Request) :
    (∀ o a, w.db.orders.get? o = some a → ∃ b, (step env w r).db.orders.get? o = some b ∧
      Allowed a.status b.status) ↔ Spares env w r := by
  constructor
  · intro hlaw
    have hopen : ∀ {o f a}, (served env w r).orders = w.db.orders.modify o f →
        w.db.orders.get? o = some a → ¬ Terminal (f a).status →
          (f a).status ≠ .returnRequested → ¬ Terminal a.status := by
      intro o f a ht ha
      exact not_terminal_of_allowed (allowed_of_write ht ha hlaw)
    cases r with
    | cancel u o reason =>
      intro a hown hrejected
      obtain ⟨ha, huser⟩ := Payment.ownOrder_eq_some.1 hown
      have hc : OrderService.Cancels u a := ⟨huser, by rw [hrejected]; decide⟩
      have ht := congrArg Db.orders (OrderService.final_cancelOrder ha hc reason w.now)
      have hallowed := allowed_of_write ht ha hlaw
      have hstill : OrderStatus.cancelled = a.status := hallowed.1 (Or.inr hrejected)
      rw [hrejected] at hstill
      cases hstill
    | admin o text note p =>
      intro a st ha hst hp
      exact allowed_of_write (congrArg Db.orders (final_updateOrderStatus ha hst hp note w.now))
        ha hlaw
    | offer o p =>
      intro a ha hp
      exact hopen (congrArg Db.orders (final_updateOrderStatus ha
        (OrderStatus.ofValue?_value .deliveryOffered) hp _ w.now)) ha
        (by simp [StoreOps.setStatus, Terminal]) (by simp [StoreOps.setStatus])
    | assign o p =>
      intro a ha hp
      exact hopen (congrArg Db.orders (final_updateOrderStatus ha
        (OrderStatus.ofValue?_value .deliveryAssigned) hp _ w.now)) ha
        (by simp [StoreOps.setStatus, Terminal]) (by simp [StoreOps.setStatus])
    | sales u o text note =>
      rintro a st ⟨i, profile, hshop⟩ hsold hst hmem
      exact allowed_of_write (congrArg Db.orders (final_updateSalesStatus hshop hsold hst hmem note))
        (Option.filter_eq_some_iff.1 hsold).1 hlaw
    | route o p =>
      intro a ha hp
      exact hopen (orders_assign ha hp) ha (by simp [Routing.assigned, Terminal])
        (by simp [Routing.assigned])
    | trip u user o text =>
      intro a hrides hmem
      have ha := (Rider.riddenOrder_eq_some.1 hrides.1).1
      obtain ⟨st, hst, hstep⟩ := Rider.step_of_mem hmem
      refine hopen (Rider.orders_trip hrides hst hmem) ha ?_ ?_ <;>
        rcases hstep with rfl | rfl | rfl <;> simp [Terminal]
    | deliver u user o =>
      intro a hrides
      have hallowed := allowed_of_write (Rider.orders_markDelivered hrides w.now)
        (Rider.riddenOrder_eq_some.1 hrides.1).1 hlaw
      revert hallowed
      show Allowed a.status .delivered → _
      cases a.status <;> decide
    | pay call =>
      cases call with
      | create | webhook => exact trivial
      | verify u o roid pid sig txn =>
        intro a hpay hsig
        have ht := Payment.orders_razorpayVerify env hpay roid pid sig txn
        rw [if_pos hsig] at ht
        exact hopen ht (Payment.ownOrder_eq_some.1 hpay.own).1
          (by simp [Payment.receivedOrder, Terminal]) (by simp [Payment.receivedOrder])
      | process u o method upiId fail =>
        rintro a chosen hpay rfl
        exact hopen (Payment.orders_processPayment hpay upiId false)
          (Payment.ownOrder_eq_some.1 hpay.own).1
          (by simp [Payment.receivedOrder, Terminal]) (by simp [Payment.receivedOrder])
    | createReturn | start | pack | accept | reject | myOrders | wait => exact trivial
  · intro h o a ha
    obtain ⟨b, hb, hw⟩ := rewrites_step env r ha
    exact ⟨b, hb, allowed_of_rewrites hw ha h⟩

end Steps

/-! ## A run -/

section Runs

variable {env : Payment.Env} {w : World} {rs : List Request}

/-- From one state of a run to the next, every status is followed by one that may follow. -/
def StepsAllowed (env : Payment.Env) (w : World) (rs : List Request) : Prop :=
  Stepwise (step env) (fun w r => ∀ o a, w.db.orders.get? o = some a →
    ∃ b, (step env w r).db.orders.get? o = some b ∧ Allowed a.status b.status) w rs

theorem statusAt_eq_some {o : ℕ} {st : OrderStatus} :
    statusAt w o = some st ↔ ∃ a, w.db.orders.get? o = some a ∧ a.status = st := by
  simp [statusAt, Option.map_eq_some_iff]

/-- When every step is allowed, so is the whole run. -/
theorem finality_of_stepsAllowed (h : StepsAllowed env w rs) : Finality env w rs := by
  refine ⟨?_, ?_⟩
  · intro pre mid o st hpre hst hat
    induction mid using List.reverseRecOn with
    | nil => rwa [List.append_nil]
    | append_singleton mid r ih =>
      rw [← List.append_assoc] at hpre ⊢
      have hmid := ih ((List.prefix_append _ _).trans hpre)
      obtain ⟨a, ha, rfl⟩ := statusAt_eq_some.1 hmid
      obtain ⟨b, hb, hallowed⟩ := h _ r hpre o a ha
      rw [run_concat]
      exact statusAt_eq_some.2 ⟨b, hb, hallowed.1 hst⟩
  · intro pre mid o hpre hat
    induction mid using List.reverseRecOn with
    | nil => exact Or.inl (by rwa [List.append_nil])
    | append_singleton mid r ih =>
      rw [← List.append_assoc] at hpre ⊢
      rcases ih ((List.prefix_append _ _).trans hpre) with hmid | ⟨part, hpart, hreturned⟩
      · obtain ⟨a, ha, hdelivered⟩ := statusAt_eq_some.1 hmid
        obtain ⟨b, hb, hallowed⟩ := h _ r hpre o a ha
        rcases hallowed.2 hdelivered with hb' | hb'
        · exact Or.inl (by rw [run_concat]; exact statusAt_eq_some.2 ⟨b, hb, hb'⟩)
        · refine Or.inr ⟨mid ++ [r], List.prefix_refl _, ?_⟩
          rw [← List.append_assoc, run_concat]
          exact statusAt_eq_some.2 ⟨b, hb, hb'⟩
      · exact Or.inr ⟨part, hpart.trans (List.prefix_append _ _), hreturned⟩

theorem stepsAllowed_of_finality (h : Finality env w rs) : StepsAllowed env w rs := by
  intro pre r hpre o a ha
  obtain ⟨b, hb, -⟩ := rewrites_step env r ha
  have hbefore : statusAt (run (step env) w pre) o = some a.status := statusAt_eq_some.2 ⟨a, ha, rfl⟩
  have hafter : statusAt (run (step env) w (pre ++ [r])) o = some b.status := by
    rw [run_concat]
    exact statusAt_eq_some.2 ⟨b, hb, rfl⟩
  refine ⟨b, hb, fun hclosed => ?_, fun hdelivered => ?_⟩
  · have hstill := h.closed pre [r] o a.status hpre hclosed hbefore
    rw [hafter] at hstill
    exact Option.some.inj hstill
  · rw [hdelivered] at hbefore
    rcases h.delivered pre [r] o hpre hbefore with hstill | ⟨part, hpart, hreturned⟩
    · rw [hafter] at hstill
      exact Or.inl (Option.some.inj hstill)
    · -- the part of the run is empty, or all of it
      rcases List.prefix_cons_iff.1 hpart with rfl | ⟨rest, rfl, hrest⟩
      · rw [List.append_nil, hbefore] at hreturned
        cases hreturned
      · rw [List.prefix_nil.1 hrest, hafter] at hreturned
        exact Or.inr (Option.some.inj hreturned)

/-- Final statuses are final throughout a run exactly if each request of it spares them. -/
theorem finality_iff (env : Payment.Env) (w : World) (rs : List Request) :
    Finality env w rs ↔ Stepwise (step env) (Spares env) w rs := by
  have hsteps : StepsAllowed env w rs ↔ Stepwise (step env) (Spares env) w rs := by
    constructor
    · intro h pre r hpre
      exact (allowed_step_iff env _ r).1 (h pre r hpre)
    · intro h pre r hpre
      exact (allowed_step_iff env _ r).2 (h pre r hpre)
  rw [← hsteps]
  exact ⟨stepsAllowed_of_finality, finality_of_stepsAllowed⟩

end Runs

/-! ## A cancelled order that is delivered -/

/-- An order of user 7 that rider 1, user 9, runs. -/
def closedOrder : World where
  db :=
    { Db.empty with
      orders := .ofList
        [{ (default : Order) with
            userId := 7, status := .deliveryAssigned, deliveryPersonId := some 1 }]
      deliveryPersons := .ofList
        [{ (default : DeliveryPerson) with userId := some 9, phone := "9" }] }
  now := 0

/-- The customer cancels it, and the rider delivers it all the same. -/
theorem closedOrder_reopened :
    ¬ Finality Payment.plainEnv closedOrder
      [.cancel 7 1 "Changed mind", .deliver 9 default 1] := by
  intro h
  have hstill := h.closed [.cancel 7 1 "Changed mind"] [.deliver 9 default 1] 1 .cancelled
    (List.prefix_refl _) (Or.inl rfl) (by decide +kernel)
  revert hstill
  decide +kernel

end Orders

end SweetCrust
