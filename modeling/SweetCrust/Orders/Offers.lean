import SweetCrust.Orders.Finality

/-!
# Delivery offers

The admin offers an order to a rider for a while, or assigns it; the rider accepts or
rejects, and an offer that ran out is taken back when somebody looks at it.  An offer and
an assignment write over the one before.

* `latestOffer` — the offer of an order that was made last in a run.
* `offered_latest` — while an order is offered, its row is that offer.
* `rider_of_rewrites` — an order comes to name a rider only through a request that does.
* `offerProtocol` — who can accept, and that nobody can go on with an order that was
  offered to him and is not his any more.
-/

namespace SweetCrust

open Tabular Session Runs

namespace Orders

/-! ## Offers -/

/-- Who is offered an order, and until when. -/
structure Offer where
  rider : Option ℕ
  expiresAt : Option ℕ
  deriving DecidableEq

/-- The offer that the row of an order holds. -/
def Offer.ofRow (a : Order) : Offer := ⟨a.deliveryPersonId, a.offerExpiresAt⟩

/-- The offer that a request makes of an order, if it goes through.  Without a rider named,
the order is offered to the one it has. -/
def offerMade (w : World) (o : ℕ) : Request → Option Offer
  | .admin k text _ p =>
    if k = o ∧ OrderStatus.ofValue? text = some .deliveryOffered ∧ StoreOps.RiderKnown w.db p then
      (w.db.orders.get? o).map fun a =>
        ⟨p.or a.deliveryPersonId, some (w.now + StoreOps.offerTtlSec)⟩
    else none
  | .offer k p =>
    if k = o ∧ StoreOps.RiderKnown w.db (some p) then
      (w.db.orders.get? o).map fun _ => ⟨some p, some (w.now + StoreOps.offerTtlSec)⟩
    else none
  | _ => none

/-- The offer that is open at the start. -/
def openOffer (w : World) (o : ℕ) : Option Offer :=
  ((w.db.orders.get? o).filter fun a => a.status = .deliveryOffered).map Offer.ofRow

/-- The offer made last, when `last` was the one before the run. -/
def latestFrom (env : Payment.Env) (o : ℕ) : Option Offer → World → List Request → Option Offer
  | last, _, [] => last
  | last, w, r :: rs => latestFrom env o ((offerMade w o r).or last) (step env w r) rs

/-- The offer of an order that was made last in a run. -/
def latestOffer (env : Payment.Env) (w : World) (rs : List Request) (o : ℕ) : Option Offer :=
  latestFrom env o (openOffer w o) w rs

/-- The request offers or assigns the order to the rider, and is not refused. -/
def Names (w : World) (o p : ℕ) : Request → Prop
  | .admin k text _ q => k = o ∧ q = some p ∧ (OrderStatus.ofValue? text).isSome ∧
      StoreOps.RiderKnown w.db q
  | .offer k q => k = o ∧ q = p ∧ StoreOps.RiderKnown w.db (some q)
  | .assign k q => k = o ∧ q = p ∧ StoreOps.RiderKnown w.db (some q)
  | .route k q => k = o ∧ q = p ∧ (w.db.deliveryPersons.get? q).isSome
  | _ => False

/-- The order is offered to the rider. -/
def OfferedTo (w : World) (o p : ℕ) : Prop :=
  ∃ a, w.db.orders.get? o = some a ∧ a.status = .deliveryOffered ∧ a.deliveryPersonId = some p

/-- The offer of an order ran out. -/
def RanOut (w : World) (o : ℕ) : Prop :=
  ∀ a, w.db.orders.get? o = some a → Rider.OfferExpired w.now a

/-- A request that ends the offer of order `o` to rider `p`. -/
inductive Ends (w : World) (o p : ℕ) : Request → Prop
  | rejected (u : ℕ) (user : User) (h : Rider.riderFor w.db u user = p) :
      Ends w o p (.reject u user o)
  | expiredOnAccept (u : ℕ) (user : User) (h : Rider.riderFor w.db u user = p)
      (hout : RanOut w o) : Ends w o p (.accept u user o)
  | expiredOnLook (u : ℕ) (user : User) (h : Rider.riderFor w.db u user = p) (hout : RanOut w o)
      (hnew : o ∈ Rider.newestOrders w.db p) : Ends w o p (.myOrders u user)
  | renamed (text : String) (note : Option String) (q : ℕ) (hne : q ≠ p)
      (hst : (OrderStatus.ofValue? text).isSome) (hq : StoreOps.RiderKnown w.db (some q)) :
      Ends w o p (.admin o text note (some q))
  | reoffered (q : ℕ) (hne : q ≠ p) (hq : StoreOps.RiderKnown w.db (some q)) :
      Ends w o p (.offer o q)
  | reassigned (q : ℕ) (hne : q ≠ p) (hq : StoreOps.RiderKnown w.db (some q)) :
      Ends w o p (.assign o q)
  | rerouted (q : ℕ) (hne : q ≠ p) (hq : (w.db.deliveryPersons.get? q).isSome) :
      Ends w o p (.route o q)

/-- The request is a call of the rider on the order: to accept it, or on its way. -/
def CallsOn (w : World) (o p : ℕ) : Request → Prop
  | .accept u user k => k = o ∧ Rider.riderFor w.db u user = p
  | .trip u user k _ => k = o ∧ Rider.riderFor w.db u user = p
  | .deliver u user k => k = o ∧ Rider.riderFor w.db u user = p
  | _ => False

/-- The call of a rider is answered, not refused. -/
def Succeeds (w : World) : Request → Prop
  | .accept u user o => ∃ r, (Rider.acceptOrder u user o w.now w.db).2 = .ok r
  | .trip u user o text => ∃ r, (Rider.updateOrderStatus u user o text w.db).2 = .ok r
  | .deliver u user o => ∃ r, (Rider.markDelivered u user o w.now w.db).2 = .ok r
  | _ => True

/-- The delivery offer protocol, over a run. -/
structure OfferProtocol (env : Payment.Env) (w : World) (rs : List Request) : Prop where
  /-- An accepted order was on offer, to this rider, and the offer had not run out. -/
  accepted : ∀ pre u user k o, pre ++ [.accept u user k] <+: rs →
    statusAt (run (step env) w pre) o ≠ some .deliveryAssigned →
    statusAt (run (step env) w (pre ++ [.accept u user k])) o = some .deliveryAssigned →
      k = o ∧ statusAt (run (step env) w pre) o = some .deliveryOffered ∧
        ∃ offer t, latestOffer env w pre o = some offer ∧
          offer.rider = some (Rider.riderFor (run (step env) w pre).db u user) ∧
          offer.expiresAt = some t ∧ (run (step env) w pre).now < t
  /-- Once an offer has ended, the rider's calls are refused until he is named again. -/
  ended : ∀ pre r mid c o p, pre ++ r :: mid ++ [c] <+: rs →
    OfferedTo (run (step env) w pre) o p → Ends (run (step env) w pre) o p r →
    Stepwise (step env) (fun t m => ¬ Names t o p m) (run (step env) w (pre ++ [r])) mid →
    CallsOn (run (step env) w (pre ++ r :: mid)) o p c →
      ¬ Succeeds (run (step env) w (pre ++ r :: mid)) c

/-! ## The row of an order on offer -/

section Rows

variable {env : Payment.Env} {w : World} {r : Request} {o p : ℕ} {a b : Order} {offer : Offer}

/-- A request that makes an offer writes it into the row. -/
theorem row_of_offerMade (h : offerMade w o r = some offer)
    (hb : (step env w r).db.orders.get? o = some b) :
    b.status = .deliveryOffered ∧ offer = Offer.ofRow b := by
  have hadmin : ∀ text note q, OrderStatus.ofValue? text = some .deliveryOffered →
      StoreOps.RiderKnown w.db q → ∀ a, w.db.orders.get? o = some a →
      (final (StoreOps.updateOrderStatus o text note q w.now) w.db).orders.get? o = some b →
        b = StoreOps.setStatus .deliveryOffered note q w.now a := by
    intro text note q hst hq a ha hb
    rw [final_updateOrderStatus ha hst hq note w.now] at hb
    have hget : (w.db.orders.modify o _).get? o = some b := hb
    rw [Table.get?_modify_self, ha, Option.map_some] at hget
    exact (Option.some.inj hget).symm
  cases r with
  | admin k text note q =>
    simp only [offerMade] at h
    split_ifs at h with hguard
    obtain ⟨rfl, hst, hq⟩ := hguard
    obtain ⟨a, ha, rfl⟩ := Option.map_eq_some_iff.1 h
    rw [hadmin text note q hst hq a ha hb]
    exact ⟨rfl, rfl⟩
  | offer k q =>
    simp only [offerMade] at h
    split_ifs at h with hguard
    obtain ⟨rfl, hq⟩ := hguard
    obtain ⟨a, ha, rfl⟩ := Option.map_eq_some_iff.1 h
    rw [hadmin _ _ _ (OrderStatus.ofValue?_value _) hq a ha hb]
    exact ⟨rfl, rfl⟩
  | _ => cases h

/-- A request that makes no offer leaves no order on offer but one that was, to the same
rider and as long. -/
theorem offered_of_rewrites (h : Rewrites env w o a r b) (ha : w.db.orders.get? o = some a)
    (hnone : offerMade w o r = none) (hb : b.status = .deliveryOffered) :
    a.status = .deliveryOffered ∧ Offer.ofRow b = Offer.ofRow a := by
  cases h with
  | same | failed | viaRazorpay => exact ⟨hb, rfl⟩
  | admin text note q status hst hq =>
    have hstatus : status = .deliveryOffered := hb
    simp [offerMade, hst, hstatus, hq, ha] at hnone
  | offer q hq => simp [offerMade, hq, ha] at hnone
  | sales u text note status hshop hsold hst hmem =>
    have hstatus : status = .deliveryOffered := hb
    rw [hstatus] at hmem
    exact absurd hmem (by decide)
  | atBakery u user text hrides => exact absurd hb hrides.2
  | trip u user text status hrides hst hmem =>
    have hstatus : status = .deliveryOffered := hb
    obtain ⟨st, hst', hstep⟩ := Rider.step_of_mem hmem
    rw [hst] at hst'
    cases hst'
    rw [hstatus] at hstep
    exact absurd hstep (by decide)
  | reported =>
    have hstatus : (if a.status = .placed then OrderStatus.paymentReceived else a.status) =
        .deliveryOffered := hb
    split_ifs at hstatus
    exact ⟨hstatus, rfl⟩
  | cancel | createReturn | assign | start | pack | route | accept | expire | reject | deliver
    | verified | confirmed => cases hb

/-- An order comes to name a rider only through a request that names him. -/
theorem rider_of_rewrites (h : Rewrites env w o a r b) (hb : b.deliveryPersonId = some p) :
    a.deliveryPersonId = some p ∨ Names w o p r := by
  cases h with
  | admin text note q status hst hq =>
    have hrider : q.or a.deliveryPersonId = some p := hb
    cases q with
    | none => exact Or.inl hrider
    | some q => exact Or.inr ⟨rfl, hrider, by rw [hst]; rfl, hq⟩
  | offer q hq | assign q hq | route q hq => exact Or.inr ⟨rfl, Option.some.inj hb, hq⟩
  | expire | reject => cases hb
  | _ => exact Or.inl hb

theorem latestFrom_concat (env : Payment.Env) (o : ℕ) (last : Option Offer) (w : World)
    (rs : List Request) (r : Request) :
    latestFrom env o last w (rs ++ [r]) =
      (offerMade (run (step env) w rs) o r).or (latestFrom env o last w rs) := by
  induction rs generalizing last w with
  | nil => rfl
  | cons c rs ih => exact ih _ _

/-- While an order is on offer, its row is the offer made last. -/
theorem offered_latest (env : Payment.Env) (w : World) (rs : List Request) {a : Order}
    (ha : (run (step env) w rs).db.orders.get? o = some a) (hoffered : a.status = .deliveryOffered) :
    latestOffer env w rs o = some (Offer.ofRow a) := by
  induction rs using List.reverseRecOn generalizing a with
  | nil =>
    rw [run_nil] at ha
    simp [latestOffer, latestFrom, openOffer, ha, hoffered]
  | append_singleton rs r ih =>
    rw [run_concat] at ha
    unfold latestOffer at ih ⊢
    rw [latestFrom_concat]
    cases hmade : offerMade (run (step env) w rs) o r with
    | some offer =>
      rw [(row_of_offerMade hmade ha).2]
      rfl
    | none =>
      rw [Option.none_or]
      cases hbefore : (run (step env) w rs).db.orders.get? o with
      | none =>
        rw [get?_step_none env r hbefore] at ha
        cases ha
      | some before =>
        obtain ⟨b, hb, hw⟩ := rewrites_step env r hbefore
        rw [ha] at hb
        cases hb
        obtain ⟨hopen, hrow⟩ := offered_of_rewrites hw hbefore hmade hoffered
        rw [hrow]
        exact ih hbefore hopen

end Rows

/-! ## The end of an offer -/

section Ended

variable {env : Payment.Env} {w : World} {r : Request} {o p : ℕ} {rs : List Request}

/-- The order does not name the rider. -/
def NotNamed (o p : ℕ) (w : World) : Prop :=
  ∀ a, w.db.orders.get? o = some a → a.deliveryPersonId ≠ some p

theorem notNamed_of_modify {f : Order → Order} {a : Order} {t : Db} {n : ℕ}
    (ht : t.orders = w.db.orders.modify o f) (ha : w.db.orders.get? o = some a)
    (hf : (f a).deliveryPersonId ≠ some p) : NotNamed o p ⟨t, n⟩ := by
  intro b hb
  have hget : t.orders.get? o = some b := hb
  rw [ht, Table.get?_modify_self, ha, Option.map_some] at hget
  cases hget
  exact hf

/-- After the end of an offer, the order does not name the rider it was made to. -/
theorem notNamed_of_ends (hoffered : OfferedTo w o p) (h : Ends w o p r) :
    NotNamed o p (step env w r) := by
  obtain ⟨a, ha, hstatus, hrider⟩ := hoffered
  have hridden : ∀ {u user}, Rider.riderFor w.db u user = p →
      Rider.riddenOrder w.db (Rider.riderFor w.db u user) o = some a :=
    fun h => Rider.riddenOrder_eq_some.2 ⟨ha, h ▸ hrider⟩
  have hother : ∀ {q : ℕ}, q ≠ p → some q ≠ some p := fun hne h => hne (Option.some.inj h)
  cases h with
  | rejected u user hu =>
    rcases Rider.rejectOrder_cases u user o w.db with ⟨_, hnot⟩ | ⟨_, _, _, ht⟩
    · exact absurd hstatus (hnot a (hridden hu))
    · exact notNamed_of_modify ht ha (by simp [Rider.withdrawn])
  | expiredOnAccept u user hu hout =>
    have hraises := Rider.acceptOrder_raises_of_expired (hridden hu) (hout a ha)
    refine notNamed_of_modify (f := Rider.withdrawn "Offer expired") ?_ ha (by simp [Rider.withdrawn])
    show (final (Rider.acceptOrder u user o w.now) w.db).orders = _
    rw [hraises.final]
    simp [writeOrder]
  | expiredOnLook u user hu hout hnew =>
    intro b hb
    have hget := Rider.get?_myOrders u user w.now w.db o
    rw [ha, Option.map_some, if_pos ⟨hu.symm ▸ hnew, hout a ha⟩] at hget
    have heq : some (Rider.withdrawn "Offer expired" a) = some b := hget.symm.trans hb
    cases heq
    simp [Rider.withdrawn]
  | renamed text note q hne hst hq =>
    obtain ⟨status, hst⟩ := Option.isSome_iff_exists.1 hst
    exact notNamed_of_modify (congrArg Db.orders (final_updateOrderStatus ha hst hq note w.now)) ha
      (hother hne)
  | reoffered q hne hq =>
    exact notNamed_of_modify (congrArg Db.orders (final_updateOrderStatus ha
      (OrderStatus.ofValue?_value .deliveryOffered) hq _ w.now)) ha (hother hne)
  | reassigned q hne hq =>
    exact notNamed_of_modify (congrArg Db.orders (final_updateOrderStatus ha
      (OrderStatus.ofValue?_value .deliveryAssigned) hq _ w.now)) ha (hother hne)
  | rerouted q hne hq => exact notNamed_of_modify (orders_assign ha hq) ha (hother hne)

/-- Only a request that names the rider makes the order name him again. -/
theorem notNamed_step (h : NotNamed o p w) (hnames : ¬ Names w o p r) :
    NotNamed o p (step env w r) := by
  intro b hb hrider
  cases ha : w.db.orders.get? o with
  | none =>
    rw [get?_step_none env r ha] at hb
    cases hb
  | some a =>
    obtain ⟨b', hb', hw⟩ := rewrites_step env r ha
    rw [hb] at hb'
    cases hb'
    rcases rider_of_rewrites hw hrider with hbefore | hnow
    · exact h a ha hbefore
    · exact hnames hnow

theorem notNamed_run (h : NotNamed o p w)
    (hnames : Stepwise (step env) (fun t m => ¬ Names t o p m) w rs) :
    NotNamed o p (run (step env) w rs) := by
  induction rs generalizing w with
  | nil => exact h
  | cons r rs ih =>
    obtain ⟨hr, hrs⟩ := stepwise_cons.1 hnames
    rw [run_cons]
    exact ih (notNamed_step h hr) hrs

/-- A call on an order that does not name the rider is refused. -/
theorem refused_of_notNamed (h : NotNamed o p w) (hcall : CallsOn w o p r) : ¬ Succeeds w r := by
  have hridden : ∀ {u user}, Rider.riderFor w.db u user = p →
      Rider.riddenOrder w.db (Rider.riderFor w.db u user) o = none := by
    rintro u user rfl
    rw [Option.eq_none_iff_forall_ne_some]
    intro a ha
    obtain ⟨hget, hrider⟩ := Rider.riddenOrder_eq_some.1 ha
    exact h a hget hrider
  have hrides : ∀ {u user}, Rider.riderFor w.db u user = p →
      ∀ a, ¬ Rider.Rides w.db (Rider.riderFor w.db u user) o a := by
    intro u user hu a ha
    have hnone := hridden hu
    rw [ha.1] at hnone
    cases hnone
  cases r with
  | accept u user k =>
    obtain ⟨rfl, hu⟩ := hcall
    exact (Rider.acceptOrder_raises (hridden hu) w.now).not_ok
  | trip u user k text =>
    obtain ⟨rfl, hu⟩ := hcall
    exact (Rider.updateOrderStatus_raises (hrides hu) text).not_ok
  | deliver u user k =>
    obtain ⟨rfl, hu⟩ := hcall
    exact (Rider.markDelivered_raises (hrides hu) w.now).not_ok
  | _ => cases hcall

end Ended

/-- Only an open offer is accepted, by the rider it was made to last and in time; and once an
offer has ended, its rider is refused until he is named again. -/
theorem offerProtocol (env : Payment.Env) (w : World) (rs : List Request) :
    OfferProtocol env w rs where
  accepted := by
    intro pre u user k o _ hbefore hafter
    rw [run_concat] at hafter
    obtain ⟨b, hb, hstatus⟩ := statusAt_eq_some.1 hafter
    cases ha : (run (step env) w pre).db.orders.get? o with
    | none =>
      rw [get?_step_none env _ ha] at hb
      cases hb
    | some a =>
      obtain ⟨b', hb', hw⟩ := rewrites_step env (.accept u user k) ha
      rw [hb] at hb'
      cases hb'
      have hchanged : a.status ≠ .deliveryAssigned := fun h =>
        hbefore (statusAt_eq_some.2 ⟨a, ha, h⟩)
      cases hw with
      | same => exact absurd hstatus hchanged
      | expire _ hexpired => cases hstatus
      | accept _ _ hrider hopen =>
        obtain ⟨hoffered, t, ht, hlt⟩ := hopen
        exact ⟨rfl, statusAt_eq_some.2 ⟨a, ha, hoffered⟩, Offer.ofRow a, t,
          offered_latest env w pre ha hoffered, hrider, ht, hlt⟩
  ended := by
    intro pre r mid c o p _ hoffered hends hnames hcall
    rw [run_append, run_cons] at hcall ⊢
    rw [run_concat] at hnames
    exact refused_of_notNamed (notNamed_run (notNamed_of_ends hoffered hends) hnames) hcall

end Orders

end SweetCrust
