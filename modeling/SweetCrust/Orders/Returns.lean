import SweetCrust.Checkout.Money
import SweetCrust.Lib.Runs
import SweetCrust.Orders.Beside
import SweetCrust.StoreOps.Refunds

/-!
# What a return claims back

A customer requests a return for a delivered order, and asks for the line totals of the items
that are named, or for the amount of the whole order.  The line totals are from before the
discount, and nothing looks at the requests that were made before: an order that is delivered
again can be returned again.  The admin writes any amount into a request.

* `patchReturn` — what the admin does.
* `claimed` — what the requests for an order claim that are not rejected.
* `returnsCovered_iff` — they claim no more than the order's amount exactly when each request
  fits in.
* `named_le_iff` — what a selection of items has to do with the discount.
-/

namespace SweetCrust

open Tabular Session Runs

namespace Orders

namespace Returns

/-! ## `patch_return` -/

/-- `ReturnAdminIn`, as far as it is stored here.  The amount is missing, null, or given. -/
structure ReturnAdminIn where
  status : String
  refundAmount : Option (Option ℚ) := none

/-- A request with the values that the admin names. -/
def patched (data : ReturnAdminIn) (r : ReturnRequest) : ReturnRequest :=
  { r with
    status := data.status
    refundAmount := (data.refundAmount.getD none).getD r.refundAmount }

/-- The database with the request rewritten. -/
def writeReturn (returnId : ℕ) (data : ReturnAdminIn) (db : Db) : Db :=
  { db with returns := db.returns.modify returnId (patched data) }

/-- `patch_return`: the row as it is then.  The column of the amount takes no null. -/
def patchReturn (returnId : ℕ) (data : ReturnAdminIn) : Service (Option ReturnRequest) := do
  let db ← get
  let _ ← orRaise (db.returns.get? returnId) (.notFound "Return not found")
  raiseIf (data.refundAmount = some none) (.uncaught "IntegrityError")
  modify (writeReturn returnId data)
  commit
  let db ← get
  return db.returns.get? returnId

/-! ## Runs -/

/-- What happens around an order: the requests of the services that share the orders, what the
admin writes into a return request, and the refunds of payments. -/
inductive Call
  | order (r : Request)
  | patch (returnId : ℕ) (data : ReturnAdminIn)
  | refund (gateway : Integrations.RefundGateway) (paymentId : ℕ) (amount : Option ℚ)

def step (env : Payment.Env) (w : World) : Call → World
  | .order r => Orders.step env w r
  | .patch k data => { w with db := final (patchReturn k data) w.db }
  | .refund gateway k amount =>
    { w with db := final (Refunds.refundPayment env gateway k amount) w.db }

/-- What a request counts for the order `o`. -/
def counted (o : ℕ) (r : ReturnRequest) : ℚ :=
  if r.orderId = o ∧ r.status ≠ "rejected" then r.refundAmount else 0

/-- What the requests for an order claim that are not rejected. -/
def claimed (db : Db) (o : ℕ) : ℚ := db.returns.total (counted o)

/-- They claim no more than the order's amount. -/
def Covered (o : ℕ) (w : World) : Prop :=
  ∀ order, w.db.orders.get? o = some order → claimed w.db o ≤ order.finalAmount

/-- A request for the order that is stored is for at least nothing and at most its amount. -/
def StoresCovered (env : Payment.Env) (o : ℕ) (w : World) (c : Call) : Prop :=
  ∀ k r order, w.db.returns.get? k = none → (step env w c).db.returns.get? k = some r →
    r.orderId = o → w.db.orders.get? o = some order →
      0 ≤ r.refundAmount ∧ r.refundAmount ≤ order.finalAmount

/-- The lines of the order that a request names. -/
def named (db : Db) (o : ℕ) (ids : List ℕ) : List OrderItem :=
  ((db.orderItems.select fun i => i.orderId = o).filter fun r => r.1 ∈ ids).map Prod.snd

/-- What they come to. -/
def namedTotal (db : Db) (o : ℕ) (ids : List ℕ) : ℚ := ((named db o ids).map OrderItem.totalPrice).sum

/-- A new request fits in beside what is claimed already: its lines come to no less than nothing,
and no more than the order's amount and what is left of it; or it names no line, nothing is
claimed yet, and the order's amount is not below zero. -/
def RequestFits (db : Db) (order : Order) (data : OrderService.ReturnIn) : Prop :=
  if named db data.orderId data.affectedItemIds = [] then
    claimed db data.orderId ≤ 0 ∧ 0 ≤ order.finalAmount
  else
    0 ≤ namedTotal db data.orderId data.affectedItemIds ∧
      namedTotal db data.orderId data.affectedItemIds ≤ order.finalAmount ∧
      claimed db data.orderId + namedTotal db data.orderId data.affectedItemIds ≤ order.finalAmount

/-- A call fits in: a request that is accepted does, and what the admin writes into one does,
beside the others. -/
def Fits (o : ℕ) (w : World) : Call → Prop
  | .order (.createReturn u data) => ∀ order, OrderService.Returnable w.db u data w.now order →
      data.orderId = o → RequestFits w.db order data
  | .patch k data => ∀ r order, w.db.returns.get? k = some r → data.refundAmount ≠ some none →
      w.db.orders.get? o = some order →
        claimed w.db o - counted o r + counted o (patched data r) ≤ order.finalAmount
  | _ => True

section Steps

variable {env : Payment.Env} {w : World} {s : Db} {o u k now : ℕ} {order : Order}
  {data : OrderService.ReturnIn} {patch : ReturnAdminIn} {r : ReturnRequest}

/-- The amount of a new request. -/
theorem refundAmount_eq : OrderService.refundAmount s order data =
    if named s data.orderId data.affectedItemIds = [] then order.finalAmount
    else namedTotal s data.orderId data.affectedItemIds := by
  unfold OrderService.refundAmount namedTotal named
  simp only [List.map_eq_nil_iff, List.map_map]
  rfl

/-- A return request that is accepted is the only new row. -/
theorem returns_createReturn (h : OrderService.Returnable s u data now order) :
    (final (OrderService.createReturn u data now) s).returns =
      (s.returns.insert (OrderService.returnRequest s u order data now)).modify s.returns.next
        fun r => { r with status := "admin_review" } := by
  unfold OrderService.createReturn
  rw [final_get_bind, h.own, final_orRaise_some_bind, final_raiseIf_bind,
    if_neg (not_not.2 h.delivered), final_raiseIf_bind, if_neg h.inTime]
  cases hadmin : s.users.first? fun u => u.role = .admin <;> rfl

/-- No request changes what an order costs. -/
theorem finalAmount_rewrites {a b : Order} {req : Request} (h : Rewrites env w o a req b) :
    b.finalAmount = a.finalAmount := by
  cases h <;> rfl

theorem leaves_patchReturn (k : ℕ) (patch : ReturnAdminIn) :
    Leaves Db.orders (patchReturn k patch) :=
  leaves_get_bind fun _ => (leaves_orRaise _ _).bind fun _ => (leaves_raiseIf _ _).bind fun _ =>
    leaves_modify_commit (fun _ => rfl) (leaves_get_bind fun _ => leaves_pure _)

theorem leaves_refundPayment (env : Payment.Env) (gateway : Integrations.RefundGateway) (k : ℕ)
    (amount : Option ℚ) :
    Leaves (fun db => (db.orders, db.returns)) (Refunds.refundPayment env gateway k amount) :=
  leaves_get_bind fun _ => (leaves_orRaise _ _).bind fun _ => (leaves_ofExcept _).bind fun _ =>
    leaves_modify_commit (fun _ => rfl) (leaves_get_bind fun _ => leaves_pure _)

/-- No call changes what an order costs, and none makes an order. -/
theorem finalAmount_step (env : Payment.Env) (w : World) (c : Call) (o : ℕ) :
    ((step env w c).db.orders.get? o).map Order.finalAmount =
      (w.db.orders.get? o).map Order.finalAmount := by
  cases c with
  | order r =>
    obtain ⟨hnone, hsome⟩ := rewrites_served env w r o
    cases ha : w.db.orders.get? o with
    | none => exact congrArg _ (hnone ha)
    | some a =>
      obtain ⟨b, hb, hrewrites⟩ := hsome a ha
      show ((served env w r).orders.get? o).map Order.finalAmount = _
      rw [hb, Option.map_some, Option.map_some, finalAmount_rewrites hrewrites]
  | patch k patch =>
    show ((final (patchReturn k patch) w.db).orders.get? o).map Order.finalAmount = _
    rw [(leaves_patchReturn k patch).final]
  | refund gateway k amount =>
    have horders := ((leaves_refundPayment env gateway k amount).of Prod.fst).final w.db
    exact congrArg (fun t => (Table.get? t o).map Order.finalAmount) horders

/-- The requests for the order claim no more than its amount, as it was. -/
theorem covered_step_iff {c : Call} (horder : w.db.orders.get? o = some order) :
    Covered o (step env w c) ↔ claimed (step env w c).db o ≤ order.finalAmount := by
  have hsame := finalAmount_step env w c o
  rw [horder, Option.map_some, Option.map_eq_some_iff] at hsame
  obtain ⟨b, hb, hamount⟩ := hsame
  unfold Covered
  rw [hb]
  simp [hamount]

theorem covered_of_none {c : Call} (hnone : w.db.orders.get? o = none) :
    Covered o (step env w c) ∧ StoresCovered env o w c := by
  have hsame := finalAmount_step env w c o
  rw [hnone, Option.map_none, Option.map_eq_none_iff] at hsame
  refine ⟨fun b hb => ?_, fun k r b _ _ _ hb => ?_⟩
  · rw [hsame] at hb
    cases hb
  · rw [hnone] at hb
    cases hb

/-- What a call does to the return requests.  Where it leaves them it fits in. -/
theorem returns_step (env : Payment.Env) (w : World) (c : Call) :
    ((step env w c).db.returns = w.db.returns ∧ ∀ o, Fits o w c) ∨
      (∃ u data order, c = .order (.createReturn u data) ∧
        OrderService.Returnable w.db u data w.now order) ∨
      ∃ k patch r, c = .patch k patch ∧ w.db.returns.get? k = some r ∧
        patch.refundAmount ≠ some none ∧
        (step env w c).db.returns = w.db.returns.modify k (patched patch) := by
  cases c with
  | order r =>
    by_cases hcreate : ∃ u data, r = .createReturn u data
    · obtain ⟨u, data, rfl⟩ := hcreate
      by_cases h : ∃ order, OrderService.Returnable w.db u data w.now order
      · obtain ⟨order, h⟩ := h
        exact Or.inr (Or.inl ⟨u, data, order, rfl, h⟩)
      · have hraises := OrderService.createReturn_raises fun order hret => h ⟨order, hret⟩
        exact Or.inl ⟨congrArg Db.returns hraises.final, fun _ order hret => absurd ⟨order, hret⟩ h⟩
    · have hsame := (claims_served env w r).resolve_right hcreate
      refine Or.inl ⟨congrArg Prod.fst hsame, fun o => ?_⟩
      cases r with
      | createReturn u data => exact absurd ⟨u, data, rfl⟩ hcreate
      | _ => trivial
  | patch k patch =>
    cases hr : w.db.returns.get? k with
    | none =>
      have hraises : Raises (patchReturn k patch) w.db w.db :=
        Raises.get_bind (raises_orRaise_bind hr _ _ _)
      refine Or.inl ⟨congrArg Db.returns hraises.final, fun o q b hq => ?_⟩
      rw [hr] at hq
      cases hq
    | some r =>
      by_cases hnull : patch.refundAmount = some none
      · have hraises : Raises (patchReturn k patch) w.db w.db :=
          Raises.get_bind (Raises.orRaise_bind hr (raises_raiseIf_bind hnull _ _ _))
        exact Or.inl ⟨congrArg Db.returns hraises.final, fun _ _ _ _ hgiven => absurd hnull hgiven⟩
      · have hgo : Returns (patchReturn k patch) w.db ((writeReturn k patch w.db).returns.get? k)
            (writeReturn k patch w.db) :=
          Returns.get_bind (Returns.orRaise_bind hr (Returns.raiseIf_bind hnull ⟨rfl, rfl⟩))
        exact Or.inr (Or.inr ⟨k, patch, r, rfl, hr, hnull, congrArg Db.returns hgo.final⟩)
  | refund gateway k amount =>
    exact Or.inl ⟨((leaves_refundPayment env gateway k amount).of Prod.snd).final w.db,
      fun _ => trivial⟩

/-- A call that leaves the return requests. -/
theorem covered_of_same {c : Call} (h : (step env w c).db.returns = w.db.returns)
    (hcovered : Covered o w) : Covered o (step env w c) ∧ StoresCovered env o w c := by
  cases horder : w.db.orders.get? o with
  | none => exact covered_of_none horder
  | some order =>
    rw [covered_step_iff horder]
    constructor
    · unfold claimed
      rw [h]
      exact hcovered order horder
    · intro k r b hnone hsome
      rw [h, hnone] at hsome
      cases hsome

/-- The request as it is stored. -/
def stored (db : Db) (u : ℕ) (order : Order) (data : OrderService.ReturnIn) (now : ℕ) :
    ReturnRequest :=
  { OrderService.returnRequest db u order data now with status := "admin_review" }

section Created

variable (h : OrderService.Returnable w.db u data w.now order)

include h

/-- A request that is accepted is the only one that is new. -/
theorem get?_createReturn {q : ReturnRequest} (hnone : w.db.returns.get? k = none) :
    (step env w (.order (.createReturn u data))).db.returns.get? k = some q ↔
      k = w.db.returns.next ∧ q = stored w.db u order data w.now := by
  show (final (OrderService.createReturn u data w.now) w.db).returns.get? k = some q ↔ _
  rw [returns_createReturn h, Table.get?_modify, Table.get?_insert, hnone]
  by_cases hk : k = w.db.returns.next
  · simp [hk, stored, eq_comm]
  · simp [hk]

theorem claimed_createReturn (o : ℕ) :
    claimed (step env w (.order (.createReturn u data))).db o =
      claimed w.db o + counted o (stored w.db u order data w.now) := by
  have hnew : (w.db.returns.insert (OrderService.returnRequest w.db u order data w.now)).get?
      w.db.returns.next = some (OrderService.returnRequest w.db u order data w.now) := by
    rw [Table.get?_insert, if_pos rfl]
  unfold claimed
  show (final (OrderService.createReturn u data w.now) w.db).returns.total _ = _
  rw [returns_createReturn h, Table.total_modify hnew, Table.total_insert]
  unfold stored
  ring

/-- It fits in exactly when it is covered afterwards. -/
theorem requestFits_iff :
    Covered data.orderId (step env w (.order (.createReturn u data))) ∧
        StoresCovered env data.orderId w (.order (.createReturn u data)) ↔
      RequestFits w.db order data := by
  have horder := (Payment.ownOrder_eq_some.1 h.own).1
  have hamount : (stored w.db u order data w.now).refundAmount =
      OrderService.refundAmount w.db order data := rfl
  have hcounted : counted data.orderId (stored w.db u order data w.now) =
      OrderService.refundAmount w.db order data :=
    if_pos ⟨rfl, show "admin_review" ≠ "rejected" by decide⟩
  have hstores : StoresCovered env data.orderId w (.order (.createReturn u data)) ↔
      0 ≤ OrderService.refundAmount w.db order data ∧
        OrderService.refundAmount w.db order data ≤ order.finalAmount := by
    rw [← hamount]
    unfold StoresCovered
    rw [horder]
    constructor
    · intro hall
      exact hall w.db.returns.next _ order (Table.get?_next _)
        ((get?_createReturn h (Table.get?_next _)).2 ⟨rfl, rfl⟩) rfl rfl
    · rintro hin k r b hnone hsome - ⟨⟩
      obtain ⟨-, rfl⟩ := (get?_createReturn h hnone).1 hsome
      exact hin
  rw [covered_step_iff horder, claimed_createReturn h, hcounted, hstores, refundAmount_eq]
  unfold RequestFits
  split_ifs with hnone
  · constructor
    · rintro ⟨hsum, hpos, -⟩
      exact ⟨by linarith, hpos⟩
    · rintro ⟨hclaim, hpos⟩
      exact ⟨by linarith, hpos, le_rfl⟩
  · tauto

/-- A request for another order. -/
theorem covered_createReturn_of_ne (hne : data.orderId ≠ o) (hcovered : Covered o w) :
    Covered o (step env w (.order (.createReturn u data))) ∧
      StoresCovered env o w (.order (.createReturn u data)) := by
  have hcounted : counted o (stored w.db u order data w.now) = 0 := if_neg fun hc => hne hc.1
  cases horder : w.db.orders.get? o with
  | none => exact covered_of_none horder
  | some a =>
    rw [covered_step_iff horder, claimed_createReturn h, hcounted, add_zero]
    refine ⟨hcovered a horder, fun k r b hnone hsome ho => ?_⟩
    obtain ⟨-, rfl⟩ := (get?_createReturn h hnone).1 hsome
    exact absurd ho hne

end Created

theorem patchFits_iff (hr : w.db.returns.get? k = some r)
    (horder : w.db.orders.get? o = some order)
    (hstep : (step env w (.patch k patch)).db.returns = w.db.returns.modify k (patched patch)) :
    Covered o (step env w (.patch k patch)) ∧ StoresCovered env o w (.patch k patch) ↔
      claimed w.db o - counted o r + counted o (patched patch r) ≤ order.finalAmount := by
  have hstores : StoresCovered env o w (.patch k patch) := by
    intro j q b hnone hsome
    rw [hstep, Table.get?_modify, hnone, Option.map_none, ite_self] at hsome
    cases hsome
  rw [covered_step_iff horder, and_iff_left hstores]
  unfold claimed
  rw [hstep, Table.total_modify hr]

/-- A call that fits in keeps the claims covered, and no other call does. -/
theorem fits_iff (c : Call) (hcovered : Covered o w) :
    Covered o (step env w c) ∧ StoresCovered env o w c ↔ Fits o w c := by
  rcases returns_step env w c with ⟨hsame, hfits⟩ | ⟨u, data, order, rfl, hret⟩ |
      ⟨k, patch, r, rfl, hr, hnull, hstep⟩
  · exact iff_of_true (covered_of_same hsame hcovered) (hfits o)
  · by_cases ho : data.orderId = o
    · subst ho
      rw [requestFits_iff hret]
      constructor
      · intro hfits b hret' _
        have hown := hret'.own
        rw [hret.own] at hown
        cases hown
        exact hfits
      · intro hfits
        exact hfits order hret rfl
    · exact iff_of_true (covered_createReturn_of_ne hret ho hcovered) fun _ _ h => absurd h ho
  · cases horder : w.db.orders.get? o with
    | none =>
      refine iff_of_true (covered_of_none horder) fun q b _ _ hb => ?_
      rw [horder] at hb
      cases hb
    | some order =>
      rw [patchFits_iff hr horder hstep]
      constructor
      · intro hfits q b hq _ hb
        rw [hr] at hq
        rw [horder] at hb
        cases hq
        cases hb
        exact hfits
      · intro hfits
        exact hfits r order hr hnull horder

end Steps

/-- The requests for an order claim no more than its amount throughout a run, and each one that
is stored is for at least nothing and at most that amount, exactly when every call fits in. -/
theorem returnsCovered_iff {env : Payment.Env} {w : World} {o : ℕ} (hcovered : Covered o w)
    (cs : List Call) :
    Throughout (step env) (Covered o) w cs ∧ Stepwise (step env) (StoresCovered env o) w cs ↔
      Stepwise (step env) (Fits o) w cs :=
  throughout_and_stepwise_iff (fun _ c h => fits_iff c h) hcovered cs

/-! ## What a selection of items has to do with the discount -/

/-- What the lines of the order come to that a request does not name. -/
def keptTotal (db : Db) (o : ℕ) (ids : List ℕ) : ℚ :=
  (((db.orderItems.select fun i => i.orderId = o).filter fun r => r.1 ∉ ids).map
    fun r => r.2.totalPrice).sum

theorem namedTotal_add_keptTotal (db : Db) (o : ℕ) (ids : List ℕ) :
    namedTotal db o ids + keptTotal db o ids = Checkout.itemsTotal db o := by
  have hall : Checkout.itemsTotal db o =
      ((db.orderItems.select fun i => i.orderId = o).map fun r => r.2.totalPrice).sum := by
    rw [Table.sum_select]
    simp [Checkout.itemsTotal]
  rw [hall]
  unfold namedTotal named keptTotal
  induction db.orderItems.select fun i => i.orderId = o with
  | nil => simp
  | cons r l ih =>
    rw [List.map_cons, List.sum_cons, ← ih]
    by_cases hr : r.1 ∈ ids
    · simp [hr]
      ring
    · simp [hr]
      ring

/-- Where the amounts of an order add up, a selection of its lines comes to no more than the
order's amount exactly when the lines that are kept, the tax and the delivery fee make up for
the discount. -/
theorem named_le_iff {db : Db} {o : ℕ} {order : Order} (hadds : Checkout.OrderAddsUp db o)
    (horder : db.orders.get? o = some order) (ids : List ℕ) :
    namedTotal db o ids ≤ order.finalAmount ↔
      order.discount ≤ keptTotal db o ids + order.gstAmount + order.deliveryFee := by
  obtain ⟨order', hget, hsum, htotal⟩ := hadds.order
  rw [horder] at hget
  cases hget
  rw [hsum.sum, htotal, ← namedTotal_add_keptTotal db o ids]
  constructor <;> intro h <;> linarith

/-! ## A cake at half its price -/

/-- The shop with a coupon of fifty percent, which the customer's cart has. -/
def halfPriceShop : Db :=
  final (Promotion.applyCoupon 2 "cake50")
    (final (Sell.createCoupon 1 0 { code := "cake50", title := "Half price", value := 50 })
      (Checkout.cakeShop (5981 / 20)))

/-- The customer's order. -/
def halfPrice : World := ⟨final Checkout.buyCake halfPriceShop, 0⟩

/-- The order is delivered, and the customer returns it. -/
def sendBack (ids : List ℕ) : List Call :=
  [.order (.admin 1 "delivered" none none),
    .order (.createReturn 2 ⟨1, ids, "damaged", "refund", none⟩)]

/-- The cake cost 299.05 without the coupon, and the order comes to 197. -/
theorem halfPrice_claimed :
    ¬ (Throughout (step Payment.plainEnv) (Covered 1) halfPrice (sendBack [1]) ∧
      Stepwise (step Payment.plainEnv) (StoresCovered Payment.plainEnv 1) halfPrice
        (sendBack [1])) := by
  rintro ⟨-, hstores⟩
  have hstored := hstores [.order (.admin 1 "delivered" none none)] _ (List.prefix_refl _)
  have hnone : (run (step Payment.plainEnv) halfPrice
      [.order (.admin 1 "delivered" none none)]).db.returns.get? 1 = none := by decide +kernel
  have hamount : ((run (step Payment.plainEnv) halfPrice
      [.order (.admin 1 "delivered" none none)]).db.orders.get? 1).map Order.finalAmount =
        some 197 := by decide +kernel
  have hrow : ((run (step Payment.plainEnv) halfPrice (sendBack [1])).db.returns.get? 1).map
      (fun r => (r.orderId, r.refundAmount)) = some (1, 5981 / 20) := by decide +kernel
  obtain ⟨r, hr, hvalues⟩ := Option.map_eq_some_iff.1 hrow
  obtain ⟨order, horder, hfinal⟩ := Option.map_eq_some_iff.1 hamount
  obtain ⟨ho, hrefund⟩ := Prod.mk.inj hvalues
  have hle := (hstored 1 r order hnone hr ho horder).2
  rw [hrefund, hfinal] at hle
  norm_num at hle

/-- As a whole it is returned for what it came to. -/
theorem halfPrice_whole :
    Throughout (step Payment.plainEnv) (Covered 1) halfPrice (sendBack []) ∧
      Stepwise (step Payment.plainEnv) (StoresCovered Payment.plainEnv 1) halfPrice
        (sendBack []) := by
  have hamount : (halfPrice.db.orders.get? 1).map Order.finalAmount = some 197 := by
    decide +kernel
  have hcovered : Covered 1 halfPrice := by
    intro order horder
    rw [horder] at hamount
    rw [Option.some.inj hamount]
    decide +kernel
  refine (returnsCovered_iff hcovered _).2 (stepwise_cons.2 ⟨trivial, stepwise_cons.2 ⟨?_,
    stepwise_nil _ _⟩⟩)
  intro order hret _
  have horder := (Payment.ownOrder_eq_some.1 hret.own).1
  have hsame := finalAmount_step Payment.plainEnv halfPrice
    (.order (.admin 1 "delivered" none none)) 1
  rw [horder, hamount] at hsame
  refine (if_pos ?_).mpr ⟨?_, ?_⟩
  · decide +kernel
  · decide +kernel
  · rw [Option.some.inj hsame]
    norm_num

end Returns

end Orders

end SweetCrust
