import SweetCrust.Lib.Runs
import SweetCrust.StoreOps.PurchaseSteps

/-!
# The life of a purchase order

A purchase order moves goods once, and then only money.  Each request moves the status of
a purchase order along one edge of `Moves` or leaves it, and the goods come in with the
edge that leaves `pending` other than by rejection.

* `Evolves` — what one request does to the purchase orders.
* `Conserves` — between two states, the stock of every product has changed by the goods
  of the purchase orders that have arrived in between, each with one movement.
* `lifecycle` — both, over every run of requests.
-/

namespace SweetCrust

open Tabular Rounding PayRules Runs

namespace Purchase

/-- The moves of a purchase order's status. -/
def Moves : PurchaseStatus → PurchaseStatus → Prop
  | .pending, .received => True
  | .pending, .paid => True
  | .pending, .rejected => True
  | .received, .partialPaid => True
  | .received, .paid => True
  | .partialPaid, .partialPaid => True
  | .partialPaid, .paid => True
  | _, _ => False

/-- The goods of a purchase order have come in: it left `pending` other than by rejection. -/
def Arrived (p : SupplierPurchase) : Prop := p.status ≠ .pending ∧ p.status ≠ .rejected

instance (p : SupplierPurchase) : Decidable (Arrived p) := inferInstanceAs (Decidable (_ ∧ _))

/-- The pieces of a product that a purchase order has brought in. -/
def qtyIn (y : ℕ) (p : SupplierPurchase) : ℤ := if p.productId = y ∧ Arrived p then p.qty else 0

/-- One for a purchase order that has brought in `k` pieces of a product. -/
def countIn (y : ℕ) (k : ℤ) (p : SupplierPurchase) : ℤ :=
  if p.productId = y ∧ p.qty = k ∧ Arrived p then 1 else 0

/-- One for a movement of `k` pieces of a product from a supplier. -/
def countMoved (y : ℕ) (k : ℤ) (m : StockMovement) : ℤ :=
  if m.productId = y ∧ m.changeQty = k ∧ m.reason = "supplier_purchase" then 1 else 0

/-- The stock of a product. -/
def stockOf (db : Db) (y : ℕ) : Option ℤ := (db.products.get? y).map Product.stockQty

/-- One purchase order before and after a request. -/
structure Follows (p q : SupplierPurchase) : Prop where
  status : q.status = p.status ∨ Moves p.status q.status
  paid : p.paidAmount ≤ q.paidAmount
  goods : q.productId = p.productId ∧ q.qty = p.qty

/-- A purchase order that a request has opened: pending, or moved on from there. -/
structure Starts (q : SupplierPurchase) : Prop where
  status : q.status = .pending ∨ Moves .pending q.status ∧ Arrived q
  paid : 0 ≤ q.paidAmount

/-- What one request does to the purchase orders: each goes on, and new ones start. -/
structure Evolves (db t : Db) : Prop where
  kept : ∀ id p, db.purchases.get? id = some p → ∃ q, t.purchases.get? id = some q ∧ Follows p q
  new : ∀ id q, db.purchases.get? id = none → t.purchases.get? id = some q → Starts q

/-- Stock and movements have changed by the purchase orders that have arrived. -/
structure Conserves (db t : Db) : Prop where
  stock : ∀ y, stockOf t y = (stockOf db y).map fun n =>
    n + (t.purchases.total (qtyIn y) - db.purchases.total (qtyIn y))
  moved : ∀ y k, t.movements.total (countMoved y k) - db.movements.total (countMoved y k) =
    t.purchases.total (countIn y k) - db.purchases.total (countIn y k)

/-- The life of the purchase orders over a run of requests. -/
structure Lifecycle (env : Payment.Env) (db : Db) (rs : List Request) : Prop where
  steps : ∀ pre r, pre ++ [r] <+: rs →
    Evolves (run (step env) db pre) (step env (run (step env) db pre) r)
  /-- Rejected and paid purchase orders stay so. -/
  final : ∀ pre pre', pre <+: pre' → pre' <+: rs → ∀ id p,
    (run (step env) db pre).purchases.get? id = some p → p.status = .rejected ∨ p.status = .paid →
      ∃ q, (run (step env) db pre').purchases.get? id = some q ∧ q.status = p.status
  goods : ∀ pre pre', pre <+: pre' → pre' <+: rs →
    Conserves (run (step env) db pre) (run (step env) db pre')

/-! ## One purchase order -/

section Row

variable {p : SupplierPurchase}

theorem Follows.refl (p : SupplierPurchase) : Follows p p := ⟨Or.inl rfl, le_rfl, rfl, rfl⟩

/-- The total of a new purchase order is not negative. -/
theorem IsNew.total_nonneg (h : IsNew p) : 0 ≤ p.total := by
  rw [h.total]
  have hq : (0 : ℚ) ≤ p.qty := by exact_mod_cast h.qty.le
  exact round2_nonneg (mul_nonneg h.cost hq)

theorem IsNew.starts (h : IsNew p) : Starts p where
  status := Or.inl h.pending
  paid := h.unpaid.ge

theorem arrived_receivedRow (markPaid : Bool) (total : ℚ) (payMethod : Option String)
    (p : SupplierPurchase) : Arrived (receivedRow markPaid total payMethod p) := by
  cases markPaid <;> simp [Arrived, receivedRow]

theorem receivedRow_goods (markPaid : Bool) (total : ℚ) (payMethod : Option String)
    (p : SupplierPurchase) :
    (receivedRow markPaid total payMethod p).productId = p.productId ∧
      (receivedRow markPaid total payMethod p).qty = p.qty := by
  cases markPaid <;> exact ⟨rfl, rfl⟩

theorem IsNew.starts_receivedRow (h : IsNew p) (markPaid : Bool) (payMethod : Option String) :
    Starts (receivedRow markPaid p.total payMethod p) := by
  cases markPaid with
  | true => exact ⟨Or.inr ⟨trivial, arrived_receivedRow _ _ _ _⟩, h.total_nonneg⟩
  | false => exact ⟨Or.inr ⟨trivial, arrived_receivedRow _ _ _ _⟩, h.unpaid.ge⟩

theorem follows_receivedRow (h : p.status = .pending) :
    Follows p (receivedRow false p.total none p) where
  status := by
    right
    rw [h]
    trivial
  paid := le_rfl
  goods := receivedRow_goods _ _ _ _

theorem follows_rejectedRow (h : p.status = .pending) : Follows p (rejectedRow p) where
  status := by
    right
    rw [h]
    trivial
  paid := le_rfl
  goods := ⟨rfl, rfl⟩

theorem IsOpen.arrived (h : IsOpen p) : Arrived p := by
  rcases h with h | h <;> simp [Arrived, h]

/-- A payment in whole paise does not lower the amount paid. -/
theorem le_round2_add {a pay : ℚ} (hc : IsCents pay) (hpos : 0 < pay) : a ≤ round2 (a + pay) := by
  have hpaisa : 0 + 1 / 100 ≤ pay := isCents_zero.add_one_le hc hpos
  have herr := abs_le.1 (abs_round2_sub_le (a + pay))
  linarith [herr.1]

theorem follows_settledRow {pay : ℚ} {method : String} {note : Option String} (hopen : IsOpen p)
    (hc : IsCents pay) (hpos : 0 < pay) :
    Follows p (settledRow (round2 (p.paidAmount + pay)) method
      (paidStatus p.total (round2 (p.paidAmount + pay))) note p) where
  status := by
    right
    show Moves p.status (paidStatus p.total (round2 (p.paidAmount + pay)))
    unfold paidStatus
    rcases hopen with h | h <;> rw [h] <;> split_ifs <;> trivial
  paid := le_round2_add hc hpos
  goods := ⟨rfl, rfl⟩

theorem arrived_settledRow (paid total : ℚ) (method : String) (note : Option String)
    (p : SupplierPurchase) : Arrived (settledRow paid method (paidStatus total paid) note p) := by
  unfold Arrived settledRow paidStatus
  split_ifs <;> simp

/-- Two rows of the same goods that have both arrived, or both not, count alike. -/
theorem counts_congr {q : SupplierPurchase} (hgoods : q.productId = p.productId ∧ q.qty = p.qty)
    (harrived : Arrived q ↔ Arrived p) (y : ℕ) (k : ℤ) :
    qtyIn y q = qtyIn y p ∧ countIn y k q = countIn y k p := by
  unfold qtyIn countIn
  rw [hgoods.1, hgoods.2]
  simp only [harrived]
  exact ⟨trivial, trivial⟩

end Row

/-! ## One request -/

section Step

variable {db t : Db} {p : SupplierPurchase} {id : ℕ} {f : SupplierPurchase → SupplierPurchase}

theorem evolves_insert (ht : t.purchases = db.purchases.insert p) (hp : Starts p) :
    Evolves db t where
  kept := by
    intro j q hq
    have hne : j ≠ db.purchases.next := (Table.lt_next_of_get? hq).ne
    refine ⟨q, ?_, Follows.refl q⟩
    rw [ht, Table.get?_insert, if_neg hne, hq]
  new := by
    intro j q hnone hq
    rw [ht, Table.get?_insert] at hq
    split_ifs at hq
    · rw [← Option.some.inj hq]
      exact hp
    · rw [hnone] at hq
      cases hq

theorem evolves_modify (hp : db.purchases.get? id = some p)
    (ht : t.purchases = db.purchases.modify id f) (hf : Follows p (f p)) : Evolves db t where
  kept := by
    intro j q hq
    by_cases hj : j = id
    · subst hj
      have hqp : q = p := Option.some.inj (hq.symm.trans hp)
      refine ⟨f p, ?_, hqp ▸ hf⟩
      rw [ht, Table.get?_modify_self, hp, Option.map_some]
    · refine ⟨q, ?_, Follows.refl q⟩
      rw [ht, Table.get?_modify_of_ne _ _ hj, hq]
  new := by
    intro j q hnone hq
    rw [ht, Table.get?_modify, hnone] at hq
    split_ifs at hq
    cases hq

theorem Evolves.refl (db : Db) : Evolves db db where
  kept := fun _ p hp => ⟨p, hp, Follows.refl p⟩
  new := by
    intro id q hnone hq
    rw [hnone] at hq
    cases hq

/-- Every request moves each purchase order along an edge, or leaves it. -/
theorem Change.evolves (h : Change db t) : Evolves db t := by
  cases h with
  | idle => exact Evolves.refl db
  | opened p new => exact evolves_insert rfl new.starts
  | bought p product i profile createdBy markPaid payMethod new =>
    exact evolves_insert receiveGoods_purchases (new.starts_receivedRow markPaid payMethod)
  | received id p product i profile createdBy found pending =>
    exact evolves_modify found receiveGoods_purchases (follows_receivedRow pending)
  | rejected id p found pending => exact evolves_modify found rfl (follows_rejectedRow pending)
  | paid id p i profile pay method note pid found isOpen cents rules =>
    exact evolves_modify found rfl (follows_settledRow isOpen cents (pos_of_rules cents rules))
  | noted id p note found => exact evolves_modify found rfl ⟨Or.inl rfl, le_rfl, rfl, rfl⟩

theorem Conserves.refl (db : Db) : Conserves db db where
  stock := by simp
  moved := by simp

theorem Conserves.trans {s : Db} (h : Conserves db t) (h' : Conserves t s) : Conserves db s where
  stock := by
    intro y
    rw [h'.stock y, h.stock y, Option.map_map]
    congr 1
    funext n
    simp only [Function.comp_apply]
    ring
  moved := by
    intro y k
    have h1 := h.moved y k
    have h2 := h'.moved y k
    omega

/-- Products and movements stay, and as much has arrived as before. -/
theorem conserves_of_same (hprod : t.products = db.products) (hmove : t.movements = db.movements)
    (hcount : ∀ y k, t.purchases.total (qtyIn y) = db.purchases.total (qtyIn y) ∧
      t.purchases.total (countIn y k) = db.purchases.total (countIn y k)) : Conserves db t where
  stock := by
    intro y
    rw [(hcount y 0).1, sub_self]
    simp [stockOf, hprod, Function.comp_def]
  moved := by
    intro y k
    rw [(hcount y k).2, hmove, sub_self, sub_self]

/-- A rewrite that neither moves goods nor lets them arrive. -/
theorem conserves_modify (hp : db.purchases.get? id = some p)
    (ht : t.purchases = db.purchases.modify id f) (hprod : t.products = db.products)
    (hmove : t.movements = db.movements)
    (hgoods : (f p).productId = p.productId ∧ (f p).qty = p.qty)
    (harrived : Arrived (f p) ↔ Arrived p) : Conserves db t := by
  refine conserves_of_same hprod hmove fun y k => ?_
  obtain ⟨hqty, hcount⟩ := counts_congr hgoods harrived y k
  rw [ht, Table.total_modify hp, Table.total_modify hp, hqty, hcount]
  constructor <;> ring

/-- The goods of a purchase order come in, and it alone arrives. -/
theorem conserves_of_receipt {product : Product} {unitCost : ℚ} {m : StockMovement}
    (hstock : db.products.get? p.productId = some product)
    (hprod : t.products =
      db.products.modify p.productId (stockAfterReceipt product p.qty unitCost).apply)
    (hmove : t.movements = db.movements.insert m)
    (hm : m.productId = p.productId ∧ m.changeQty = p.qty ∧ m.reason = "supplier_purchase")
    (hcount : ∀ y k,
      t.purchases.total (qtyIn y) =
        db.purchases.total (qtyIn y) + (if p.productId = y then p.qty else 0) ∧
      t.purchases.total (countIn y k) =
        db.purchases.total (countIn y k) + (if p.productId = y ∧ p.qty = k then 1 else 0)) :
    Conserves db t where
  stock := by
    intro y
    rw [(hcount y 0).1, add_sub_cancel_left]
    unfold stockOf
    rw [hprod, Table.get?_modify]
    by_cases hy : y = p.productId
    · subst hy
      simp [hstock, StockWrite.apply, stockAfterReceipt]
    · simp [hy, Ne.symm hy, Function.comp_def]
  moved := by
    intro y k
    rw [(hcount y k).2, hmove, Table.total_insert]
    simp only [countMoved, hm, and_true]
    ring

/-- A purchase order that has arrived counts with its goods. -/
theorem counts_arrived {q : SupplierPurchase} (hq : Arrived q) (y : ℕ) (k : ℤ) :
    qtyIn y q = (if q.productId = y then q.qty else 0) ∧
      countIn y k q = if q.productId = y ∧ q.qty = k then 1 else 0 := by
  simp [qtyIn, countIn, hq]

/-- A purchase order that has not arrived does not count. -/
theorem counts_pending {q : SupplierPurchase} (hq : q.status = .pending) (y : ℕ) (k : ℤ) :
    qtyIn y q = 0 ∧ countIn y k q = 0 := by
  simp [qtyIn, countIn, Arrived, hq]

/-- Every request moves goods exactly with the purchase order that it lets arrive. -/
theorem Change.conserves (h : Change db t) : Conserves db t := by
  cases h with
  | idle => exact Conserves.refl db
  | opened p new =>
    refine conserves_of_same rfl rfl fun y k => ?_
    obtain ⟨hqty, hcount⟩ := counts_pending new.pending y k
    rw [addPurchase_purchases, Table.total_insert, Table.total_insert, hqty, hcount]
    constructor <;> ring
  | bought p product i profile createdBy markPaid payMethod new stocked =>
    refine conserves_of_receipt (p := p) stocked receiveGoods_products receiveGoods_movements
      ⟨rfl, rfl, rfl⟩ fun y k => ?_
    obtain ⟨hqty, hcount⟩ := counts_arrived (arrived_receivedRow markPaid p.total payMethod p) y k
    obtain ⟨hid, hq⟩ := receivedRow_goods markPaid p.total payMethod p
    rw [receiveGoods_purchases, addPurchase_purchases, Table.total_insert, Table.total_insert,
      hqty, hcount, hid, hq]
    exact ⟨rfl, rfl⟩
  | received id p product i profile createdBy found pending stocked =>
    refine conserves_of_receipt (p := p) stocked receiveGoods_products receiveGoods_movements
      ⟨rfl, rfl, rfl⟩ fun y k => ?_
    obtain ⟨hqty, hcount⟩ := counts_arrived (arrived_receivedRow false p.total none p) y k
    obtain ⟨hqty', hcount'⟩ := counts_pending pending y k
    obtain ⟨hid, hq⟩ := receivedRow_goods false p.total none p
    rw [receiveGoods_purchases, rewrite_purchases, Table.total_modify found,
      Table.total_modify found, hqty, hcount, hqty', hcount', hid, hq]
    constructor <;> ring
  | rejected id p found pending =>
    exact conserves_modify found rfl rfl rfl ⟨rfl, rfl⟩ (by simp [Arrived, rejectedRow, pending])
  | paid id p i profile pay method note pid found isOpen =>
    refine conserves_modify found settle_purchases rfl rfl ⟨rfl, rfl⟩ ?_
    exact iff_of_true (arrived_settledRow _ _ _ _ _) isOpen.arrived
  | noted id p note found => exact conserves_modify found rfl rfl rfl ⟨rfl, rfl⟩ Iff.rfl

end Step

/-! ## Runs -/

section Run

variable (env : Payment.Env) (db : Db)

/-- Over a run, stock and movements change by the purchase orders that arrive in it. -/
theorem conserves_run (rs : List Request) : Conserves db (run (step env) db rs) := by
  induction rs generalizing db with
  | nil => exact Conserves.refl db
  | cons r rs ih => exact (change_step env db r).conserves.trans (ih (step env db r))

/-- No move leaves a final status. -/
theorem Follows.of_final {p q : SupplierPurchase} (h : Follows p q)
    (hp : p.status = .rejected ∨ p.status = .paid) : q.status = p.status := by
  rcases h.status with heq | hmove
  · exact heq
  · rcases hp with hp | hp <;> rw [hp] at hmove <;> cases hmove

/-- Over a run, a final status stays. -/
theorem final_run (rs : List Request) {id : ℕ} {p : SupplierPurchase}
    (hp : db.purchases.get? id = some p) (hfinal : p.status = .rejected ∨ p.status = .paid) :
    ∃ q, (run (step env) db rs).purchases.get? id = some q ∧ q.status = p.status := by
  induction rs generalizing db p with
  | nil => exact ⟨p, hp, rfl⟩
  | cons r rs ih =>
    obtain ⟨q, hq, hfollows⟩ := (change_step env db r).evolves.kept id p hp
    have hstatus := hfollows.of_final hfinal
    obtain ⟨s, hs, hsq⟩ := ih (step env db r) hq (hstatus ▸ hfinal)
    exact ⟨s, hs, hsq.trans hstatus⟩

/-- In every run of requests, a purchase order moves goods once and then only money. -/
theorem lifecycle (rs : List Request) : Lifecycle env db rs where
  steps := fun _ r _ => (change_step env _ r).evolves
  final := by
    rintro pre _ ⟨rest, rfl⟩ _ id p hp hfinal
    rw [run_append]
    exact final_run env _ rest hp hfinal
  goods := by
    rintro pre _ ⟨rest, rfl⟩ _
    rw [run_append]
    exact conserves_run env _ rest

end Run

end Purchase

end SweetCrust
