import SweetCrust.Catalog.Requests
import SweetCrust.Checkout.Shopping
import SweetCrust.Checkout.Stock
import SweetCrust.StoreOps.PurchaseSteps

/-!
# The store

Customers who fill their carts and buy, shops and the admin who keep the catalog, and the
bakery that buys stock from its suppliers, over one database.

* `Rewritten`, `rewritten_act` — everything that an act can do to the row of a product.
* `act_new` — a new row comes from a request that plans to add it.
-/

namespace SweetCrust

open Tabular Session Carts Checkout

namespace Catalog

inductive Act
  | shopping (r : Shopping.Request)
  | product (r : Request)
  | purchase (r : Purchase.Request)

/-- The database after an act. -/
def act (env : Payment.Env) (db : Db) : Act → Db
  | .shopping r => Shopping.step db r
  | .product r => serve db r
  | .purchase r => Purchase.step env db r

/-- The purchase order was opened with the request, or waits for its goods. -/
def Awaited (db : Db) (purchase : SupplierPurchase) : Prop :=
  Purchase.IsNew purchase ∨ ∃ id, db.purchases.get? id = some purchase

/-- What an act can do to the row `p` of product `y`. -/
inductive Rewritten (s : Db) (y : ℕ) (p : Product) : Act → Product → Prop
  | same (a : Act) : Rewritten s y p a p
  | written (r : Request) (f : Product → Product) (movements : List StockMovement)
      (h : planned s r = some (.write y p f movements)) : Rewritten s y p (.product r) (f p)
  | received (r : Purchase.Request) (purchase : SupplierPurchase) (h : Awaited s purchase)
      (hy : purchase.productId = y) : Rewritten s y p (.purchase r)
        ((Purchase.stockAfterReceipt p purchase.qty purchase.unitCost).apply p)
  | sold (u : ℕ) (data : CheckoutIn) (draws : Draws) (q : Quote) (after : Product)
      (h : quoted s u data = some q) (hbuys : buys q.summary.items y)
      (hafter : (sellLines q.summary.items s.products).get? y = some after) :
      Rewritten s y p (.shopping (.checkout u data draws)) (copyStock after p)

/-- No product is planned to be written, and no checkout is accepted. -/
def Idle (s : Db) : Act → Prop
  | .product r => planned s r = none
  | .shopping (.checkout u data _) => quoted s u data = none
  | _ => True

/-- What an act can do to products and movements. -/
inductive Effect (s : Db) : Act → Table Product → Table StockMovement → Prop
  | keep (a : Act) (h : Idle s a) : Effect s a s.products s.movements
  | added (r : Request) (p : Product) (h : planned s r = some (.add p)) :
      Effect s (.product r) (s.products.insert p) s.movements
  | written (r : Request) (y : ℕ) (p : Product) (f : Product → Product)
      (movements : List StockMovement) (h : planned s r = some (.write y p f movements)) :
      Effect s (.product r) (s.products.modify y f) (s.movements.insertAll movements)
  | received (r : Purchase.Request) (purchase : SupplierPurchase) (p : Product) (shopName : String)
      (createdBy : Option ℕ) (h : Awaited s purchase)
      (hp : s.products.get? purchase.productId = some p) :
      Effect s (.purchase r)
        (s.products.modify purchase.productId
          (Purchase.stockAfterReceipt p purchase.qty purchase.unitCost).apply)
        (s.movements.insert (Purchase.receiptMovement purchase shopName createdBy))
  | sold (u : ℕ) (data : CheckoutIn) (draws : Draws) (q : Quote) (h : quoted s u data = some q) :
      Effect s (.shopping (.checkout u data draws))
        (writeStock q.summary.items s.products s.products) s.movements

section Steps

variable {env : Payment.Env} {s : Db} {a : Act} {y : ℕ} {p : Product}
  {products : Table Product} {movements : Table StockMovement}

theorem effect_serve (s : Db) (r : Request) :
    Effect s (.product r) (serve s r).products (serve s r).movements := by
  rw [(serve_eq s r).products, (serve_eq s r).movements]
  cases h : planned s r with
  | none => exact .keep _ h
  | some c =>
    cases c with
    | add p => exact .added r p h
    | write y p f movements => exact .written r y p f movements h

theorem effect_purchase (env : Payment.Env) (s : Db) (r : Purchase.Request) :
    Effect s (.purchase r) (Purchase.step env s r).products (Purchase.step env s r).movements := by
  have hchange := Purchase.change_step env s r
  generalize Purchase.step env s r = t at hchange
  cases hchange with
  | idle => exact .keep _ trivial
  | opened p hnew => exact .keep _ trivial
  | bought p product i profile createdBy markPaid payMethod hnew hstocked hsupplier =>
    rw [Purchase.receiveGoods_products, Purchase.receiveGoods_movements]
    exact .received r p product profile.shopName createdBy (Or.inl hnew) hstocked
  | received id p product i profile createdBy hfound hpending hstocked hsupplier =>
    rw [Purchase.receiveGoods_products, Purchase.receiveGoods_movements]
    exact .received r p product profile.shopName createdBy (Or.inr ⟨id, hfound⟩) hstocked
  | rejected id p hfound hpending => exact .keep _ trivial
  | paid id p i profile pay method note pid hfound hopen hcents hrules hsupplier => exact .keep _ trivial
  | noted id p note hfound hopen => exact .keep _ trivial

/-- What a purchase leaves alone. -/
theorem cartItems_purchase (env : Payment.Env) (s : Db) (r : Purchase.Request) :
    (Purchase.step env s r).cartItems = s.cartItems ∧
      (Purchase.step env s r).orderItems = s.orderItems ∧
      (Purchase.step env s r).orders = s.orders := by
  have hchange := Purchase.change_step env s r
  generalize Purchase.step env s r = t at hchange
  cases hchange with
  | bought p product i profile createdBy markPaid =>
    cases markPaid <;> exact ⟨rfl, rfl, rfl⟩
  | _ => exact ⟨rfl, rfl, rfl⟩

theorem movements_of_frame {t : Db} (h : Carts.Frame s t) : t.movements = s.movements := by
  obtain ⟨_, _, _, rfl⟩ := h
  rfl

theorem effect_shopping (s : Db) (r : Shopping.Request) :
    Effect s (.shopping r) (Shopping.step s r).products (Shopping.step s r).movements := by
  have hkeep : ∀ {t : Db}, Carts.Frame s t → Idle s (.shopping r) →
      Effect s (.shopping r) t.products t.movements := by
    intro t hframe hidle
    rw [hframe.products, movements_of_frame hframe]
    exact .keep _ hidle
  cases r with
  | cart r => exact hkeep (change_act s r).2 trivial
  | reorder o u => exact hkeep (Orders.OrderService.frame_reorder o u s) trivial
  | coupon u code => exact hkeep (Promotion.frame_applyCoupon u code s) trivial
  | checkout u data draws =>
    have hprepared := frame_prepared u s
    cases hq : quoted s u data with
    | none =>
      have ht : Shopping.step s (.checkout u data draws) = prepared u s :=
        (checkout_refused hq draws).1
      rw [ht]
      exact hkeep hprepared hq
    | some q =>
      have ht : Shopping.step s (.checkout u data draws) = checkedOut draws q (prepared u s) :=
        (checkout_returns hq draws).final
      have hproducts : (checkedOut draws q (prepared u s)).products =
          writeStock q.summary.items s.products s.products := by
        show writeStock q.summary.items (prepared u s).products (prepared u s).products = _
        rw [hprepared.products]
      have hmovements : (checkedOut draws q (prepared u s)).movements = s.movements := by
        rw [← movements_of_frame hprepared]
        rfl
      rw [ht, hproducts, hmovements]
      exact .sold u data draws q hq

/-- Everything that an act can do to products and movements. -/
theorem effect_act (env : Payment.Env) (s : Db) (a : Act) :
    Effect s a (act env s a).products (act env s a).movements := by
  cases a with
  | shopping r => exact effect_shopping s r
  | product r => exact effect_serve s r
  | purchase r => exact effect_purchase env s r

/-- Everything that an act can do to the row of a product. -/
theorem Effect.row (h : Effect s a products movements) (hp : s.products.get? y = some p) :
    ∃ q, products.get? y = some q ∧ Rewritten s y p a q := by
  cases h with
  | keep => exact ⟨p, hp, .same a⟩
  | added r new h =>
    have hy : y ≠ s.products.next := (Table.lt_next_of_get? hp).ne
    exact ⟨p, by simp [hy, hp], .same _⟩
  | written r k p' f ms h =>
    rw [Table.get?_modify]
    by_cases hk : y = k
    · subst hk
      obtain ⟨hp', _⟩ := written_of_planned h
      rw [hp] at hp'
      cases hp'
      exact ⟨f p, by simp [hp], .written r f ms h⟩
    · exact ⟨p, by simp [hk, hp], .same _⟩
  | received r purchase p' shopName createdBy h hp' =>
    rw [Table.get?_modify]
    by_cases hk : y = purchase.productId
    · subst hk
      rw [hp] at hp'
      cases hp'
      exact ⟨_, by simp [hp], .received r purchase h rfl⟩
    · exact ⟨p, by simp [hk, hp], .same _⟩
  | sold u data draws q h =>
    have hsome := get?_sellLines_isSome q.summary.items s.products y
    rw [hp] at hsome
    obtain ⟨after, hafter⟩ := Option.isSome_iff_exists.1 hsome
    by_cases hbuys : buys q.summary.items y
    · exact ⟨_, by simp [writeStock, hp, hbuys, hafter],
        .sold u data draws q after h hbuys hafter⟩
    · exact ⟨p, by simp [writeStock, hp, hbuys], .same _⟩

theorem rewritten_act (env : Payment.Env) (a : Act) (hp : s.products.get? y = some p) :
    ∃ q, (act env s a).products.get? y = some q ∧ Rewritten s y p a q :=
  (effect_act env s a).row hp

/-- A row that was not there comes from a request that plans to add it. -/
theorem Effect.new (h : Effect s a products movements) (hp : s.products.get? y = none)
    (hy : products.get? y = some p) :
    ∃ r, a = .product r ∧ planned s r = some (.add p) ∧ y = s.products.next ∧
      movements = s.movements := by
  cases h with
  | keep =>
    rw [hp] at hy
    cases hy
  | added r new h =>
    by_cases hk : y = s.products.next
    · subst hk
      rw [Table.get?_insert, if_pos rfl] at hy
      cases hy
      exact ⟨r, rfl, h, rfl, rfl⟩
    · simp [hk, hp] at hy
  | written r k p' f ms h =>
    rw [Table.get?_modify] at hy
    split_ifs at hy <;> simp [hp] at hy
  | received r purchase p' shopName createdBy h hp' =>
    rw [Table.get?_modify] at hy
    split_ifs at hy <;> simp [hp] at hy
  | sold u data draws q h => simp [writeStock, hp] at hy

end Steps

end Catalog

end SweetCrust
