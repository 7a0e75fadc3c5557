import SweetCrust.Cart.Promotion
import SweetCrust.Cart.Requests
import SweetCrust.Orders.OrderService

/-!
# Ordering again

`reorder` of the order service puts the items of a past order into the cart, one call of
`add_to_cart` after another, each committed by itself.  This `add_to_cart` is an older copy
of the cart service's: it neither asks for a shop nor clears the lines of another.

* `reordered` — the database with the items added, up to the first that is refused.
* `reorder_cases` — what an answered or refused call leaves.
-/

namespace SweetCrust

open Tabular Session Carts Promotion

namespace Orders

namespace OrderService

/-- `add_to_cart` of the order service. -/
def addToCart (userId productId : ℕ) (quantity : ℤ) (variant flavor : Option String)
    (isEggless : Bool) : Service Summary := do
  let db ← get
  let product ← orRaise ((db.products.get? productId).filter Product.isActive)
    (.notFound "Product not found")
  raiseIf (product.stockQty < quantity) (.badRequest "Insufficient stock")
  let (cartId, _) ← getOrCreateCart userId
  modify (putLine cartId (newLine cartId productId quantity variant flavor isEggless product))
  commit
  return withoutShop (← cartSummary userId)

/-- Add items to the cart, one after another. -/
def addItems (userId : ℕ) : List OrderItem → Service Unit
  | [] => return ()
  | item :: rest => do
    let _ ← addToCart userId item.productId item.quantity item.variant item.flavor item.isEggless
    addItems userId rest

/-- `reorder`. -/
def reorder (orderId userId : ℕ) : Service Summary := do
  let detail ← orderDetail orderId userId
  addItems userId (detail.items.map Prod.snd)
  return withoutShop (← cartSummary userId)

/-! ## What a call leaves in the database -/

section Effects

variable {s : Db} {u : ℕ} {item : OrderItem} {product : Product}

/-- The product that an item adds, if it is not refused. -/
def offered (products : Table Product) (item : OrderItem) : Option Product :=
  (products.get? item.productId).filter fun p => p.isActive ∧ item.quantity ≤ p.stockQty

/-- The database with an item put into the customer's cart. -/
def itemPut (u : ℕ) (item : OrderItem) (product : Product) (s : Db) : Db :=
  putLine (cartFor s u).1
    (newLine (cartFor s u).1 item.productId item.quantity item.variant item.flavor item.isEggless
      product) (withCart u s)

/-- The same, once the cart is summed up. -/
def itemAdded (u : ℕ) (item : OrderItem) (product : Product) (s : Db) : Db :=
  prepared u (itemPut u item product s)

theorem addToCart_returns (h : offered s.products item = some product) (u : ℕ) :
    ∃ summary, Returns (addToCart u item.productId item.quantity item.variant item.flavor
      item.isEggless) s summary (itemAdded u item product s) := by
  obtain ⟨hget, hok⟩ := Option.filter_eq_some_iff.1 h
  simp only [Bool.decide_and, Bool.decide_eq_true, Bool.and_eq_true, decide_eq_true_eq] at hok
  have hactive : (s.products.get? item.productId).filter Product.isActive = some product :=
    Option.filter_eq_some_iff.2 ⟨hget, hok.1⟩
  refine ⟨withoutShop (summaryFor (itemPut u item product s) u), Returns.get_bind
    (Returns.orRaise_bind hactive (Returns.raiseIf_bind (not_lt.2 hok.2)
      ((getOrCreateCart_returns u s).bind ?_)))⟩
  exact Returns.modify_commit ((cartSummary_returns u _).bind (returns_pure _ _))

theorem addToCart_raises (h : offered s.products item = none) (u : ℕ) :
    Raises (addToCart u item.productId item.quantity item.variant item.flavor item.isEggless)
      s s := by
  refine Raises.get_bind ?_
  cases hp : (s.products.get? item.productId).filter Product.isActive with
  | none => exact raises_orRaise_bind rfl _ _ s
  | some product =>
    obtain ⟨hget, hactive⟩ := Option.filter_eq_some_iff.1 hp
    have hstock : product.stockQty < item.quantity := by
      by_contra hnot
      have hoffered : offered s.products item = some product :=
        Option.filter_eq_some_iff.2 ⟨hget, by simp [hactive, not_lt.1 hnot]⟩
      rw [h] at hoffered
      cases hoffered
    exact Raises.orRaise_bind rfl (raises_raiseIf_bind hstock _ _ s)

/-- The database with items added, up to the first that is refused. -/
def reordered (u : ℕ) : List OrderItem → Db → Db
  | [], s => s
  | item :: rest, s =>
    match offered s.products item with
    | some product => reordered u rest (itemAdded u item product s)
    | none => s

theorem frame_itemAdded (u : ℕ) (item : OrderItem) (product : Product) (s : Db) :
    Frame s (itemAdded u item product s) :=
  ((frame_withCart u s).trans (frame_putLine _ _ _)).trans (frame_prepared u _)

/-- Adding items stops at the first that is refused. -/
theorem addItems_cases (u : ℕ) (items : List OrderItem) (s : Db) :
    ((∀ i ∈ items, (offered s.products i).isSome) ∧
        Returns (addItems u items) s () (reordered u items s)) ∨
      (∃ i ∈ items, offered s.products i = none) ∧
        Raises (addItems u items) s (reordered u items s) := by
  induction items generalizing s with
  | nil => exact Or.inl ⟨by simp, returns_pure () s⟩
  | cons item rest ih =>
    unfold reordered
    cases h : offered s.products item with
    | none => exact Or.inr ⟨⟨item, List.mem_cons_self, h⟩, (addToCart_raises h u).bind _⟩
    | some product =>
      obtain ⟨summary, hadd⟩ := addToCart_returns h u
      have hrest := ih (itemAdded u item product s)
      rw [(frame_itemAdded u item product s).products] at hrest
      rcases hrest with ⟨hall, hrest⟩ | ⟨⟨i, hi, hnone⟩, hrest⟩
      · exact Or.inl ⟨List.forall_mem_cons.2 ⟨by rw [h]; rfl, hall⟩, hadd.bind hrest⟩
      · exact Or.inr ⟨⟨i, List.mem_cons_of_mem _ hi, hnone⟩, hadd.bind_raises hrest⟩

@[simp] theorem itemAdded_carts (u : ℕ) (item : OrderItem) (product : Product) (s : Db) :
    (itemAdded u item product s).carts = (withCart u s).carts :=
  prepared_carts_of (putLine_carts _ _ _)

/-- A property of every line is kept when the lines that are added have it, and merging keeps
it. -/
theorem all_reordered {p : CartItem → Prop} {items : List OrderItem} (h : s.cartItems.All p)
    (hmore : ∀ i ∈ items, ∀ line, p line → p (addQuantity i.quantity line))
    (hnew : ∀ i ∈ items.takeWhile fun i => (offered s.products i).isSome, ∀ product,
      offered s.products i = some product →
        p (newLine (cartFor s u).1 i.productId i.quantity i.variant i.flavor i.isEggless product)) :
    (reordered u items s).cartItems.All p := by
  induction items generalizing s with
  | nil => exact h
  | cons item rest ih =>
    unfold reordered
    cases hoffer : offered s.products item with
    | none => exact h
    | some product =>
      have hproducts : (itemAdded u item product s).products = s.products :=
        (frame_itemAdded u item product s).products
      have hcart : cartFor (itemAdded u item product s) u = cartFor s u :=
        cartFor_of_carts (itemAdded_carts u item product s)
      rw [List.takeWhile_cons_of_pos (by simp [hoffer])] at hnew
      refine ih ?_ (fun i hi => hmore i (List.mem_cons_of_mem _ hi)) ?_
      · show (prepared u (itemPut u item product s)).cartItems.All p
        rw [prepared_cartItems]
        refine all_putLine ?_ (hnew item (by simp) product hoffer) (hmore item (by simp)) _
        rw [withCart_cartItems]
        exact h
      · rw [hproducts, hcart]
        exact fun i hi => hnew i (List.mem_cons_of_mem _ hi)

/-- The items of a customer's past order. -/
def pastItems (db : Db) (o u : ℕ) : List OrderItem :=
  match (db.orders.get? o).filter fun order => order.userId = u with
  | some _ => (db.orderItems.select fun i => i.orderId = o).map Prod.snd
  | none => []

theorem pastItems_of_own {o : ℕ} {order : Order} (hord : s.orders.get? o = some order)
    (hown : order.userId = u) :
    pastItems s o u = (s.orderItems.select fun i => i.orderId = o).map Prod.snd := by
  have hfilter : (s.orders.get? o).filter (fun order => order.userId = u) = some order :=
    Option.filter_eq_some_iff.2 ⟨hord, by simp [hown]⟩
  simp only [pastItems, hfilter]

/-- The customer's own order is added as far as its items are not refused. -/
theorem reorder_own {o : ℕ} {order : Order} (hord : s.orders.get? o = some order)
    (hown : order.userId = u) :
    ((∀ i ∈ pastItems s o u, (offered s.products i).isSome) ∧
        ∃ summary, Returns (reorder o u) s summary
          (prepared u (reordered u (pastItems s o u) s))) ∨
      (∃ i ∈ pastItems s o u, offered s.products i = none) ∧
        Raises (reorder o u) s (reordered u (pastItems s o u) s) := by
  have hdetail := orderDetail_returns hord hown
  rw [pastItems_of_own hord hown]
  unfold reorder
  rcases addItems_cases u ((s.orderItems.select fun i => i.orderId = o).map Prod.snd) s with
    ⟨hall, hadd⟩ | ⟨hnone, hadd⟩
  · have hsummary := (cartSummary_returns u (reordered u
      ((s.orderItems.select fun i => i.orderId = o).map Prod.snd) s)).bind
        (f := fun summary => pure (withoutShop summary)) (returns_pure _ _)
    exact Or.inl ⟨hall, _, hdetail.bind (hadd.bind hsummary)⟩
  · exact Or.inr ⟨hnone, hdetail.bind_raises (hadd.bind _)⟩

/-- Another's order is not looked into. -/
theorem reorder_raises {o : ℕ} (h : ∀ order, s.orders.get? o = some order → order.userId ≠ u) :
    Raises (reorder o u) s s :=
  (orderDetail_raises h).bind _

/-- Ordering again changes nothing, or adds items of the past order. -/
theorem reorder_cases (o u : ℕ) (s : Db) :
    final (reorder o u) s = s ∨
      final (reorder o u) s = reordered u (pastItems s o u) s ∨
      final (reorder o u) s = prepared u (reordered u (pastItems s o u) s) := by
  by_cases hown : ∀ order, s.orders.get? o = some order → order.userId ≠ u
  · exact Or.inl (reorder_raises hown).final
  · simp only [not_forall, not_not] at hown
    obtain ⟨order, hord, hown⟩ := hown
    rcases reorder_own hord hown with ⟨-, summary, h⟩ | ⟨-, h⟩
    · exact Or.inr (Or.inr h.final)
    · exact Or.inr (Or.inl h.final)

theorem frame_reordered (u : ℕ) (items : List OrderItem) (s : Db) :
    Frame s (reordered u items s) := by
  induction items generalizing s with
  | nil => exact Frame.refl s
  | cons item rest ih =>
    unfold reordered
    cases offered s.products item with
    | none => exact Frame.refl s
    | some product => exact (frame_itemAdded u item product s).trans (ih _)

/-- Ordering again touches lines, carts and settings only. -/
theorem frame_reorder (o u : ℕ) (s : Db) : Frame s (final (reorder o u) s) := by
  rcases reorder_cases o u s with h | h | h
  · rw [h]
    exact Frame.refl s
  · rw [h]
    exact frame_reordered u _ s
  · rw [h]
    exact (frame_reordered u _ s).trans (frame_prepared u _)

theorem cartItems_reorder (o u : ℕ) (s : Db) :
    (final (reorder o u) s).cartItems = s.cartItems ∨
      (final (reorder o u) s).cartItems = (reordered u (pastItems s o u) s).cartItems := by
  rcases reorder_cases o u s with h | h | h
  · exact Or.inl (congrArg Db.cartItems h)
  · exact Or.inr (congrArg Db.cartItems h)
  · rw [h, prepared_cartItems]
    exact Or.inr rfl

end Effects

end OrderService

end Orders

end SweetCrust
