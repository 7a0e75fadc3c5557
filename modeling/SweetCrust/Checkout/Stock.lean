import SweetCrust.Cart.Requests
import SweetCrust.Checkout.Checkout
import SweetCrust.Lib.Runs

/-!
# The stock that checkouts take

Carts are filled, changed and bought while other services restock products.  A checkout
takes what it orders from the stock of each product, and stops at zero.  Adding to a cart
looks at the stock, but only for the amount added; nothing looks at it afterwards.

* `stock_checkedOut` — what an accepted checkout leaves of a product.
* `stockLaw_iff` — every checkout of a run lowers the stock by what it orders, and no more
  is sold than was there, exactly if each accepted checkout finds the stock its cart needs.
* `bakery_oversold` — a run in which none does.
-/

namespace SweetCrust

open Tabular Session Runs Carts

namespace Checkout

/-! ## What is ordered, and what is there -/

/-- How much of a product the lines hold. -/
def demand (lines : List Line) (y : ℕ) : ℤ :=
  (lines.map fun line => if line.productId = y then line.quantity else 0).sum

/-- How much of a product there is. -/
def stockIn (products : Table Product) (y : ℕ) : ℤ :=
  ((products.get? y).map Product.stockQty).getD 0

/-- How much of a product an order holds. -/
def ordered (db : Db) (o y : ℕ) : ℤ :=
  db.orderItems.total fun i => if i.orderId = o ∧ i.productId = y then i.quantity else 0

/-- How much of a product all orders hold. -/
def sold (db : Db) (y : ℕ) : ℤ :=
  db.orderItems.total fun i => if i.productId = y then i.quantity else 0

section Quantities

variable {lines : List Line} {products seen : Table Product} {y : ℕ}

@[simp] theorem demand_nil (y : ℕ) : demand [] y = 0 := rfl

@[simp] theorem demand_cons (line : Line) (lines : List Line) (y : ℕ) :
    demand (line :: lines) y =
      (if line.productId = y then line.quantity else 0) + demand lines y := by
  simp [demand]

theorem demand_nonneg (h : ∀ line ∈ lines, 0 ≤ line.quantity) (y : ℕ) : 0 ≤ demand lines y := by
  induction lines with
  | nil => simp
  | cons line lines ih =>
    have hline := h line (by simp)
    have hlines := ih fun l hl => h l (by simp [hl])
    rw [demand_cons]
    split_ifs <;> omega

theorem demand_of_not_buys (h : ¬ buys lines y) : demand lines y = 0 := by
  induction lines with
  | nil => rfl
  | cons line lines ih =>
    simp only [buys, List.mem_cons, exists_eq_or_imp, not_or] at h
    rw [demand_cons, if_neg h.1, ih h.2]
    rfl

theorem stockIn_of_get? {p : Product} (h : products.get? y = some p) :
    stockIn products y = p.stockQty := by
  simp [stockIn, h]

theorem stockIn_of_none (h : products.get? y = none) : stockIn products y = 0 := by
  simp [stockIn, h]

theorem stockIn_nonneg (h : products.All fun p => 0 ≤ p.stockQty) (y : ℕ) :
    0 ≤ stockIn products y := by
  cases hy : products.get? y with
  | none => rw [stockIn_of_none hy]
  | some p =>
    rw [stockIn_of_get? hy]
    exact h.get? hy

/-- Selling a quantity of a product takes it from the stock, which stops at zero. -/
theorem stockIn_sell {quantity : ℤ} (hq : 0 ≤ quantity) (products : Table Product) (i y : ℕ) :
    stockIn (products.modify i (sell quantity)) y =
      if i = y then max 0 (stockIn products y - quantity) else stockIn products y := by
  unfold stockIn
  rw [Table.get?_modify]
  by_cases hi : y = i
  · subst hi
    cases products.get? y with
    | none => simp; omega
    | some p => simp [sell]
  · rw [if_neg hi, if_neg fun h => hi h.symm]

/-- The lines of an order together take what they hold, and stop at zero once. -/
theorem stockIn_sellLines (hq : ∀ line ∈ lines, 0 ≤ line.quantity) (hs : 0 ≤ stockIn products y) :
    stockIn (sellLines lines products) y = max 0 (stockIn products y - demand lines y) := by
  induction lines generalizing products with
  | nil => simp [sellLines, hs]
  | cons line lines ih =>
    have hline := hq line (by simp)
    have hlines : ∀ l ∈ lines, 0 ≤ l.quantity := fun l hl => hq l (by simp [hl])
    have hdemand := demand_nonneg hlines y
    have hsell := stockIn_sell hline products line.productId y
    have hnext : 0 ≤ stockIn (products.modify line.productId (sell line.quantity)) y := by
      rw [hsell]
      split_ifs <;> omega
    show stockIn (sellLines lines (products.modify line.productId (sell line.quantity))) y = _
    rw [ih hlines hnext, hsell, demand_cons]
    split_ifs <;> omega

theorem get?_sellLines_isSome (lines : List Line) (products : Table Product) (y : ℕ) :
    ((sellLines lines products).get? y).isSome = (products.get? y).isSome := by
  induction lines generalizing products with
  | nil => rfl
  | cons line lines ih =>
    show ((sellLines lines (products.modify line.productId (sell line.quantity))).get? y).isSome = _
    rw [ih, Table.get?_modify]
    split_ifs <;> simp

/-- What a checkout writes of a product whose stock is the one it saw. -/
theorem stockIn_writeStock (hq : ∀ line ∈ lines, 0 ≤ line.quantity)
    (hs : 0 ≤ stockIn products y)
    (hseen : buys lines y →
      (seen.get? y).map Product.stockQty = (products.get? y).map Product.stockQty) :
    stockIn (writeStock lines seen products) y = max 0 (stockIn products y - demand lines y) := by
  have hdemand := demand_nonneg hq y
  by_cases hbuys : buys lines y
  · have hsame : stockIn seen y = stockIn products y := by
      unfold stockIn
      rw [hseen hbuys]
    have hsold : stockIn (sellLines lines seen) y = max 0 (stockIn seen y - demand lines y) :=
      stockIn_sellLines hq (hsame ▸ hs)
    rw [hsame] at hsold
    cases hp : products.get? y with
    | none => simp [stockIn, writeStock, hp, hdemand]
    | some p =>
      have hsome : ((sellLines lines seen).get? y).isSome = true := by
        have h := congrArg Option.isSome (hseen hbuys)
        rw [Option.isSome_map, Option.isSome_map, hp] at h
        rw [get?_sellLines_isSome, h]
        rfl
      obtain ⟨after, hafter⟩ := Option.isSome_iff_exists.1 hsome
      rw [← hsold, stockIn_of_get? hafter]
      simp [stockIn, writeStock, hp, hbuys, hafter, copyStock]
  · rw [demand_of_not_buys hbuys, sub_zero, max_eq_right hs]
    cases hp : products.get? y with
    | none => simp [stockIn, writeStock, hp]
    | some p => simp [stockIn, writeStock, hp, hbuys]

/-- The items of an order hold what its lines hold. -/
theorem total_orderItems (orderItems : Table OrderItem) (lines : List Line) (o : ℕ)
    (seen : Table Product) (p : ℕ → Prop) [DecidablePred p] (y : ℕ) (ho : p o) :
    (orderItems.insertAll (lines.map (orderItem o seen))).total
        (fun i => if p i.orderId ∧ i.productId = y then i.quantity else 0) =
      orderItems.total (fun i => if p i.orderId ∧ i.productId = y then i.quantity else 0) +
        demand lines y := by
  rw [Table.total_insertAll, List.map_map]
  congr 1
  unfold demand
  congr 1
  refine List.map_congr_left fun line _ => ?_
  simp [orderItem, ho]

end Quantities

/-! ## Runs of requests -/

/-- A request of a customer, or a change of stock by another service. -/
inductive Request
  | cart (r : Carts.Request)
  | restock (productId stock : ℕ)
  | checkout (userId : ℕ) (data : CheckoutIn) (draws : Draws)

/-- A product with another stock. -/
def setStock (stock : ℕ) (p : Product) : Product :=
  { p with stockQty := stock, stockStatus := stockStatusFor stock p.lowStockThreshold }

/-- What a request leaves in the database. -/
def step (db : Db) : Request → Db
  | .cart r => act db r
  | .restock y stock => { db with products := db.products.modify y (setStock stock) }
  | .checkout u data draws => final (checkout u data draws) db

/-- The order that a request creates. -/
def created (db : Db) : Request → Option ℕ
  | .checkout u data draws => (checkout u data draws db).2.toOption.map Prod.fst
  | _ => none

/-- A successful checkout lowers the stock of every product by what its order holds. -/
def LowersStock (db : Db) (r : Request) : Prop :=
  ∀ o, created db r = some o → ∀ y,
    stockIn (step db r).products y = stockIn db.products y - ordered (step db r) o y

/-- The request changes the stock of the product by hand. -/
def Restocks (y : ℕ) : Request → Prop
  | .restock y' _ => y' = y
  | _ => False

/-- Over a run, each successful checkout lowers the stock by what its order holds, and from
any point of the run on, until its stock is changed by hand, no more of a product is sold
than there was. -/
structure StockLaw (db : Db) (rs : List Request) : Prop where
  lowers : Stepwise step LowersStock db rs
  bounded : ∀ pre mid y, pre ++ mid <+: rs → (∀ r ∈ mid, ¬ Restocks y r) →
    sold (run step db (pre ++ mid)) y - sold (run step db pre) y ≤
      stockIn (run step db pre).products y

/-- How much of a product the customer's cart holds. -/
def cartDemand (db : Db) (userId y : ℕ) : ℤ :=
  match cartOf db userId with
  | some (cartId, _) =>
    db.cartItems.total fun item =>
      if inCart cartId item = true ∧ item.productId = y then item.quantity else 0
  | none => 0

/-- A checkout that is not refused finds the stock that the customer's cart needs. -/
def InStock (db : Db) : Request → Prop
  | .checkout u data _ => (quoted db u data).isSome →
      ∀ y, cartDemand db u y ≤ stockIn db.products y
  | _ => True

/-! ## The invariant -/

/-- No stock is negative, every line holds at least one, and lines and items belong to
carts and orders that exist. -/
structure Sound (db : Db) : Prop where
  stock : db.products.All fun p => 0 ≤ p.stockQty
  quantity : db.cartItems.All fun i => 1 ≤ i.quantity
  cart : db.cartItems.All fun i => i.cartId < db.carts.next
  order : db.orderItems.All fun i => i.orderId < db.orders.next

section Invariant

variable {s t : Db} {u : ℕ} {data : CheckoutIn} {draws : Draws} {q : Quote} {r : Request}

/-- Lines, carts and settings that a cart request leaves are sound. -/
theorem Sound.act (h : Sound s) (r : Carts.Request) : Sound (act s r) := by
  obtain ⟨hchange, hframe⟩ := change_act s r
  refine ⟨?_, ?_, ?_, ?_⟩
  · rw [hframe.products]
    exact h.stock
  · refine hchange.all h.quantity (fun line _ hline => hline) (fun line q hq hline => ?_)
      fun line q b hline => ?_
    · show 1 ≤ line.quantity + q
      omega
    · cases q with
      | none => exact hline
      | some q => exact q.2
  · have hcart : s.cartItems.All fun i => i.cartId < (Carts.act s r).carts.next :=
      h.cart.imp fun _ hi => lt_of_lt_of_le hi hchange.next_le
    exact hchange.all hcart (fun line hline _ => hline) (fun _ _ _ hline => hline)
      fun _ _ _ hline => hline
  · rw [hframe.orderItems, hframe.orders]
    exact h.order

/-- Rows that a summary creates are sound. -/
theorem Sound.prepared (h : Sound s) (u : ℕ) : Sound (prepared u s) := by
  have hframe := frame_prepared u s
  refine ⟨?_, ?_, ?_, ?_⟩
  · rw [hframe.products]
    exact h.stock
  · rw [prepared_cartItems]
    exact h.quantity
  · rw [prepared_cartItems, prepared_carts]
    exact h.cart.imp fun _ hi => lt_of_lt_of_le hi (next_le_withCart s u)
  · rw [hframe.orderItems, hframe.orders]
    exact h.order

theorem sellLines_nonneg {products : Table Product} (h : products.All fun p => 0 ≤ p.stockQty)
    (lines : List Line) : (sellLines lines products).All fun p => 0 ≤ p.stockQty := by
  induction lines generalizing products with
  | nil => exact h
  | cons line lines ih => exact ih (h.modify fun p _ => le_max_left _ _)

theorem writeStock_nonneg {seen products : Table Product}
    (hseen : seen.All fun p => 0 ≤ p.stockQty) (h : products.All fun p => 0 ≤ p.stockQty)
    (lines : List Line) : (writeStock lines seen products).All fun p => 0 ≤ p.stockQty := by
  refine h.mapRows fun y p hp => ?_
  split_ifs
  · split
    · rename_i after hafter
      have hnonneg : 0 ≤ after.stockQty := (sellLines_nonneg hseen lines).get? hafter
      exact hnonneg
    · exact hp
  · exact hp

theorem next_le_clearCoupon (seen : Db) (u : ℕ) (carts : Table Cart) :
    carts.next ≤ (clearCoupon seen u carts).next := by
  unfold clearCoupon
  split
  · exact le_rfl
  · exact Nat.le_succ _

/-- The last step of a checkout keeps the invariant. -/
theorem Sound.finish {o : ℕ} {seen : Db} (hseen : Sound seen) (h : Sound s)
    (ho : o < s.orders.next) (draws : Draws) (q : Quote) : Sound (finish o draws q seen s) where
  stock := writeStock_nonneg hseen.stock h.stock _
  quantity := h.quantity.remove _
  cart := (h.cart.remove _).imp fun _ hi => lt_of_lt_of_le hi (next_le_clearCoupon _ _ _)
  order := by
    refine h.order.insertAll fun i hi => ?_
    obtain ⟨line, _, rfl⟩ := List.mem_map.1 hi
    exact ho

theorem Sound.place (h : Sound s) (draws : Draws) (q : Quote) : Sound (place draws q s) where
  stock := h.stock
  quantity := h.quantity
  cart := h.cart
  order := h.order.imp fun _ hi => Nat.lt_succ_of_lt hi

theorem Sound.checkedOut (h : Sound s) (draws : Draws) (q : Quote) :
    Sound (checkedOut draws q s) :=
  (h.place draws q).finish (h.place draws q) (Nat.lt_succ_self _) draws q

/-- A checkout keeps the invariant, accepted or not. -/
theorem Sound.checkout (h : Sound s) (u : ℕ) (data : CheckoutIn) (draws : Draws) :
    Sound (final (checkout u data draws) s) := by
  cases hq : quoted s u data with
  | none =>
    rw [(checkout_refused hq draws).1]
    exact h.prepared u
  | some q =>
    rw [(checkout_returns hq draws).final]
    exact (h.prepared u).checkedOut draws q

/-- Every request keeps the invariant. -/
theorem Sound.step (h : Sound s) (r : Request) : Sound (step s r) := by
  cases r with
  | cart r => exact h.act r
  | restock y stock =>
    exact ⟨h.stock.modify fun _ _ => Int.natCast_nonneg stock, h.quantity, h.cart, h.order⟩
  | checkout u data draws => exact h.checkout u data draws

/-- The lines of the summary hold what the cart holds. -/
theorem demand_summaryFor (h : Sound s) (u y : ℕ) :
    demand (summaryFor s u).items y = cartDemand s u y := by
  have hsum : demand (summaryFor s u).items y =
      s.cartItems.total fun i =>
        if inCart (cartFor s u).1 i then (if i.productId = y then i.quantity else 0) else 0 := by
    rw [items_summaryFor, ← Table.sum_select]
    unfold demand activeItems
    rw [List.map_map]
    rfl
  rw [hsum]
  unfold cartDemand cartFor
  cases hcart : cartOf s u with
  | some r => simp only [Option.getD_some, ite_and]
  | none =>
    refine List.sum_eq_zero fun x hx => ?_
    obtain ⟨r, hr, rfl⟩ := List.mem_map.1 hx
    have hlt := h.cart r hr
    have hout : inCart s.carts.next r.2 = false := by
      simp only [inCart, decide_eq_false_iff_not, not_and]
      omega
    simp [hout]

/-- The stock covers a cart when it covers the products of its lines. -/
theorem cartDemand_le_of_lines (h : Sound s)
    (hlines : ∀ r ∈ activeItems s (cartFor s u).1,
      cartDemand s u r.2.productId ≤ stockIn s.products r.2.productId) (y : ℕ) :
    cartDemand s u y ≤ stockIn s.products y := by
  by_cases hbuys : buys (summaryFor s u).items y
  · obtain ⟨line, hline, rfl⟩ := hbuys
    rw [items_summaryFor] at hline
    obtain ⟨r, hr, rfl⟩ := List.mem_map.1 hline
    exact hlines r hr
  · rw [← demand_summaryFor h, demand_of_not_buys hbuys]
    exact stockIn_nonneg h.stock y

theorem quantity_summaryFor (h : Sound s) (u : ℕ) :
    ∀ line ∈ (summaryFor s u).items, 0 ≤ line.quantity := by
  intro line hline
  rw [items_summaryFor] at hline
  obtain ⟨r, hr, rfl⟩ := List.mem_map.1 hline
  have hone := h.quantity r (List.mem_of_mem_filter hr)
  show 0 ≤ r.2.quantity
  omega

end Invariant

/-! ## The law -/

section Law

variable {s : Db} {u : ℕ} {data : CheckoutIn} {draws : Draws} {q : Quote}

/-- What an accepted checkout leaves of a product. -/
theorem stock_checkedOut (h : Sound s) (hq : quoted s u data = some q) (draws : Draws) (y : ℕ) :
    stockIn (checkedOut draws q (prepared u s)).products y =
      max 0 (stockIn s.products y - cartDemand s u y) := by
  obtain ⟨_, _, hsummary, _⟩ := quote_eq_ok (quoted_eq_some hq).outcome
  have hproducts := (frame_prepared u s).products
  rw [← demand_summaryFor h, ← hsummary, ← hproducts]
  refine stockIn_writeStock ?_ (stockIn_nonneg (h.prepared u).stock y) fun _ => rfl
  rw [hsummary]
  exact quantity_summaryFor h u

/-- What the order of an accepted checkout holds. -/
theorem ordered_checkedOut (h : Sound s) (hq : quoted s u data = some q) (draws : Draws) (y : ℕ) :
    ordered (checkedOut draws q (prepared u s)) (prepared u s).orders.next y =
      cartDemand s u y := by
  obtain ⟨_, _, hsummary, _⟩ := quote_eq_ok (quoted_eq_some hq).outcome
  have hframe := frame_prepared u s
  unfold ordered
  show ((prepared u s).orderItems.insertAll _).total _ = _
  rw [total_orderItems _ _ _ _ (fun o => o = (prepared u s).orders.next) y rfl, hsummary,
    demand_summaryFor h]
  have hnone : (prepared u s).orderItems.total (fun i =>
      if i.orderId = (prepared u s).orders.next ∧ i.productId = y then i.quantity else 0) = 0 := by
    refine List.sum_eq_zero fun x hx => ?_
    obtain ⟨r, hr, rfl⟩ := List.mem_map.1 hx
    have hlt := (h.prepared u).order r hr
    exact if_neg (by omega)
  rw [hnone, zero_add]

theorem sold_checkedOut (h : Sound s) (hq : quoted s u data = some q) (draws : Draws) (y : ℕ) :
    sold (checkedOut draws q (prepared u s)) y = sold s y + cartDemand s u y := by
  obtain ⟨_, _, hsummary, _⟩ := quote_eq_ok (quoted_eq_some hq).outcome
  have hall := total_orderItems (prepared u s).orderItems q.summary.items
    (prepared u s).orders.next (prepared u s).products (fun _ => True) y trivial
  simp only [true_and] at hall
  unfold sold
  rw [← demand_summaryFor h, ← hsummary, ← (frame_prepared u s).orderItems]
  exact hall

/-- A successful checkout lowers the stock by what it orders exactly if the stock covers
the cart. -/
theorem lowersStock_iff (h : Sound s) (r : Request) : LowersStock s r ↔ InStock s r := by
  cases r with
  | cart r => exact ⟨fun _ => trivial, fun _ o ho => by cases ho⟩
  | restock y stock => exact ⟨fun _ => trivial, fun _ o ho => by cases ho⟩
  | checkout u data draws =>
    unfold LowersStock InStock
    cases hq : quoted s u data with
    | none =>
      obtain ⟨e, he⟩ := (checkout_refused hq draws).2
      have hnone : created s (.checkout u data draws) = none := by
        simp only [created, he]
        rfl
      simp [hnone, hq]
    | some q =>
      have hreturns := checkout_returns hq draws
      have hcreated : created s (.checkout u data draws) = some (prepared u s).orders.next := by
        simp only [created, hreturns.outcome]
        rfl
      have hstep : step s (.checkout u data draws) = checkedOut draws q (prepared u s) :=
        hreturns.final
      simp only [hcreated, hstep, hq, Option.some.injEq, forall_eq', Option.isSome_some,
        forall_const, stock_checkedOut h hq, ordered_checkedOut h hq]
      refine forall_congr' fun y => ?_
      omega

/-- Between changes by hand, stock and sales together stay what they are. -/
theorem stock_add_sold_step (h : Sound s) {r : Request} (hr : InStock s r) {y : ℕ}
    (hy : ¬ Restocks y r) :
    stockIn (step s r).products y + sold (step s r) y = stockIn s.products y + sold s y := by
  cases r with
  | cart r =>
    have hframe := (change_act s r).2
    show stockIn (Carts.act s r).products y + sold (Carts.act s r) y = _
    rw [sold, hframe.products, hframe.orderItems]
    rfl
  | restock y' stock =>
    have hne : y ≠ y' := fun heq => hy heq.symm
    show stockIn (s.products.modify y' _) y + _ = _
    rw [stockIn, Table.get?_modify_of_ne _ _ hne]
    rfl
  | checkout u data draws =>
    cases hq : quoted s u data with
    | none =>
      have hframe := frame_prepared u s
      have hstep : step s (.checkout u data draws) = prepared u s := (checkout_refused hq draws).1
      rw [hstep, sold, hframe.products, hframe.orderItems]
      rfl
    | some q =>
      have hstep : step s (.checkout u data draws) = checkedOut draws q (prepared u s) :=
        (checkout_returns hq draws).final
      have hcovers := hr (by rw [hq]; rfl) y
      rw [hstep, stock_checkedOut h hq, sold_checkedOut h hq, max_eq_right (by omega)]
      omega

/-- The same over a run. -/
theorem stock_add_sold_run (h : Sound s) {rs : List Request} (hrs : Stepwise step InStock s rs)
    {y : ℕ} (hy : ∀ r ∈ rs, ¬ Restocks y r) :
    stockIn (run step s rs).products y + sold (run step s rs) y =
      stockIn s.products y + sold s y := by
  induction rs generalizing s with
  | nil => rfl
  | cons r rs ih =>
    obtain ⟨hr, hrest⟩ := stepwise_cons.1 hrs
    rw [run_cons, ih (h.step r) hrest fun r' hr' => hy r' (List.mem_cons_of_mem _ hr'),
      stock_add_sold_step h hr (hy r List.mem_cons_self)]

/-- Over a run, every successful checkout lowers the stock by what it orders, and no more is
sold than there was, exactly if each checkout that is not refused finds the stock that its
cart needs. -/
theorem stockLaw_iff (h : Sound s) (rs : List Request) :
    StockLaw s rs ↔ Stepwise step InStock s rs := by
  have hsound : ∀ pre, Sound (run step s pre) := run_induction (fun _ r hs => hs.step r) h
  constructor
  · intro hlaw pre r hpre
    exact (lowersStock_iff (hsound pre) r).1 (hlaw.lowers pre r hpre)
  · intro hstock
    refine ⟨fun pre r hpre => (lowersStock_iff (hsound pre) r).2 (hstock pre r hpre), ?_⟩
    intro pre mid y hpre hmid
    have hsum := stock_add_sold_run (hsound pre) (hstock.after hpre) hmid
    have hleft : 0 ≤ stockIn (run step s (pre ++ mid)).products y :=
      stockIn_nonneg (hsound _).stock y
    rw [run_append] at hleft ⊢
    omega

end Law

/-! ## A cart that holds more than there is -/

/-- A shop, user 1, that has five cakes at ₹100, and a customer, user 2. -/
def bakery : Db :=
  { Db.empty with
    users := .ofList [{ (default : User) with role := .retailer }, default]
    products := .ofList
      [{ (default : Product) with
          supplierUserId := some 1, sellingPrice := 100, stockQty := 5, isActive := true }]
    addresses := .ofList
      [{ (default : Address) with userId := 2, latitude := some 20, longitude := some 85 }] }

/-- Adding cakes to the customer's cart. -/
def addCakes (n : Quantity) : Request := .cart (.add 2 1 n none none false)

/-- The customer's checkout. -/
def buyCakes : Request := .checkout 2 ⟨1, "upi", ""⟩ ⟨"ORD1", "TXN1", 0⟩

theorem bakery_sound : Sound bakery := by
  refine ⟨?_, ?_, ?_, ?_⟩ <;> decide

/-- Three cakes are bought: two are left, and three are sold. -/
theorem bakery_stockLaw : StockLaw bakery [addCakes ⟨3, by decide⟩, buyCakes] := by
  refine (stockLaw_iff bakery_sound _).2 ?_
  refine stepwise_cons.2 ⟨trivial, stepwise_cons.2 ⟨fun _ => ?_, stepwise_nil _ _⟩⟩
  exact cartDemand_le_of_lines (bakery_sound.step _) (by decide +kernel)

/-- Three cakes are added twice, which is six: the stock goes from five to zero. -/
theorem bakery_oversold :
    ¬ StockLaw bakery [addCakes ⟨3, by decide⟩, addCakes ⟨3, by decide⟩, buyCakes] := by
  intro hlaw
  have h := hlaw.lowers [addCakes ⟨3, by decide⟩, addCakes ⟨3, by decide⟩] buyCakes
    (List.prefix_refl _) 1 (by decide +kernel) 1
  revert h
  decide +kernel

end Checkout

end SweetCrust
