import SweetCrust.Checkout.Shopping

/-!
# Is a cart of one shop?

Adding to a cart clears the lines that another shop sells.  Moving a saved line back does
not look at the others, and neither does ordering again.

* `shopCarts_step` — a request that does not mix shops leaves every cart to one shop.
* `orderOfShop` — the order of such a cart is of that shop.
* `singleShop` — both, over a run.
* `carts_mixed` — a run that mixes two shops by moving a saved line back.
-/

namespace SweetCrust

open Tabular Session Carts Checkout Runs Orders.OrderService

namespace Shopping

/-! ## Lines and their shops -/

/-- The shop that sells the product of a line. -/
def shopOf (products : Table Product) (productId : ℕ) : Option ℕ :=
  (products.get? productId).bind sellerOf

/-- The lines of the customer's cart whose product has a seller have the same. -/
def OneSupplier (db : Db) (u : ℕ) : Prop :=
  ∀ c ∈ cartOf db u, ∀ a ∈ activeItems db c.1, ∀ b ∈ activeItems db c.1,
    ∀ x ∈ shopOf db.products a.2.productId, ∀ y ∈ shopOf db.products b.2.productId, x = y

/-- The products of an order are all of the shop it goes to. -/
def OrderOfShop (db : Db) (o : ℕ) : Prop :=
  ∃ order, db.orders.get? o = some order ∧
    db.orderItems.All fun i => i.orderId = o → shopOf db.products i.productId = order.shopUserId

/-- Over a run, every cart is of one supplier, and every order that is created is of its
shop. -/
structure SingleShop (db : Db) (rs : List Request) : Prop where
  carts : Throughout step (fun t => ∀ u, OneSupplier t u) db rs
  orders : ∀ pre r o, pre ++ [r] <+: rs → created (run step db pre) r = some o →
    OrderOfShop (run step db (pre ++ [r])) o

/-! ## Requests that mix no shops -/

/-- The active lines of a cart are of products that the shop sells. -/
def SoldBy (products : Table Product) (items : Table CartItem) (c shop : ℕ) : Prop :=
  items.All fun item => inCart c item = true → shopOf products item.productId = some shop

instance (products : Table Product) (items : Table CartItem) (c shop : ℕ) :
    Decidable (SoldBy products items c shop) := inferInstanceAs (Decidable (Table.All _ _))

/-- The items that ordering again adds, up to the first that is refused. -/
def addedItems (db : Db) (o u : ℕ) : List OrderItem :=
  (pastItems db o u).takeWhile fun i => (offered db.products i).isSome

/-- A saved line that is moved back is of the shop that sells what is in the cart, and so are
the items that ordering again adds. -/
def KeepsShop (db : Db) : Request → Prop
  | .cart (.patch u k _ (some false)) =>
    ∀ item, db.cartItems.get? k = some item → item.cartId = (cartFor db u).1 →
      ∃ shop, SoldBy db.products db.cartItems (cartFor db u).1 shop ∧
        shopOf db.products item.productId = some shop
  | .reorder o u =>
    ∃ shop, SoldBy db.products db.cartItems (cartFor db u).1 shop ∧
      ∀ i ∈ addedItems db o u, shopOf db.products i.productId = some shop
  | _ => True

/-! ## The invariant -/

/-- Every cart is of one shop, and items belong to orders that exist. -/
structure ShopCarts (db : Db) : Prop where
  carts : ∀ c, ∃ shop, SoldBy db.products db.cartItems c shop
  items : db.orderItems.All fun i => i.orderId < db.orders.next

section Lines

variable {products : Table Product} {items : Table CartItem} {s : Db} {c shop : ℕ}
  {line : CartItem}

theorem SoldBy.remove (h : SoldBy products items c shop) (d : ℕ → CartItem → Bool) :
    SoldBy products (items.remove d) c shop := Table.All.remove h d

theorem soldBy_putLine (h : SoldBy products s.cartItems c shop)
    (hline : inCart c line = true → shopOf products line.productId = some shop) (k : ℕ) :
    SoldBy products (putLine k line s).cartItems c shop :=
  all_putLine h hline (fun _ hitem => hitem) k

/-- Once the lines of other shops are cleared, the cart is of the shop that is left. -/
theorem soldBy_clearOtherShops {before : ℕ} (h : SoldBy s.products s.cartItems c before) :
    SoldBy s.products (clearOtherShops c shop s).cartItems c shop := by
  intro r hr hin
  obtain ⟨hmem, hkept⟩ := List.mem_filter.1 hr
  have hbefore := h r hmem hin
  have hsold : ofOtherShop s shop r.2 = decide (before ≠ shop) := by
    unfold ofOtherShop
    rw [show (s.products.get? r.2.productId).bind sellerOf = some before from hbefore]
    simp
  simp only [hin, hsold, Bool.true_and, Bool.not_eq_true', decide_eq_false_iff_not,
    not_not] at hkept
  rw [hbefore, hkept]

/-- A saved line that is moved back. -/
theorem soldBy_modify {item : CartItem} {k : ℕ} {f : CartItem → CartItem}
    (h : SoldBy products items c shop) (hk : items.get? k = some item)
    (hf : inCart c (f item) = true → shopOf products (f item).productId = some shop) :
    SoldBy products (items.modify k f) c shop := by
  refine Table.All.modify_row h fun a ha => ?_
  rw [hk] at ha
  cases ha
  exact hf

end Lines

section Steps

variable {s t : Db} {u o : ℕ} {r : Request}

/-- Adding a product to a cart of one shop. -/
theorem soldBy_added (h : ∀ c, ∃ shop, SoldBy s.products s.cartItems c shop) (u y : ℕ)
    (quantity : ℤ) (variant flavor : Option String) (isEggless : Bool) {product : Product}
    {shop : ℕ} (hadd : Addable s y quantity product shop) (c : ℕ) :
    ∃ shop', SoldBy s.products
      (added u y quantity variant flavor isEggless product shop s).cartItems c shop' := by
  have hproducts : (withCart u s).products = s.products := (frame_withCart u s).products
  have hsold : shopOf s.products y = some shop := by
    simp [shopOf, hadd.found, hadd.shop]
  obtain ⟨before, hbefore⟩ := h c
  by_cases hc : c = (cartFor s u).1
  · refine ⟨shop, soldBy_putLine ?_ (fun _ => hsold) _⟩
    subst hc
    have hclear : SoldBy (withCart u s).products (withCart u s).cartItems (cartFor s u).1 before →
        SoldBy (withCart u s).products (clearOtherShops (cartFor s u).1 shop (withCart u s)).cartItems
          (cartFor s u).1 shop := soldBy_clearOtherShops
    rw [hproducts, withCart_cartItems] at hclear
    exact hclear hbefore
  · refine ⟨before, soldBy_putLine ?_ (fun hin => ?_) _⟩
    · refine SoldBy.remove ?_ _
      rw [withCart_cartItems]
      exact hbefore
    · have heq : (cartFor s u).1 = c := by simpa [inCart, newLine] using hin
      exact absurd heq.symm hc

/-- Ordering again, where the items that are added are of the shop that the cart is of. -/
theorem soldBy_reordered (h : ∀ c, ∃ shop, SoldBy s.products s.cartItems c shop)
    {items : List OrderItem} {shop : ℕ}
    (hcart : SoldBy s.products s.cartItems (cartFor s u).1 shop)
    (hitems : ∀ i ∈ items.takeWhile fun i => (offered s.products i).isSome,
      shopOf s.products i.productId = some shop) (c : ℕ) :
    ∃ shop', SoldBy s.products (reordered u items s).cartItems c shop' := by
  by_cases hc : c = (cartFor s u).1
  · subst hc
    exact ⟨shop, all_reordered hcart (fun _ _ _ hline => hline) fun i hi _ _ _ => hitems i hi⟩
  · obtain ⟨before, hbefore⟩ := h c
    refine ⟨before, all_reordered hbefore (fun _ _ _ hline => hline) fun i _ product _ hin => ?_⟩
    have heq : (cartFor s u).1 = c := by simpa [inCart, newLine] using hin
    exact absurd heq.symm hc

/-- A cart request that does not mix shops. -/
theorem soldBy_change (h : ∀ c, ∃ shop, SoldBy s.products s.cartItems c shop)
    {r : Carts.Request} {items : Table CartItem} {carts : Table Cart}
    (hchange : Change s r items carts) (hr : KeepsShop s (.cart r)) (c : ℕ) :
    ∃ shop, SoldBy s.products items c shop := by
  cases hchange with
  | keep => exact h c
  | cart => exact h c
  | put u y quantity variant flavor isEggless product shop hadd =>
    exact soldBy_added h u y quantity variant flavor isEggless hadd c
  | patch u k quantity saved item hk hown =>
    -- a line that stays active or is set aside leaves its cart as it was
    have hsame : saved ≠ some false → ∃ shop, SoldBy s.products
        (s.cartItems.modify k (patchItem (quantity.map Subtype.val) saved)) c shop := by
      intro hsaved
      obtain ⟨before, hbefore⟩ := h c
      refine ⟨before, Table.All.modify hbefore fun line hline hin => hline ?_⟩
      cases saved with
      | none => exact hin
      | some b =>
        cases b with
        | true => simp [inCart, patchItem] at hin
        | false => exact absurd rfl hsaved
    by_cases hsaved : saved = some false
    · subst hsaved
      obtain ⟨shop, hcart, hitem⟩ := hr item hk hown
      by_cases hc : c = (cartFor s u).1
      · subst hc
        exact ⟨shop, soldBy_modify hcart hk fun _ => hitem⟩
      · obtain ⟨before, hbefore⟩ := h c
        refine ⟨before, soldBy_modify hbefore hk fun hin => ?_⟩
        have heq : item.cartId = c := by simpa [inCart, patchItem] using hin
        exact absurd (heq.symm.trans hown) hc
    · exact hsame hsaved
  | remove u k item hk hown =>
    obtain ⟨shop, hshop⟩ := h c
    exact ⟨shop, hshop.remove _⟩

/-- A checkout changes no product's seller. -/
theorem shopOf_writeStock (lines : List Line) (seen products : Table Product) (y : ℕ) :
    shopOf (writeStock lines seen products) y = shopOf products y := by
  unfold shopOf
  simp only [writeStock, Table.get?_mapRows]
  cases products.get? y with
  | none => rfl
  | some p =>
    simp only [Option.map_some, Option.bind_some]
    split_ifs
    · cases (sellLines lines seen).get? y <;> rfl
    · rfl

theorem shopOf_checkedOut (draws : Draws) (q : Quote) (s : Db) (y : ℕ) :
    shopOf (checkedOut draws q s).products y = shopOf s.products y :=
  shopOf_writeStock q.summary.items s.products s.products y

/-- Requests that mix no shops leave every cart to one shop. -/
theorem ShopCarts.step (h : ShopCarts s) (hr : KeepsShop s r) : ShopCarts (step s r) := by
  rcases step_cases s r with ⟨hframe, hrefused⟩ | ⟨u, data, draws, q, rfl, hq, ht⟩
  · refine ⟨fun c => ?_, by rw [hframe.orderItems, hframe.orders]; exact h.items⟩
    rw [hframe.products]
    cases r with
    | cart r => exact soldBy_change h.carts (change_act s r).1 hr c
    | reorder o u =>
      obtain ⟨shop, hcart, hitems⟩ := hr
      rcases cartItems_reorder o u s with hsame | hadded
      · rw [show (Shopping.step s (.reorder o u)).cartItems = s.cartItems from hsame]
        exact h.carts c
      · rw [show (Shopping.step s (.reorder o u)).cartItems = _ from hadded]
        exact soldBy_reordered h.carts hcart hitems c
    | coupon u code =>
      rw [show (Shopping.step s (.coupon u code)).cartItems = s.cartItems from
        Promotion.cartItems_applyCoupon u code s]
      exact h.carts c
    | checkout u data draws =>
      rw [hrefused u data draws rfl, prepared_cartItems]
      exact h.carts c
  · have hprepared := frame_prepared u s
    rw [ht]
    refine ⟨fun c => ?_, ?_⟩
    · obtain ⟨shop, hshop⟩ := h.carts c
      have hkept : SoldBy (checkedOut draws q (prepared u s)).products s.cartItems c shop := by
        refine hshop.imp fun item hitem hin => ?_
        rw [shopOf_checkedOut, hprepared.products]
        exact hitem hin
      rw [← prepared_cartItems u s] at hkept
      exact ⟨shop, hkept.remove _⟩
    · have hold : (prepared u s).orderItems.All fun i => i.orderId < (prepared u s).orders.next + 1 := by
        rw [hprepared.orderItems, hprepared.orders]
        exact h.items.imp fun i hi => Nat.lt_succ_of_lt hi
      refine hold.insertAll fun i hi => ?_
      obtain ⟨line, _, rfl⟩ := List.mem_map.1 hi
      exact Nat.lt_succ_self _

/-! ## What follows -/

/-- A cart of one shop is of one supplier. -/
theorem ShopCarts.oneSupplier (h : ShopCarts s) (u : ℕ) : OneSupplier s u := by
  intro c _ a ha b hb x hx y hy
  obtain ⟨shop, hshop⟩ := h.carts c.1
  have hseller : ∀ r ∈ activeItems s c.1, shopOf s.products r.2.productId = some shop := fun r hr =>
    hshop r (List.mem_of_mem_filter hr) (List.mem_filter.1 hr).2
  rw [hseller a ha] at hx
  rw [hseller b hb] at hy
  rw [← Option.some.inj hx, ← Option.some.inj hy]

/-- The order of a cart of one shop goes to that shop. -/
theorem orderOfShop (h : ShopCarts s) (hc : created s r = some o) : OrderOfShop (step s r) o := by
  obtain ⟨u, data, draws, q, rfl, hq, rfl, ht⟩ := created_eq_some hc
  obtain ⟨shop, hshop⟩ := h.carts (cartFor s u).1
  have hprepared := frame_prepared u s
  obtain ⟨_, _, hsummary, hitems, hgoes⟩ := quote_eq_ok (quoted_eq_some hq).outcome
  have hlines : ∀ line ∈ q.summary.items, line.supplierUserId = some shop ∧
      shopOf s.products line.productId = some shop := by
    intro line hline
    rw [hsummary, items_summaryFor] at hline
    obtain ⟨r, hr, rfl⟩ := List.mem_map.1 hline
    have hsold := hshop r (List.mem_of_mem_filter hr) (List.mem_filter.1 hr).2
    refine ⟨?_, hsold⟩
    show shopOf (prepared u s).products r.2.productId = some shop
    rw [hprepared.products]
    exact hsold
  have hto : q.shopUserId = shop := by
    have hhead : (q.summary.items.filterMap Line.supplierUserId).head? = some q.shopUserId := by
      rw [← hgoes, hsummary]
      rfl
    cases hlist : q.summary.items with
    | nil => exact absurd hlist hitems
    | cons line rest =>
      have hline := (hlines line (by simp [hlist])).1
      rw [hlist, List.filterMap_cons_some hline, List.head?_cons] at hhead
      exact (Option.some.inj hhead).symm
  rw [ht]
  refine ⟨orderOf draws q, ?_, ?_⟩
  · rw [← hprepared.orders]
    exact order_checkedOut draws q (prepared u s)
  · have hold : (prepared u s).orderItems.All fun i => i.orderId = s.orders.next →
        shopOf (checkedOut draws q (prepared u s)).products i.productId = some q.shopUserId := by
      rw [hprepared.orderItems]
      refine h.items.imp fun i hi heq => ?_
      omega
    refine hold.insertAll fun i hi _ => ?_
    obtain ⟨line, hline, rfl⟩ := List.mem_map.1 hi
    rw [shopOf_checkedOut, hprepared.products, hto]
    exact (hlines line hline).2

/-- Requests that mix no shops leave every cart to one supplier, and every order to one shop. -/
theorem singleShop (h : ShopCarts s) {rs : List Request} (hrs : Stepwise step KeepsShop s rs) :
    SingleShop s rs := by
  have hall : Throughout step ShopCarts s rs :=
    throughout_of_stepwise (fun _ _ hs hr => hs.step hr) h hrs
  refine ⟨fun pre hpre u => (hall pre hpre).oneSupplier u, fun pre r o hpre hc => ?_⟩
  rw [run_concat]
  exact orderOfShop (hall pre ((List.prefix_append pre [r]).trans hpre)) hc

end Steps

/-! ## Two shops in a cart -/

/-- Two shops, users 1 and 2, with a cake each, and a customer, user 3. -/
def twoShops : Db :=
  { Db.empty with
    users := .ofList
      [{ (default : User) with role := .retailer }, { (default : User) with role := .retailer },
        default]
    products := .ofList
      [{ (default : Product) with
          supplierUserId := some 1, sellingPrice := 400, stockQty := 5, isActive := true },
        { (default : Product) with
          supplierUserId := some 2, sellingPrice := 500, stockQty := 5, isActive := true }]
    addresses := .ofList
      [{ (default : Address) with userId := 3, latitude := some 20, longitude := some 85 }] }

/-- Adding the cake of a shop. -/
def addCake (y : ℕ) : Request := .cart (.add 3 y Quantity.one none none false)

/-- Setting a line aside, or moving it back. -/
def save (k : ℕ) (saved : Bool) : Request := .cart (.patch 3 k none (some saved))

/-- Buying what is in the cart. -/
def buy : Request := .checkout 3 ⟨1, "upi", ""⟩ ⟨"ORD1", "TXN1", 0⟩

theorem twoShops_shopCarts : ShopCarts twoShops := by
  refine ⟨fun c => ⟨0, ?_⟩, ?_⟩
  · intro r hr
    cases hr
  · decide

/-- The cake of the first shop is set aside and moved back, and bought, and bought again. -/
theorem twoShops_singleShop :
    SingleShop twoShops [addCake 1, save 1 true, save 1 false, buy, .reorder 1 3] := by
  refine singleShop twoShops_shopCarts ?_
  refine stepwise_cons.2 ⟨trivial, stepwise_cons.2 ⟨trivial, stepwise_cons.2 ⟨?_,
    stepwise_cons.2 ⟨trivial, stepwise_cons.2 ⟨?_, stepwise_nil _ _⟩⟩⟩⟩⟩
  · intro item hitem _
    refine ⟨1, by decide +kernel, ?_⟩
    have hfound : (((step (step twoShops (addCake 1)) (save 1 true)).cartItems.get? 1).all fun i =>
        shopOf (step (step twoShops (addCake 1)) (save 1 true)).products i.productId = some 1) =
          true := by
      decide +kernel
    rw [hitem, Option.all_some, decide_eq_true_eq] at hfound
    exact hfound
  · exact ⟨1, by decide +kernel, by decide +kernel⟩

/-- The cake of the first shop is set aside, one of the second is added, and the first is moved
back. -/
theorem carts_mixed :
    ¬ SingleShop twoShops [addCake 1, save 1 true, addCake 2, save 1 false] := by
  intro h
  have hone := h.carts _ (List.prefix_refl _) 3
  revert hone
  unfold OneSupplier
  decide +kernel

end Shopping

end SweetCrust
