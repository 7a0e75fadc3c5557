import SweetCrust.Data.Rows
import SweetCrust.Lib.Decimal
import SweetCrust.Lib.Session

/-!
# The cart

`cart_summary` and the three calls that change a cart: `add_to_cart`,
`patch_cart_item` and `remove_cart_item`.  A cart holds the lines of one shop; a line
set aside (`saved_for_later`) is not part of the summary, and not bought.

* `summaryOf` — what the customer is shown, and what a checkout buys.
* `addToCart` — checks the stock against the amount added, and merges it into the line
  of the same product and variant.

Text is compared exactly.  The time of the last change of a cart is left out: nothing
reads it.
-/

namespace SweetCrust

open Tabular Session Rounding Text

namespace Carts

/-- A handler of the cart and checkout services. -/
abbrev Service (α : Type) : Type := Sess AppError Db α

/-! ## Rows created when missing -/

/-- The bakery's settings, or the ones they start as. -/
def settingsOf (db : Db) : BakerySettings :=
  ((db.settings.first? fun _ => true).map Prod.snd).getD .default

/-- The database with settings in it. -/
def withSettings (db : Db) : Db :=
  match db.settings.first? fun _ => true with
  | some _ => db
  | none => { db with settings := db.settings.insert .default }

/-- `_settings`: the bakery's settings, committed when there are none. -/
def settings : Service BakerySettings := do
  let db ← get
  match db.settings.first? fun _ => true with
  | some (_, s) => return s
  | none =>
    modify withSettings
    commit
    return .default

/-- The cart of a customer, with its key. -/
def cartOf (db : Db) (userId : ℕ) : Option (ℕ × Cart) :=
  db.carts.first? fun c => c.userId = userId

/-- The database with a cart for the customer in it. -/
def withCart (userId : ℕ) (db : Db) : Db :=
  match cartOf db userId with
  | some _ => db
  | none => { db with carts := db.carts.insert ⟨userId, none⟩ }

/-- `get_or_create_cart`: the cart of a customer, committed when there is none. -/
def getOrCreateCart (userId : ℕ) : Service (ℕ × Cart) := do
  let db ← get
  match cartOf db userId with
  | some cart => return cart
  | none =>
    modify (withCart userId)
    commit
    return (db.carts.next, ⟨userId, none⟩)

/-! ## What the customer is shown -/

/-- The shop that sells a product. -/
def sellerOf (product : Product) : Option ℕ := product.supplierUserId.filter fun u => u ≠ 0

/-- `customer_unit_price`. -/
def customerUnitPrice (product : Product) : ℚ := product.customerPrice.getD product.sellingPrice

/-- A line of a cart that is to be bought. -/
def inCart (cartId : ℕ) (item : CartItem) : Bool :=
  item.cartId = cartId ∧ item.savedForLater = false

/-- The lines of a cart that are to be bought, oldest first. -/
def activeItems (db : Db) (cartId : ℕ) : List (ℕ × CartItem) := db.cartItems.select (inCart cartId)

/-- The lines of a cart that are set aside. -/
def savedItems (db : Db) (cartId : ℕ) : List (ℕ × CartItem) :=
  db.cartItems.select fun item => item.cartId = cartId ∧ item.savedForLater = true

/-- A line of the summary. -/
structure Line where
  id : ℕ
  productId : ℕ
  productName : String
  productImage : Option String
  supplierUserId : Option ℕ
  variant : Option String
  flavor : Option String
  quantity : ℤ
  unitPrice : ℚ
  totalPrice : ℚ
  deriving DecidableEq, Inhabited

def lineOf (db : Db) (r : ℕ × CartItem) : Line :=
  let product := db.products.get? r.2.productId
  { id := r.1
    productId := r.2.productId
    productName := (product.map Product.name).getD "Product"
    productImage := product.bind Product.coverImageUrl
    supplierUserId := product.bind sellerOf
    variant := r.2.variant
    flavor := r.2.flavor
    quantity := r.2.quantity
    unitPrice := r.2.unitPrice
    totalPrice := r.2.unitPrice * r.2.quantity }

/-- A line that is set aside, as the summary shows it. -/
structure SavedLine where
  id : ℕ
  productId : ℕ
  quantity : ℤ
  deriving DecidableEq, Inhabited

/-- What `cart_summary` answers. -/
structure Summary where
  cartId : ℕ
  shopUserId : Option ℕ
  shopName : Option String
  items : List Line
  savedForLater : List SavedLine
  couponCode : Option String
  subtotal : ℚ
  discount : ℚ
  gst : ℚ
  deliveryFee : ℚ
  finalTotal : ℚ
  deriving DecidableEq, Inhabited

/-- `_coupon_discount`.  Amounts are floats: `fl` is what an operation on them does to its exact
result. -/
def couponDiscountIn (fl : ℚ → ℚ) (coupon : Coupon) (subtotal : ℚ) : ℚ :=
  if fl subtotal < fl coupon.minOrderAmount then 0
  else if coupon.couponType ∈ ["percentage", "first_order", "festival", "category", "product"] then
    let disc := fl (fl (fl subtotal * fl coupon.value) / 100)
    -- a limit of zero is no limit
    match coupon.maxDiscount.filter fun m => m ≠ 0 with
    | some m => min disc (fl m)
    | none => disc
  else if coupon.couponType = "free_delivery" then 0
  else min (fl coupon.value) (fl subtotal)

/-- The discount that the cart's coupon gives. -/
def discountIn (fl : ℚ → ℚ) (db : Db) (cart : Cart) (subtotal : ℚ) : ℚ :=
  match (truthy cart.couponCode).bind fun code =>
      db.coupons.first? fun c => c.code = code ∧ c.isActive = true with
  | some (_, coupon) => couponDiscountIn fl coupon subtotal
  | none => 0

/-- `_coupon_discount` on exact amounts. -/
def couponDiscount (coupon : Coupon) (subtotal : ℚ) : ℚ := couponDiscountIn id coupon subtotal

/-- The discount that the cart's coupon gives, on exact amounts. -/
def discountOf (db : Db) (cart : Cart) (subtotal : ℚ) : ℚ := discountIn id db cart subtotal

/-- The summary of a cart. -/
def summaryOf (db : Db) (cartId : ℕ) (cart : Cart) (s : BakerySettings) : Summary :=
  let items := (activeItems db cartId).map (lineOf db)
  let subtotal := (items.map Line.totalPrice).sum
  let shopUserId := (items.filterMap Line.supplierUserId).head?
  let discount := discountOf db cart subtotal
  let deliveryFee := if subtotal ≥ s.freeDeliveryMin then 0 else s.deliveryCharge
  let taxable := max (subtotal - discount) 0
  let gst := round2 (taxable * (1 / 20))
  { cartId
    shopUserId
    shopName := (shopUserId.bind fun u => profileOf db u).map fun r => r.2.shopName
    items
    savedForLater := (savedItems db cartId).map fun r => ⟨r.1, r.2.productId, r.2.quantity⟩
    couponCode := cart.couponCode
    subtotal := round2 subtotal
    discount := round2 discount
    gst
    deliveryFee
    finalTotal := round2 (taxable + gst + deliveryFee) }

/-- `cart_summary`. -/
def cartSummary (userId : ℕ) : Service Summary := do
  let (cartId, cart) ← getOrCreateCart userId
  let s ← settings
  let db ← get
  return summaryOf db cartId cart s

/-! ## Changing a cart -/

/-- The line is of a product that another shop sells. -/
def ofOtherShop (db : Db) (shopId : ℕ) (item : CartItem) : Bool :=
  ((db.products.get? item.productId).bind sellerOf).any fun u => u ≠ shopId

/-- The database without the lines of the cart that another shop sells. -/
def clearOtherShops (cartId shopId : ℕ) (db : Db) : Db :=
  { db with
    cartItems := db.cartItems.remove fun _ item => inCart cartId item && ofOtherShop db shopId item }

/-- More of what a line holds. -/
def addQuantity (quantity : ℤ) (item : CartItem) : CartItem :=
  { item with quantity := item.quantity + quantity }

/-- The database with a line put into the cart, or merged into the one of the same product
and variant. -/
def putLine (cartId : ℕ) (line : CartItem) (db : Db) : Db :=
  match db.cartItems.first? fun item =>
      inCart cartId item ∧ item.productId = line.productId ∧ item.variant = line.variant with
  | some (k, _) => { db with cartItems := db.cartItems.modify k (addQuantity line.quantity) }
  | none => { db with cartItems := db.cartItems.insert line }

/-- The line that adding a product makes. -/
def newLine (cartId productId : ℕ) (quantity : ℤ) (variant flavor : Option String)
    (isEggless : Bool) (product : Product) : CartItem where
  cartId := cartId
  productId := productId
  quantity := quantity
  variant := variant
  flavor := flavor
  isEggless := isEggless
  unitPrice := customerUnitPrice product
  savedForLater := false

/-- `add_to_cart`. -/
def addToCart (userId productId : ℕ) (quantity : ℤ) (variant flavor : Option String)
    (isEggless : Bool) : Service Summary := do
  let db ← get
  let product ← orRaise ((db.products.get? productId).filter Product.isActive)
    (.notFound "Product not found")
  let shopId ← orRaise (sellerOf product) (.badRequest "Product is not sold by a shop")
  raiseIf (product.stockQty < quantity) (.badRequest "Insufficient stock")
  let (cartId, _) ← getOrCreateCart userId
  modify fun db =>
    putLine cartId (newLine cartId productId quantity variant flavor isEggless product)
      (clearOtherShops cartId shopId db)
  commit
  cartSummary userId

/-- What a change of a cart answers. -/
inductive CartReply
  | message (text : String)
  | summary (s : Summary)

/-- A line with the fields that a request names. -/
def patchItem (quantity : Option ℤ) (savedForLater : Option Bool) (item : CartItem) : CartItem :=
  { item with
    quantity := quantity.getD item.quantity
    savedForLater := savedForLater.getD item.savedForLater }

/-- `patch_cart_item`: the stock is not looked at. -/
def patchCartItem (userId itemId : ℕ) (quantity : Option ℤ) (savedForLater : Option Bool) :
    Service CartReply := do
  let db ← get
  match db.cartItems.get? itemId with
  | none => return .message "not found"
  | some item =>
    let (cartId, _) ← getOrCreateCart userId
    if item.cartId ≠ cartId then return .message "not found"
    else
      modify fun db =>
        { db with cartItems := db.cartItems.modify itemId (patchItem quantity savedForLater) }
      commit
      return .summary (← cartSummary userId)

/-- `remove_cart_item`. -/
def removeCartItem (userId itemId : ℕ) : Service Summary := do
  let db ← get
  match db.cartItems.get? itemId with
  | none => cartSummary userId
  | some item =>
    let (cartId, _) ← getOrCreateCart userId
    if item.cartId ≠ cartId then cartSummary userId
    else
      modify fun db => { db with cartItems := db.cartItems.remove fun k _ => k = itemId }
      commit
      cartSummary userId

/-! ## What a call leaves in the database -/

section Effects

variable {s : Db} {u : ℕ}

/-- The cart that a customer has, or gets. -/
def cartFor (db : Db) (userId : ℕ) : ℕ × Cart :=
  (cartOf db userId).getD (db.carts.next, ⟨userId, none⟩)

/-- The database with the rows that a summary creates. -/
def prepared (userId : ℕ) (db : Db) : Db := withSettings (withCart userId db)

theorem settings_returns (s : Db) : Returns settings s (settingsOf s) (withSettings s) := by
  unfold settings settingsOf
  refine (returns_get s).bind ?_
  cases h : s.settings.first? fun _ => true with
  | none => exact Returns.modify_commit (returns_pure _ _)
  | some r =>
    have hkeep : withSettings s = s := by simp only [withSettings, h]
    rw [hkeep]
    exact returns_pure _ _

/-- With settings in the database, reading them commits nothing. -/
theorem settings_reads (s : Db) : Reads settings (withSettings s) := by
  have hrun : settings (withSettings s) = ([], .ok (settingsOf s, withSettings s)) := by
    unfold settings settingsOf withSettings
    rw [get_bind]
    cases h : s.settings.first? fun _ => true with
    | none =>
      have hnew : (s.settings.insert .default).first? (fun _ => true) =
          some (s.settings.next, .default) := by
        unfold Table.first? at *
        rw [Table.rows_insert, List.find?_append, h]
        rfl
      simp only [hnew]
      rfl
    | some r =>
      simp only [h]
      rfl
  refine ⟨congrArg Prod.fst hrun, ?_⟩
  rw [hrun]
  rintro a t ⟨⟩
  rfl

theorem getOrCreateCart_returns (u : ℕ) (s : Db) :
    Returns (getOrCreateCart u) s (cartFor s u) (withCart u s) := by
  unfold getOrCreateCart cartFor
  refine (returns_get s).bind ?_
  cases h : cartOf s u with
  | none => exact Returns.modify_commit (returns_pure _ _)
  | some r =>
    have hkeep : withCart u s = s := by simp only [withCart, h]
    rw [hkeep]
    exact returns_pure _ _

/-- Once the cart is there, it is the customer's. -/
theorem cartOf_withCart (u : ℕ) (s : Db) : cartOf (withCart u s) u = some (cartFor s u) := by
  unfold withCart cartFor
  cases h : cartOf s u with
  | some r => exact h
  | none =>
    unfold cartOf Table.first? at *
    rw [Table.rows_insert, List.find?_append, h]
    simp

theorem withCart_withCart (u : ℕ) (s : Db) : withCart u (withCart u s) = withCart u s := by
  rw [withCart, cartOf_withCart]

/-- The summary that a customer is shown. -/
def summaryFor (db : Db) (userId : ℕ) : Summary :=
  summaryOf (prepared userId db) (cartFor db userId).1 (cartFor db userId).2
    (settingsOf (withCart userId db))

theorem cartSummary_returns (u : ℕ) (s : Db) :
    Returns (cartSummary u) s (summaryFor s u) (prepared u s) := by
  unfold cartSummary
  refine (getOrCreateCart_returns u s).bind ?_
  refine (settings_returns (withCart u s)).bind ?_
  exact (returns_get _).bind (returns_pure _ _)

/-- The product can be added in that quantity, and is sold by the shop. -/
structure Addable (s : Db) (y : ℕ) (quantity : ℤ) (product : Product) (shopId : ℕ) : Prop where
  found : s.products.get? y = some product
  active : product.isActive = true
  shop : sellerOf product = some shopId
  stock : quantity ≤ product.stockQty

/-- The database with a line put into the customer's cart. -/
def added (u y : ℕ) (quantity : ℤ) (variant flavor : Option String) (isEggless : Bool)
    (product : Product) (shopId : ℕ) (s : Db) : Db :=
  putLine (cartFor s u).1
    (newLine (cartFor s u).1 y quantity variant flavor isEggless product)
    (clearOtherShops (cartFor s u).1 shopId (withCart u s))

/-- Adding a product that can be added puts a line into the cart. -/
theorem addToCart_returns (u : ℕ) {y : ℕ} {quantity : ℤ} {product : Product} {shopId : ℕ} {s : Db}
    (h : Addable s y quantity product shopId) (variant flavor : Option String)
    (isEggless : Bool) :
    Returns (addToCart u y quantity variant flavor isEggless) s
      (summaryFor (added u y quantity variant flavor isEggless product shopId s) u)
      (prepared u (added u y quantity variant flavor isEggless product shopId s)) := by
  have hp : (s.products.get? y).filter Product.isActive = some product :=
    Option.filter_eq_some_iff.2 ⟨h.found, h.active⟩
  unfold addToCart
  refine Returns.get_bind (Returns.orRaise_bind hp (Returns.orRaise_bind h.shop
    (Returns.raiseIf_bind (not_lt.2 h.stock) ((getOrCreateCart_returns u s).bind ?_))))
  exact Returns.modify_commit (cartSummary_returns u _)

/-- Adding a product that cannot be added raises, and changes nothing. -/
theorem addToCart_raises (u : ℕ) {y : ℕ} {quantity : ℤ} {s : Db}
    (h : ∀ product shopId, ¬ Addable s y quantity product shopId) (variant flavor : Option String)
    (isEggless : Bool) : Raises (addToCart u y quantity variant flavor isEggless) s s := by
  unfold addToCart
  cases hp : (s.products.get? y).filter Product.isActive with
  | none => exact Raises.get_bind (raises_orRaise_bind hp _ _ s)
  | some product =>
    obtain ⟨hget, hactive⟩ := Option.filter_eq_some_iff.1 hp
    cases hshop : sellerOf product with
    | none => exact Raises.get_bind (Raises.orRaise_bind hp (raises_orRaise_bind hshop _ _ s))
    | some shopId =>
      have hstock : product.stockQty < quantity :=
        not_le.1 fun hle => h product shopId ⟨hget, hactive, hshop, hle⟩
      exact Raises.get_bind (Raises.orRaise_bind hp (Raises.orRaise_bind hshop
        (raises_raiseIf_bind hstock _ _ s)))

/-- Adding to a cart raises and changes nothing, or puts a line into the cart. -/
theorem addToCart_cases (u y : ℕ) (quantity : ℤ) (variant flavor : Option String)
    (isEggless : Bool) (s : Db) :
    Raises (addToCart u y quantity variant flavor isEggless) s s ∨
      ∃ product shopId, Addable s y quantity product shopId ∧
        Returns (addToCart u y quantity variant flavor isEggless) s
          (summaryFor (added u y quantity variant flavor isEggless product shopId s) u)
          (prepared u (added u y quantity variant flavor isEggless product shopId s)) := by
  by_cases h : ∃ product shopId, Addable s y quantity product shopId
  · obtain ⟨product, shopId, hadd⟩ := h
    exact Or.inr ⟨product, shopId, hadd, addToCart_returns u hadd variant flavor isEggless⟩
  · simp only [not_exists] at h
    exact Or.inl (addToCart_raises u h variant flavor isEggless)

/-- Changing a line changes nothing, or at most creates the cart, or rewrites a line of it. -/
theorem final_patchCartItem (u k : ℕ) (quantity : Option ℤ) (savedForLater : Option Bool)
    (s : Db) :
    final (patchCartItem u k quantity savedForLater) s = s ∨
      final (patchCartItem u k quantity savedForLater) s = withCart u s ∨
      ∃ item, s.cartItems.get? k = some item ∧ item.cartId = (cartFor s u).1 ∧
        final (patchCartItem u k quantity savedForLater) s =
          prepared u { withCart u s with
            cartItems := (withCart u s).cartItems.modify k (patchItem quantity savedForLater) } := by
  unfold patchCartItem
  rw [final_get_bind]
  cases hk : s.cartItems.get? k with
  | none => exact Or.inl rfl
  | some item =>
    right
    rw [(getOrCreateCart_returns u s).final_bind]
    by_cases hown : item.cartId = (cartFor s u).1
    · right
      refine ⟨item, rfl, hown, ?_⟩
      simp only [hown, ne_eq, not_true_eq_false, if_false]
      exact (Returns.modify_commit ((cartSummary_returns u _).bind
        (f := fun summary => pure (CartReply.summary summary)) (returns_pure _ _))).final
    · left
      simp only [ne_eq, hown, not_false_eq_true, if_true]
      rfl

/-- Removing a line at most creates rows, or deletes a line of the cart. -/
theorem final_removeCartItem (u k : ℕ) (s : Db) :
    final (removeCartItem u k) s = prepared u s ∨
      ∃ item, s.cartItems.get? k = some item ∧ item.cartId = (cartFor s u).1 ∧
        final (removeCartItem u k) s =
          prepared u { withCart u s with
            cartItems := (withCart u s).cartItems.remove fun j _ => j = k } := by
  unfold removeCartItem
  rw [final_get_bind]
  cases hk : s.cartItems.get? k with
  | none => exact Or.inl (cartSummary_returns u s).final
  | some item =>
    rw [(getOrCreateCart_returns u s).final_bind]
    by_cases hown : item.cartId = (cartFor s u).1
    · right
      refine ⟨item, rfl, hown, ?_⟩
      simp only [hown, ne_eq, not_true_eq_false, if_false]
      exact (Returns.modify_commit (cartSummary_returns u _)).final
    · left
      simp only [ne_eq, hown, not_false_eq_true, if_true]
      rw [(cartSummary_returns u _).final, prepared, prepared, withCart_withCart]

end Effects

end Carts

end SweetCrust
