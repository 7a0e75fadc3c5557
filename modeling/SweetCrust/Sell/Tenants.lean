import SweetCrust.Catalog.Categories
import SweetCrust.Catalog.Products
import SweetCrust.Lib.Runs
import SweetCrust.Orders.StoreOps
import SweetCrust.Sell.Coupons

/-!
# Shops beside each other

All shops that sell share the tables of products, categories, coupons, banners and orders, and every
request names a row by its key.  `sell.py` looks up the row and then asks whose it is.

Of a category only what the requests of shops read is kept here; `createCategory_core` says that
this is what the full rows of `Categories.createCategory` show of themselves.

* `viewOf` — the rows of one shop, or of the bakery itself.
* `view_step` — a request of another shop changes none of them.
* `apart_run` — nor does any run of requests of other shops.
* `sound_run` — what a shop may rely on of its own products and categories, along every run.
-/

namespace SweetCrust

open Tabular Session Text Runs Decimal

namespace Sell

variable (cs : Categories.Charset)

/-! ## Categories -/

/-- `(data.get(key) or "").strip()`. -/
def trimmed (s : Option String) : String := String.ofList (strip isSpace (s.getD "").toList)

/-- The row of a new category of a shop. -/
def ownCategory (userId : ℕ) (name : String) : Category where
  name := name
  parentId := none
  ownerUserId := some userId
  isActive := true

/-- The shop has the category already. -/
def hasCategory (t : Table Category) (userId : ℕ) (name : String) : Bool :=
  (t.first? fun c =>
    c.ownerUserId = some userId ∧ c.parentId = none ∧ c.name = name ∧ c.isActive).isSome

/-- The platform's category of the name. -/
def platformCategory (t : Table Category) (name : String) : Option Category :=
  (t.first? fun c => c.isActive ∧ c.parentId = none ∧ c.ownerUserId = none ∧
    Categories.folded cs c.name = cs.lower name.toList).map Prod.snd

/-- `create_category`: the row fits in its columns, or is refused there. -/
def createCategory (userId now : ℕ) (name : Option String) (fits : Bool) : Service Unit := do
  let _ ← sellingShop userId now
  raiseIf (trimmed name = "") (.badRequest "Category name is required")
  raiseIf ((trimmed name).length < 2) (.badRequest "Name must be at least 2 characters")
  raiseIf (120 < (trimmed name).length) (.badRequest "Name is too long")
  let db ← get
  raiseIf (hasCategory db.categories userId (trimmed name))
    (.badRequest "You already have this category")
  match platformCategory cs db.categories (trimmed name) with
  | some clash => raise (.badRequest (Categories.clashText clash.name))
  | none =>
    raiseIf (fits = false) (.uncaught "DataError")
    modify fun db =>
      { db with categories := db.categories.insert (ownCategory userId (trimmed name)) }
    commit

/-! ## Banners -/

structure Banner where
  title : String
  subtitle : Option String
  imageUrl : String
  linkType : Option String
  linkValue : Option String
  isActive : Bool
  sortOrder : ℤ
  shopUserId : Option ℕ
  deriving DecidableEq, Inhabited

/-- The tables, those of the banners beside the others. -/
structure Mall where
  db : Db
  banners : Table Banner

structure BannerIn where
  title : Option String := none
  subtitle : Option String := none
  imageUrl : Option String := none
  themeColor : Option String := none
  linkType : Option String := none
  linkValue : Option String := none
  isActive : Bool := true
  sortOrder : ℤ := 0

/-- A theme as the address of an image: `theme:#hex`. -/
def themeUrl (theme : String) : String :=
  if "theme:".toList <+: theme.toList then theme
  else if "#".toList <+: theme.toList then "theme:" ++ theme
  else "theme:#" ++ theme

/-- The row that `create_banner` adds. -/
def bannerRow (userId : ℕ) (data : BannerIn) : Except AppError Banner := do
  let title := trimmed data.title
  let theme := trimmed data.themeColor
  Guard.raiseIf (title = "") (.badRequest "Banner title is required")
  let imageUrl :=
    if trimmed data.imageUrl = "" ∧ theme ≠ "" then themeUrl theme else trimmed data.imageUrl
  Guard.raiseIf (imageUrl = "") (.badRequest "Upload an image or pick a theme color")
  let linkType := truthy (some (String.ofList (lower (trimmed data.linkType).toList)))
  let linkValue := truthy (some (trimmed data.linkValue))
  Guard.raiseIf (linkType ∉ [none, some "shop", some "order", some "coupon", some "url",
    some "none"]) (.badRequest "Invalid banner action")
  let (linkType, linkValue) :=
    if linkType = some "none" then (none, none) else (linkType, linkValue)
  Guard.raiseIf (linkType = some "coupon" ∧ linkValue = none)
    (.badRequest "Pick a coupon / offer code for this banner")
  Guard.raiseIf (linkType = some "url" ∧ linkValue = none)
    (.badRequest "Enter a link URL for this banner")
  return {
    title, imageUrl, linkType, linkValue
    subtitle := data.subtitle
    isActive := data.isActive
    sortOrder := data.sortOrder
    shopUserId := some userId }

/-- `ShopBannerPatchIn`: a value that is missing is not changed. -/
structure BannerPatchIn where
  title : Option String := none
  subtitle : Option String := none
  imageUrl : Option String := none
  linkType : Option String := none
  linkValue : Option String := none
  isActive : Option Bool := none
  sortOrder : Option ℤ := none

/-- A banner with the values that a request names, unchecked. -/
def patchedBanner (data : BannerPatchIn) (b : Banner) : Banner :=
  { b with
    title := data.title.getD b.title
    subtitle := data.subtitle.or b.subtitle
    imageUrl := data.imageUrl.getD b.imageUrl
    linkType := data.linkType.or b.linkType
    linkValue := data.linkValue.or b.linkValue
    isActive := data.isActive.getD b.isActive
    sortOrder := data.sortOrder.getD b.sortOrder }

/-! ## Handlers on the mall -/

/-- A handler of the other tables. -/
def onDb {α : Type} (m : Service α) : Sess AppError Mall α := fun s =>
  ((m s.db).1.map fun db => { s with db },
    (m s.db).2.map fun r => (r.1, { s with db := r.2 }))

/-- `create_banner`: the key of the banner. -/
def createBanner (userId now : ℕ) (data : BannerIn) : Sess AppError Mall ℕ := do
  let _ ← onDb (sellingShop userId now)
  let s ← get
  let b ← ofExcept (bannerRow userId data)
  modify fun s => { s with banners := s.banners.insert b }
  commit
  return s.banners.next

/-- `patch_banner`. -/
def patchBanner (userId bannerId now : ℕ) (data : BannerPatchIn) : Sess AppError Mall Unit := do
  let _ ← onDb (sellingShop userId now)
  let s ← get
  let _ ← orRaise ((s.banners.get? bannerId).filter fun b => b.shopUserId = some userId)
    (.notFound "Banner not found")
  modify fun s => { s with banners := s.banners.modify bannerId (patchedBanner data) }
  commit

/-- `admin_set_shop_banner_active`. -/
def adminSetShopBannerActive (bannerId shopUserId : ℕ) (isActive : Bool) :
    Sess AppError Mall Unit := do
  let s ← get
  let _ ← orRaise ((s.banners.get? bannerId).filter fun b => b.shopUserId = some shopUserId)
    (.notFound "Banner not found")
  modify fun s => { s with banners := s.banners.modify bannerId fun b => { b with isActive } }
  commit

/-- `admin_set_shop_coupon_active`. -/
def adminSetShopCouponActive (couponId shopUserId : ℕ) (isActive : Bool) : Service Unit := do
  let db ← get
  let _ ← orRaise ((db.coupons.get? couponId).filter fun c => c.shopUserId = some shopUserId)
    (.notFound "Offer not found")
  modify fun db => { db with coupons := db.coupons.modify couponId fun c => { c with isActive } }
  commit

/-! ## Requests -/

inductive Act
  | createCategory (name : Option String) (fits : Bool)
  | createProduct (data : Catalog.MyProductIn)
  | patchProduct (productId : ℕ) (data : Catalog.MyProductPatch)
  | deleteProduct (productId : ℕ)
  | createCoupon (data : CouponIn)
  | patchCoupon (couponId : ℕ) (data : CouponPatchIn)
  | createBanner (data : BannerIn)
  | patchBanner (bannerId : ℕ) (data : BannerPatchIn)
  | salesStatus (orderId : ℕ) (status : String) (note : Option String)
  /-- The admin shows or hides a banner, or a coupon, of the shop. -/
  | bannerActive (bannerId : ℕ) (isActive : Bool)
  | couponActive (couponId : ℕ) (isActive : Bool)

/-- A request of a shop, or about a shop. -/
structure ShopRequest where
  shop : ℕ
  now : ℕ
  act : Act

def shopStep (s : Mall) (r : ShopRequest) : Mall :=
  match r.act with
  | .createCategory name fits =>
    { s with db := final (Sell.createCategory cs r.shop r.now name fits) s.db }
  | .createProduct data => { s with db := final (Catalog.createMyProduct r.shop data r.now) s.db }
  | .patchProduct i data =>
    { s with db := final (Catalog.patchMyProduct r.shop i data r.now) s.db }
  | .deleteProduct i => { s with db := final (Catalog.deleteMyProduct r.shop i r.now) s.db }
  | .createCoupon data => { s with db := final (Sell.createCoupon r.shop r.now data) s.db }
  | .patchCoupon i data => { s with db := final (Sell.patchCoupon r.shop i r.now data) s.db }
  | .createBanner data => final (Sell.createBanner r.shop r.now data) s
  | .patchBanner i data => final (Sell.patchBanner r.shop i r.now data) s
  | .salesStatus o status note =>
    { s with db := final (Orders.StoreOps.updateSalesStatus r.shop o status note r.now) s.db }
  | .bannerActive i isActive => final (adminSetShopBannerActive i r.shop isActive) s
  | .couponActive i isActive =>
    { s with db := final (adminSetShopCouponActive i r.shop isActive) s.db }

/-- Everything that a request of the shop `u` can do. -/
inductive Effect (s : Mall) (u : ℕ) : Mall → Prop
  | same : Effect s u s
  | expired (i : ℕ) (p : RetailerProfile) (hp : profileOf s.db u = some (i, p)) :
      Effect s u { s with db := withExpired i s.db }
  | newCategory (name : Option String) (hlong : 2 ≤ (trimmed name).length)
      (hshort : (trimmed name).length ≤ 120)
      (hown : hasCategory s.db.categories u (trimmed name) = false)
      (hplatform : platformCategory cs s.db.categories (trimmed name) = none) :
      Effect s u { s with db := { s.db with
        categories := s.db.categories.insert (ownCategory u (trimmed name)) } }
  | newProduct (profile : RetailerProfile) (data : Catalog.MyProductIn) (p : Product)
      (hp : Catalog.myNewProduct s.db u profile data = .ok p) :
      Effect s u { s with db := Catalog.insertProduct p s.db }
  | product (i : ℕ) (p : Product) (f : Product → Product)
      (hp : Catalog.myProduct s.db u i = some p)
      (hf : f = Catalog.withdrawn ∨ ∃ data, Catalog.myPatch s.db u data = .ok f) :
      Effect s u { s with db := Catalog.writeProduct i f s.db }
  | newCoupon (data : CouponIn) :
      Effect s u { s with db := { s.db with coupons := s.db.coupons.insert (newCoupon u data) } }
  | coupon (i : ℕ) (c : Coupon) (f : Coupon → Coupon)
      (hc : (s.db.coupons.get? i).filter (fun c => c.shopUserId = some u) = some c)
      (hf : (f c).shopUserId = c.shopUserId) :
      Effect s u { s with db := { s.db with coupons := s.db.coupons.modify i f } }
  | newBanner (data : BannerIn) (b : Banner) (hb : bannerRow u data = .ok b) :
      Effect s u { s with banners := s.banners.insert b }
  | banner (i : ℕ) (b : Banner) (f : Banner → Banner)
      (hb : (s.banners.get? i).filter (fun b => b.shopUserId = some u) = some b)
      (hf : (f b).shopUserId = b.shopUserId) :
      Effect s u { s with banners := s.banners.modify i f }
  | sale (o : ℕ) (a : Order) (status : OrderStatus) (note : Option String) (now : ℕ)
      (ha : Orders.StoreOps.soldOrder s.db u o = some a) :
      Effect s u { s with db := Orders.StoreOps.salesUpdated u o a status note now s.db }

section Effects

variable {cs} {u now : ℕ} {s : Mall}

/-- Behind the guard of a selling operation. -/
theorem effect_selling {α : Type} {k : ℕ × RetailerProfile → Service α}
    (hk : ∀ r, Effect cs s u { s with db := final (k r) s.db }) :
    Effect cs s u { s with db := final (sellingShop u now >>= k) s.db } := by
  by_cases hsell : ∃ i p, MaySell s.db u now i p
  · obtain ⟨i, p, hsell⟩ := hsell
    rw [(sellingShop_returns hsell).final_bind]
    exact hk (i, p)
  · simp only [not_exists] at hsell
    obtain ⟨t, hraises, rfl | ⟨i, p, hp, -, rfl⟩⟩ := sellingShop_refuses hsell
    · rw [(hraises.bind k).final]
      exact .same
    · rw [(hraises.bind k).final]
      exact .expired i p hp

theorem final_onDb {α : Type} (m : Service α) (s : Mall) :
    final (onDb m) s = { s with db := final m s.db } := by
  unfold final commits onDb
  simp only [List.getLastD_eq_getLast?, List.getLast?_map]
  cases (m s.db).1.getLast? <;> rfl

theorem onDb_returns {α : Type} {m : Service α} {a : α} {t : Db} (h : Returns m s.db a t) :
    Returns (onDb m) s a { s with db := t } where
  outcome := by
    unfold onDb
    simp only [h.outcome]
    rfl
  final := by rw [final_onDb, h.final]

theorem onDb_raises {α : Type} {m : Service α} {t : Db} (h : Raises m s.db t) :
    Raises (onDb m) s { s with db := t } where
  outcome := by
    obtain ⟨e, he⟩ := h.outcome
    refine ⟨e, ?_⟩
    unfold onDb
    simp only [he]
    rfl
  final := by rw [final_onDb, h.final]

/-- The same for a handler of the banners. -/
theorem effect_onDb_selling {α : Type} {k : ℕ × RetailerProfile → Sess AppError Mall α}
    (hk : ∀ r, Effect cs s u (final (k r) s)) :
    Effect cs s u (final (onDb (sellingShop u now) >>= k) s) := by
  by_cases hsell : ∃ i p, MaySell s.db u now i p
  · obtain ⟨i, p, hsell⟩ := hsell
    rw [(onDb_returns (sellingShop_returns hsell)).final_bind]
    exact hk (i, p)
  · simp only [not_exists] at hsell
    obtain ⟨t, hraises, rfl | ⟨i, p, hp, -, rfl⟩⟩ := sellingShop_refuses hsell
    · rw [((onDb_raises hraises).bind k).final]
      exact .same
    · rw [((onDb_raises hraises).bind k).final]
      exact .expired i p hp

theorem effect_step (s : Mall) (r : ShopRequest) : Effect cs s r.shop (shopStep cs s r) := by
  obtain ⟨u, now, act⟩ := r
  cases act with
  | createCategory name fits =>
    refine effect_selling fun shop => ?_
    rw [final_raiseIf_bind, final_raiseIf_bind, final_raiseIf_bind, final_get_bind,
      final_raiseIf_bind]
    split_ifs with hempty hlong hshort hown
    iterate 4 exact .same
    cases hplatform : platformCategory cs s.db.categories (trimmed name) with
    | some clash => exact .same
    | none =>
      dsimp only
      rw [final_raiseIf_bind]
      split_ifs
      · exact .same
      · exact .newCategory name (not_lt.1 hlong) (not_lt.1 hshort) (by simpa using hown) hplatform
  | createProduct data =>
    refine effect_selling fun shop => ?_
    rw [final_get_bind]
    cases hp : Catalog.myNewProduct s.db u shop.2 data with
    | error e => exact .same
    | ok p => exact .newProduct shop.2 data p hp
  | patchProduct i data =>
    refine effect_selling fun shop => ?_
    rw [final_get_bind]
    cases hp : Catalog.myProduct s.db u i with
    | none => exact .same
    | some p =>
      rw [final_orRaise_some_bind]
      cases hf : Catalog.myPatch s.db u data with
      | error e => exact .same
      | ok f => exact .product i p f hp (.inr ⟨data, hf⟩)
  | deleteProduct i =>
    refine effect_selling fun shop => ?_
    rw [final_get_bind]
    cases hp : Catalog.myProduct s.db u i with
    | none => exact .same
    | some p => exact .product i p Catalog.withdrawn hp (.inl rfl)
  | createCoupon data =>
    refine effect_selling fun shop => ?_
    rw [final_raiseIf_bind]
    split_ifs
    · exact .same
    rw [final_raiseIf_bind]
    split_ifs
    · exact .same
    rw [final_get_bind, final_raiseIf_bind]
    split_ifs
    · exact .same
    rw [final_raiseIf_bind]
    split_ifs
    · rw [final_raiseIf_bind]
      split_ifs
      · exact .same
      rw [final_raiseIf_bind]
      split_ifs
      · exact .same
      exact .newCoupon data
    · exact .same
  | patchCoupon i data =>
    refine effect_selling fun shop => ?_
    rw [final_get_bind]
    cases hc : (s.db.coupons.get? i).filter fun c => c.shopUserId = some u with
    | none => exact .same
    | some c => exact .coupon i c (patchedCoupon data) hc rfl
  | createBanner data =>
    refine effect_onDb_selling fun shop => ?_
    rw [final_get_bind]
    cases hb : bannerRow u data with
    | error e => exact .same
    | ok b => exact .newBanner data b hb
  | patchBanner i data =>
    refine effect_onDb_selling fun shop => ?_
    rw [final_get_bind]
    cases hb : (s.banners.get? i).filter fun b => b.shopUserId = some u with
    | none => exact .same
    | some b => exact .banner i b (patchedBanner data) hb rfl
  | salesStatus o status note =>
    refine effect_selling fun shop => ?_
    rw [final_get_bind]
    cases ha : Orders.StoreOps.soldOrder s.db u o with
    | none => exact .same
    | some a =>
      rw [final_orRaise_some_bind]
      cases hst : OrderStatus.ofValue? status with
      | none => exact .same
      | some st =>
        rw [final_orRaise_some_bind, final_raiseIf_bind]
        split_ifs
        · exact .sale o a st note now ha
        · exact .same
  | bannerActive i isActive =>
    show Effect cs s u (final (adminSetShopBannerActive i u isActive) s)
    unfold adminSetShopBannerActive
    rw [final_get_bind]
    cases hb : (s.banners.get? i).filter fun b => b.shopUserId = some u with
    | none => exact .same
    | some b => exact .banner i b _ hb rfl
  | couponActive i isActive =>
    show Effect cs s u { s with db := final (adminSetShopCouponActive i u isActive) s.db }
    unfold adminSetShopCouponActive
    rw [final_get_bind]
    cases hc : (s.db.coupons.get? i).filter fun c => c.shopUserId = some u with
    | none => exact .same
    | some c => exact .coupon i c _ hc rfl

end Effects

/-! ## The rows of a shop -/

/-- The rows of a shop, or of the bakery if it is none. -/
structure ShopView where
  products : List (ℕ × Product)
  categories : List (ℕ × Category)
  coupons : List (ℕ × Coupon)
  banners : List (ℕ × Banner)
  sales : List (ℕ × Order)
  profile : Option (ℕ × RetailerProfile)

def viewOf (v : Option ℕ) (s : Mall) : ShopView where
  products := s.db.products.select fun p => p.supplierUserId = v
  categories := s.db.categories.select fun c => c.ownerUserId = v
  coupons := s.db.coupons.select fun c => c.shopUserId = v
  banners := s.banners.select fun b => b.shopUserId = v
  sales := s.db.orders.select fun o => o.shopUserId = v
  profile := v.bind (profileOf s.db)

section Views

variable {cs} {v : Option ℕ} {u : ℕ} {s t : Mall} {r : ShopRequest}

/-- Where the row of one shop is rewritten, the rows of another stay. -/
theorem select_modify_of_owner {α : Type} (owner : α → Option ℕ) {t : Table α} {i : ℕ} {a : α}
    {f : α → α} (ha : (t.get? i).filter (fun a => owner a = some u) = some a)
    (hf : owner (f a) = owner a) (hv : v ≠ some u) :
    ((t.modify i f).select fun a => owner a = v) = t.select fun a => owner a = v := by
  obtain ⟨hget, howner⟩ := Option.filter_eq_some_iff.1 ha
  have howner' : owner a = some u := of_decide_eq_true howner
  refine Table.select_modify_of_not fun b hb => ?_
  rw [hget] at hb
  cases hb
  rw [hf, howner']
  exact ⟨decide_eq_false hv.symm, decide_eq_false hv.symm⟩

theorem select_insert_of_owner {α : Type} (owner : α → Option ℕ) {t : Table α} {a : α}
    (ha : owner a = some u) (hv : v ≠ some u) :
    ((t.insert a).select fun a => owner a = v) = t.select fun a => owner a = v := by
  rw [Table.select_insert, ha, if_neg (by simpa using hv.symm), List.append_nil]

/-- A shop that is marked as expired is another one. -/
theorem profileOf_withExpired (hv : v ≠ some u) {db : Db} {i : ℕ} {p : RetailerProfile}
    (hp : profileOf db u = some (i, p)) :
    v.bind (profileOf (withExpired i db)) = v.bind (profileOf db) := by
  cases v with
  | none => rfl
  | some w =>
    obtain ⟨hget, hu⟩ := Table.get?_of_first? hp
    have hw : p.userId ≠ w := fun heq => hv (by rw [← heq, of_decide_eq_true hu])
    exact Table.first?_modify_of_not (f := expired) (p := fun q => decide (q.userId = w)) hget
      (decide_eq_false hw) fun _ => rfl

theorem supplier_of_myNewProduct {db : Db} {profile : RetailerProfile} {data : Catalog.MyProductIn}
    {p : Product} (h : Catalog.myNewProduct db u profile data = .ok p) :
    p.supplierUserId = some u := by
  unfold Catalog.myNewProduct at h
  obtain ⟨name, _, h⟩ := Guard.bind_eq_ok.1 h
  obtain ⟨_, h⟩ := Guard.raiseIf_bind_eq_ok.1 h
  obtain ⟨category, _, h⟩ := Guard.bind_eq_ok.1 h
  obtain ⟨_, h⟩ := Guard.raiseIf_bind_eq_ok.1 h
  obtain ⟨_, h⟩ := Guard.raiseIf_bind_eq_ok.1 h
  obtain ⟨_, h⟩ := Guard.raiseIf_bind_eq_ok.1 h
  obtain ⟨_, h⟩ := Guard.raiseIf_bind_eq_ok.1 h
  cases Guard.pure_eq_ok.1 h
  rfl

theorem owner_of_bannerRow {data : BannerIn} {b : Banner} (h : bannerRow u data = .ok b) :
    b.shopUserId = some u := by
  unfold bannerRow at h
  obtain ⟨_, h⟩ := Guard.raiseIf_bind_eq_ok.1 h
  obtain ⟨_, h⟩ := Guard.raiseIf_bind_eq_ok.1 h
  obtain ⟨_, h⟩ := Guard.raiseIf_bind_eq_ok.1 h
  obtain ⟨_, h⟩ := Guard.raiseIf_bind_eq_ok.1 h
  obtain ⟨_, h⟩ := Guard.raiseIf_bind_eq_ok.1 h
  cases Guard.pure_eq_ok.1 h
  rfl

/-- What `patch_my_product` writes. -/
theorem myPatched_of_myPatch {db : Db} {data : Catalog.MyProductPatch} {f : Product → Product}
    (h : Catalog.myPatch db u data = .ok f) :
    ∃ name category, f = Catalog.myPatched data name category ∧
      data.name.mapM (fun name => Catalog.productName (some name)) = .ok name ∧
      data.categoryId.mapM (fun c => Catalog.usableCategory db u c) = .ok category ∧
      (∀ price ∈ data.sellingPrice, 0 < price) ∧ ∀ qty ∈ data.stockQty, 0 ≤ qty := by
  unfold Catalog.myPatch at h
  obtain ⟨name, hname, h⟩ := Guard.bind_eq_ok.1 h
  obtain ⟨category, hcategory, h⟩ := Guard.bind_eq_ok.1 h
  obtain ⟨hprice, h⟩ := Guard.raiseIf_bind_eq_ok.1 h
  obtain ⟨hstock, h⟩ := Guard.raiseIf_bind_eq_ok.1 h
  refine ⟨name, category, (Guard.pure_eq_ok.1 h).symm, hname, hcategory, ?_, ?_⟩
  · intro price hmem
    by_contra hle
    exact hprice ⟨price, hmem, not_lt.1 hle⟩
  · intro qty hmem
    by_contra hlt
    exact hstock ⟨qty, hmem, not_le.1 hlt⟩

theorem view_effect (h : Effect cs s u t) (hv : v ≠ some u) : viewOf v t = viewOf v s := by
  cases h with
  | same => rfl
  | expired i p hp =>
    unfold viewOf
    rw [profileOf_withExpired hv hp]
    rfl
  | newCategory name =>
    unfold viewOf
    rw [select_insert_of_owner Category.ownerUserId (u := u) rfl hv]
    rfl
  | newProduct profile data p hp =>
    unfold viewOf Catalog.insertProduct
    rw [select_insert_of_owner Product.supplierUserId (supplier_of_myNewProduct hp) hv]
    rfl
  | product i p f hp hf =>
    have howner : (f p).supplierUserId = p.supplierUserId := by
      rcases hf with rfl | ⟨data, hf⟩
      · rfl
      · obtain ⟨name, category, rfl, -⟩ := myPatched_of_myPatch hf
        rfl
    unfold viewOf Catalog.writeProduct
    rw [select_modify_of_owner Product.supplierUserId hp howner hv]
    rfl
  | newCoupon data =>
    unfold viewOf
    rw [select_insert_of_owner Coupon.shopUserId (u := u) rfl hv]
    rfl
  | coupon i c f hc hf =>
    unfold viewOf
    rw [select_modify_of_owner Coupon.shopUserId hc hf hv]
    rfl
  | newBanner data b hb =>
    unfold viewOf
    rw [select_insert_of_owner Banner.shopUserId (owner_of_bannerRow hb) hv]
  | banner i b f hb hf =>
    unfold viewOf
    rw [select_modify_of_owner Banner.shopUserId hb hf hv]
  | sale o a status note now ha =>
    unfold viewOf Orders.StoreOps.salesUpdated
    rw [select_modify_of_owner Order.shopUserId ha rfl hv]
    rfl

theorem view_step (hv : ∀ u, v = some u → r.shop ≠ u) : viewOf v (shopStep cs s r) = viewOf v s :=
  view_effect (effect_step s r) fun hown => hv r.shop hown rfl

/-- The rows of a shop stay as they are in every run of requests of other shops, and the rows of
the bakery itself in every run. -/
theorem apart_run {rs : List ShopRequest} (h : ∀ r ∈ rs, ∀ u, v = some u → r.shop ≠ u)
    (s : Mall) : viewOf v (run (shopStep cs) s rs) = viewOf v s := by
  induction rs generalizing s with
  | nil => rfl
  | cons r rs ih =>
    rw [run_cons, ih fun q hq => h q (.tail r hq)]
    exact view_step (h r (.head rs))

end Views

/-! ## The products of a shop -/

/-- What the shop `u` may rely on of a product of its own. -/
structure Sound (categories : Table Category) (u : ℕ) (p : Product) : Prop where
  named : 2 ≤ p.name.length
  priced : 0 < p.sellingPrice
  stocked : 0 ≤ p.stockQty
  /-- The category is one that the shop may use. -/
  placed : ∃ c, categories.get? p.categoryId = some c ∧ ∀ w ∈ Catalog.nonzero c.ownerUserId, w = u

section Products

open Guard

variable {cs} {db : Db} {u : ℕ} {s t : Mall}

theorem length_of_productName {name : Option String} {text : String}
    (h : Catalog.productName name = .ok text) : 2 ≤ text.length := by
  unfold Catalog.productName at h
  obtain ⟨_, h⟩ := raiseIf_bind_eq_ok.1 h
  obtain ⟨hshort, h⟩ := raiseIf_bind_eq_ok.1 h
  rw [← pure_eq_ok.1 h]
  exact not_lt.1 hshort

theorem usable_of_usableCategory {categoryId : ℤ} {i : ℕ}
    (h : Catalog.usableCategory db u categoryId = .ok i) :
    ∃ c, db.categories.get? i = some c ∧ ∀ w ∈ Catalog.nonzero c.ownerUserId, w = u := by
  unfold Catalog.usableCategory at h
  obtain ⟨_, h⟩ := raiseIf_bind_eq_ok.1 h
  obtain ⟨c, hc, h⟩ := orRaise_bind_eq_ok.1 h
  obtain ⟨hown, h⟩ := raiseIf_bind_eq_ok.1 h
  rw [← pure_eq_ok.1 h]
  refine ⟨c, hc, fun w hw => ?_⟩
  by_contra hne
  exact hown ⟨w, hw, hne⟩

/-- A field that a request may name is as the request's check wants it, or as it was. -/
theorem getD_of_mapM {α β : Type} {f : α → Except AppError β} {o : Option α} {r : Option β}
    (h : o.mapM f = .ok r) {P : β → Prop} (hf : ∀ a b, f a = .ok b → P b) {d : β} (hd : P d) :
    P (r.getD d) := by
  cases o with
  | none =>
    cases pure_eq_ok.1 h
    exact hd
  | some a =>
    obtain ⟨b, hb, h⟩ := bind_eq_ok.1 h
    cases pure_eq_ok.1 h
    exact hf a b hb

/-- A change that its checks let through leaves a sound product sound. -/
theorem Sound.patched {p : Product} (hp : Sound db.categories u p) {data : Catalog.MyProductPatch}
    {f : Product → Product} (h : Catalog.myPatch db u data = .ok f) : Sound db.categories u (f p) := by
  obtain ⟨name, category, rfl, hname, hcategory, hprice, hstock⟩ := myPatched_of_myPatch h
  refine ⟨?_, ?_, ?_, ?_⟩
  · exact getD_of_mapM hname (P := fun name => 2 ≤ name.length)
      (fun _ _ => length_of_productName) hp.named
  · show 0 < data.sellingPrice.getD p.sellingPrice
    cases hprice' : data.sellingPrice with
    | none => exact hp.priced
    | some price => exact hprice price hprice'
  · show 0 ≤ data.stockQty.getD p.stockQty
    cases hstock' : data.stockQty with
    | none => exact hp.stocked
    | some qty => exact hstock qty hstock'
  · exact getD_of_mapM hcategory
      (P := fun i => ∃ c, db.categories.get? i = some c ∧ ∀ w ∈ Catalog.nonzero c.ownerUserId, w = u)
      (fun _ _ => usable_of_usableCategory) hp.placed

/-! ### The categories of a shop -/

/-- What a request leaves of the categories: they are as they were, or there is one more, of the
shop, under a name that it has not used and the platform has not. -/
theorem categories_effect (h : Effect cs s u t) : t.db.categories = s.db.categories ∨
    ∃ name, (2 ≤ name.length ∧ name.length ≤ 120) ∧ hasCategory s.db.categories u name = false ∧
      platformCategory cs s.db.categories name = none ∧
      t.db.categories = s.db.categories.insert (ownCategory u name) := by
  cases h with
  | newCategory name hlong hshort hown hplatform =>
    exact .inr ⟨trimmed name, ⟨hlong, hshort⟩, hown, hplatform, rfl⟩
  | _ => exact .inl rfl

/-- The categories that there are stay as they are. -/
theorem kept_effect (h : Effect cs s u t) {i : ℕ} {c : Category}
    (hc : s.db.categories.get? i = some c) : t.db.categories.get? i = some c := by
  obtain hsame | ⟨name, -, -, -, hnew⟩ := categories_effect h
  · rw [hsame, hc]
  · rw [hnew, Table.get?_insert, if_neg (Table.lt_next_of_get? hc).ne, hc]

theorem Sound.kept {p : Product} (hp : Sound s.db.categories u p) {w : ℕ} (h : Effect cs s w t) :
    Sound t.db.categories u p :=
  ⟨hp.named, hp.priced, hp.stocked, hp.placed.imp fun _ hc => ⟨kept_effect h hc.1, hc.2⟩⟩

end Products

/-! ## The full rows of the categories -/

/-- What is kept here of the row of a category. -/
def core (c : Categories.CategoryRow) : Category := ⟨c.name, c.parentId, c.ownerUserId, c.isActive⟩

section Rows

open Categories

variable {cs} {u now i : ℕ} {p : RetailerProfile} {db : Db} {t : Table CategoryRow} {slug : String}

/-- `create_category` on the full rows and on what is kept of them here: the same is added. -/
theorem createCategory_core (hsell : MaySell db u now i p) (hcore : db.categories = t.map core)
    (hunique : UniqueSlugs t) {data : ShopCategoryIn}
    (hslug : freeSlug t (slugBase cs p.shopName (stripped (data.name.getD ""))) = some slug) :
    (final (createCategory cs u now data.name (decide (Fits (Categories.ownCategory u data slug))))
        db).categories =
      (final (Categories.createCategory cs u (.ok p.shopName) data) t).map core := by
  have hname : stripped (data.name.getD "") = trimmed data.name := rfl
  have hhas : hasCategory db.categories u (trimmed data.name) =
      hasAlready t u (trimmed data.name) := by
    rw [hasCategory, hcore, Table.first?_map, Option.isSome_map]
    rfl
  have hclash : platformCategory cs db.categories (trimmed data.name) =
      (platformClash cs t (trimmed data.name)).map core := by
    rw [platformCategory, hcore, Table.first?_map, Option.map_map, platformClash, Option.map_map]
    rfl
  rw [hname] at hslug
  unfold createCategory Categories.createCategory
  rw [(sellingShop_returns hsell).final_bind, final_ofExcept_ok_bind]
  simp only [hname, final_raiseIf_bind, final_get_bind, hhas, hclash]
  split_ifs
  · exact hcore
  · exact hcore
  · exact hcore
  · exact hcore
  cases platformClash cs t (trimmed data.name) with
  | some clash => exact hcore
  | none =>
    have hinsert : UniqueSlugs (t.insert (Categories.ownCategory u data slug)) :=
      hunique.insert (freeSlug_fresh hslug)
    simp only [Option.map_none, hslug, final_orRaise_some_bind, final_raiseIf_bind, final_save]
    by_cases hfits : Fits (Categories.ownCategory u data slug)
    · rw [if_neg (by simpa using hfits), if_pos ⟨hfits, hinsert⟩, Table.map_insert, ← hcore]
      rfl
    · rw [if_pos (by simpa using hfits), if_neg fun hand => hfits hand.1]
      exact hcore

end Rows

/-! ## Two shops -/

/-- Shops 3 and 4, that both may sell, and a loaf of shop 4. -/
def twoShops : Mall where
  db :=
    { Db.empty with
      products := .ofList [{ (default : Product) with
        name := "Loaf", supplierUserId := some 4, sellingPrice := 60, categoryId := 2 }]
      categories := .ofList [⟨"Cakes", none, none, true⟩, ⟨"Bread", none, some 4, true⟩]
      profiles := .ofList
        [{ (default : RetailerProfile) with userId := 3, sellSubscriptionStatus := "approved" },
          { (default : RetailerProfile) with userId := 4, sellSubscriptionStatus := "approved" }] }
  banners := .empty

/-- Shop 3 makes a category and brings in a cake there, asks for another price of the loaf, and
announces the cake. -/
def thirdShop : List ShopRequest :=
  [⟨3, 0, .createCategory (some "Plums") true⟩,
    ⟨3, 0, .createProduct
      { name := some "Plum cake", categoryId := some 3, sellingPrice := some 250 }⟩,
    ⟨3, 0, .patchProduct 1 { sellingPrice := some 1 }⟩,
    ⟨3, 0, .createBanner { title := some "Plums", themeColor := some "fff" }⟩]

theorem apart_run_thirdShop :
    viewOf (some 4) (run (shopStep Categories.ascii) twoShops thirdShop) = viewOf (some 4) twoShops :=
  apart_run (by
    rintro r hr u ⟨⟩
    have hshops : ∀ r ∈ thirdShop, r.shop ≠ 4 := by simp [thirdShop]
    exact hshops r hr) twoShops

end Sell

end SweetCrust
