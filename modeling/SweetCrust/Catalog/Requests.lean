import SweetCrust.Catalog.Products

/-!
# Requests on the catalog

Every request that writes a product, and what each of them plans: to add one row, or to
rewrite one row and perhaps explain it by a stock movement (`planned`).  `serve_eq` says that
a request does what it planned, and beside it at most marks a shop as expired or adds a
category.
-/

namespace SweetCrust

open Tabular Session

namespace Catalog

inductive Request
  | createMine (userId now : ℕ) (data : MyProductIn)
  | patchMine (userId productId now : ℕ) (data : MyProductPatch)
  | deleteMine (userId productId now : ℕ)
  | create (body : ProductIn)
  | update (productId : ℕ) (data : ProductPatch)
  | softDelete (productId : ℕ)
  | duplicate (productId : ℕ)
  | stock (productId : ℕ) (stockQty : ℤ) (reason : String) (note : Option String)
      (adminId : Option ℕ)
  | prices (productId : ℕ) (data : PricesIn)
  | ask (body : ProductRequestIn)

/-- What a request leaves in the database. -/
def serve (db : Db) : Request → Db
  | .createMine u now data => final (createMyProduct u data now) db
  | .patchMine u y now data => final (patchMyProduct u y data now) db
  | .deleteMine u y now => final (deleteMyProduct u y now) db
  | .create body => final (createProduct body) db
  | .update y data => final (updateProduct y data) db
  | .softDelete y => final (softDeleteProduct y) db
  | .duplicate y => final (duplicateProduct y) db
  | .stock y stockQty reason note adminId => final (updateStock y stockQty reason note adminId) db
  | .prices y data => final (updatePrices y data) db
  | .ask body => final (requestProduct body) db

/-- What a request can write: a new row, or another version of the row `p` of a product, with
the movements that explain it. -/
inductive Change
  | add (p : Product)
  | write (productId : ℕ) (p : Product) (f : Product → Product) (movements : List StockMovement)

/-- The database after a change. -/
def applied : Option Change → Db → Db
  | none, db => db
  | some (.add p), db => insertProduct p db
  | some (.write y _ f movements), db =>
    { writeProduct y f db with movements := db.movements.insertAll movements }

/-- The profile of a shop that may sell. -/
def seller (db : Db) (userId now : ℕ) : Option RetailerProfile :=
  (Sell.sellingShop userId now db).2.toOption.map fun r => r.1.2

/-- The key of a category, by name. -/
def categoryKey (name : String) (db : Db) : ℕ :=
  ((db.categories.first? fun c => c.name = name).map Prod.fst).getD db.categories.next

/-- What a request plans to write. -/
def planned (db : Db) : Request → Option Change
  | .createMine u now data => do
    let profile ← seller db u now
    let p ← (myNewProduct db u profile data).toOption
    return .add p
  | .patchMine u y now data => do
    let _ ← seller db u now
    let p ← myProduct db u y
    let f ← (myPatch db u data).toOption
    return .write y p f []
  | .deleteMine u y now => do
    let _ ← seller db u now
    let p ← myProduct db u y
    return .write y p withdrawn []
  | .create body => (newProduct db body).toOption.map .add
  | .update y data => do
    let p ← db.products.get? y
    let f ← (patched db p data).toOption
    return .write y p f []
  | .softDelete y => (db.products.get? y).map fun p => .write y p disabled []
  | .duplicate y => do
    let p ← db.products.get? y
    let q ← (newProduct db (copyIn p)).toOption
    return .add q
  | .stock y stockQty reason note adminId => (db.products.get? y).map fun p =>
    .write y p (restocked stockQty) [adjustment y p stockQty reason note adminId]
  | .prices y data => do
    let p ← db.products.get? y
    let f ← (repriced data).toOption
    return .write y p f []
  | .ask body =>
    if requestedName body = "" ∨ requestedCover body = none then none
    else
      let name := requestedCategory body
      (newProduct (withCategory name db) (requestIn body (categoryKey name db))).toOption.map .add

/-- Nothing differs but the profiles and the categories. -/
def Aside (s t : Db) : Prop :=
  ∃ profiles categories, t = { s with profiles := profiles, categories := categories }

section Effects

variable {s t : Db} {u y now : ℕ}

theorem Aside.refl (s : Db) : Aside s s := ⟨_, _, rfl⟩

/-- A shop that may sell gets through, and another is refused. -/
theorem seller_cases (u now : ℕ) (s : Db) :
    (∃ i profile, Sell.MaySell s u now i profile ∧ seller s u now = some profile) ∨
      seller s u now = none ∧ ∃ t, Raises (Sell.sellingShop u now) s t ∧ Aside s t := by
  by_cases hshop : ∃ i profile, Sell.MaySell s u now i profile
  · obtain ⟨i, profile, hshop⟩ := hshop
    refine Or.inl ⟨i, profile, hshop, ?_⟩
    rw [seller, (Sell.sellingShop_returns hshop).outcome]
    rfl
  · simp only [not_exists] at hshop
    obtain ⟨t, hraises, profiles, rfl⟩ := Sell.sellingShop_raises hshop
    refine Or.inr ⟨?_, _, hraises, profiles, _, rfl⟩
    obtain ⟨e, he⟩ := hraises.outcome
    rw [seller, he]
    rfl

theorem final_createProduct (body : ProductIn) (s : Db) :
    final (createProduct body) s = applied (planned s (.create body)) s := by
  simp only [planned, createProduct, final_get_bind]
  cases newProduct s body <;> rfl

theorem categoryNamed_returns (name : String) (s : Db) :
    Returns (categoryNamed name) s (categoryKey name s) (withCategory name s) := by
  unfold categoryNamed categoryKey
  refine Returns.get_bind ?_
  cases h : s.categories.first? fun c => c.name = name with
  | some r =>
    have hkeep : withCategory name s = s := by simp only [withCategory, h]
    rw [hkeep]
    exact returns_pure _ _
  | none => exact Returns.modify_commit (returns_pure _ _)

/-- Adding a category changes nothing else. -/
theorem withCategory_eq (name : String) (s : Db) :
    withCategory name s = { s with categories := (withCategory name s).categories } := by
  unfold withCategory
  split <;> rfl

/-- A request does what it planned. -/
theorem serve_eq (s : Db) (r : Request) : Aside (applied (planned s r) s) (serve s r) := by
  cases r with
  | createMine u now data =>
    show Aside _ (final (createMyProduct u data now) s)
    simp only [planned, createMyProduct]
    rcases seller_cases u now s with ⟨i, profile, hshop, hseller⟩ | ⟨hseller, t, hraises, haside⟩
    · rw [(Sell.sellingShop_returns hshop).final_bind, final_get_bind, hseller]
      simp only [Option.bind_eq_bind, Option.bind_some]
      cases myNewProduct s u profile data <;> exact Aside.refl _
    · rw [(hraises.bind _).final, hseller]
      exact haside
  | patchMine u y now data =>
    show Aside _ (final (patchMyProduct u y data now) s)
    simp only [planned, patchMyProduct]
    rcases seller_cases u now s with ⟨i, profile, hshop, hseller⟩ | ⟨hseller, t, hraises, haside⟩
    · rw [(Sell.sellingShop_returns hshop).final_bind, final_get_bind, hseller]
      simp only [Option.bind_eq_bind, Option.bind_some]
      cases myProduct s u y with
      | none => exact Aside.refl s
      | some p => cases myPatch s u data <;> exact Aside.refl _
    · rw [(hraises.bind _).final, hseller]
      exact haside
  | deleteMine u y now =>
    show Aside _ (final (deleteMyProduct u y now) s)
    simp only [planned, deleteMyProduct]
    rcases seller_cases u now s with ⟨i, profile, hshop, hseller⟩ | ⟨hseller, t, hraises, haside⟩
    · rw [(Sell.sellingShop_returns hshop).final_bind, final_get_bind, hseller]
      cases myProduct s u y <;> exact Aside.refl _
    · rw [(hraises.bind _).final, hseller]
      exact haside
  | create body =>
    rw [← final_createProduct]
    exact Aside.refl _
  | update y data =>
    show Aside _ (final (updateProduct y data) s)
    simp only [planned, updateProduct]
    rw [final_get_bind]
    cases hy : s.products.get? y with
    | none => exact Aside.refl s
    | some p =>
      simp only [Option.bind_eq_bind, Option.bind_some, final_orRaise_some_bind]
      cases patched s p data <;> exact Aside.refl _
  | softDelete y =>
    show Aside _ (final (softDeleteProduct y) s)
    simp only [planned, softDeleteProduct]
    rw [final_get_bind]
    cases hy : s.products.get? y with
    | none => exact Aside.refl s
    | some p => exact Aside.refl _
  | duplicate y =>
    show Aside _ (final (duplicateProduct y) s)
    simp only [planned, duplicateProduct]
    rw [final_get_bind]
    cases hy : s.products.get? y with
    | none => exact Aside.refl s
    | some p =>
      rw [final_orRaise_some_bind, final_createProduct]
      simp only [planned, Option.bind_eq_bind, Option.bind_some]
      cases newProduct s (copyIn p) <;> exact Aside.refl _
  | stock y stockQty reason note adminId =>
    show Aside _ (final (updateStock y stockQty reason note adminId) s)
    simp only [planned, updateStock]
    rw [final_get_bind]
    cases hy : s.products.get? y with
    | none => exact Aside.refl s
    | some p => exact Aside.refl _
  | prices y data =>
    show Aside _ (final (updatePrices y data) s)
    simp only [planned, updatePrices]
    rw [final_get_bind]
    cases hy : s.products.get? y with
    | none => exact Aside.refl s
    | some p => cases repriced data <;> exact Aside.refl _
  | ask body =>
    show Aside _ (final (requestProduct body) s)
    simp only [planned, requestProduct]
    rw [final_raiseIf_bind, final_raiseIf_bind]
    by_cases hname : requestedName body = ""
    · simpa [hname, applied] using Aside.refl s
    by_cases hcover : requestedCover body = none
    · simpa [hname, hcover, applied] using Aside.refl s
    rw [if_neg hname, if_neg hcover, if_neg (not_or.2 ⟨hname, hcover⟩),
      (categoryNamed_returns _ s).final_bind, final_createProduct]
    simp only [planned]
    rw [withCategory_eq]
    cases newProduct _ (requestIn body (categoryKey (requestedCategory body) s)) <;>
      exact ⟨_, _, rfl⟩

theorem Aside.products (h : Aside s t) : t.products = s.products := by
  obtain ⟨_, _, rfl⟩ := h
  rfl

theorem Aside.movements (h : Aside s t) : t.movements = s.movements := by
  obtain ⟨_, _, rfl⟩ := h
  rfl

/-- What the catalog leaves alone. -/
theorem carts_serve (s : Db) (r : Request) :
    (serve s r).carts = s.carts ∧ (serve s r).cartItems = s.cartItems ∧
      (serve s r).orderItems = s.orderItems ∧ (serve s r).orders = s.orders := by
  obtain ⟨profiles, categories, ht⟩ := serve_eq s r
  rw [ht]
  cases planned s r with
  | none => exact ⟨rfl, rfl, rfl, rfl⟩
  | some c => cases c <;> exact ⟨rfl, rfl, rfl, rfl⟩

end Effects

/-! ## What a request sets -/

/-- The fields that a request names, as far as rules read them. -/
structure Sets where
  stock : Option ℤ := none
  threshold : Option ℤ := none
  active : Option Bool := none
  draft : Option Bool := none
  sellingPrice : Option ℚ := none
  customerPrice : Option (Option ℚ) := none

def Request.sets : Request → Sets
  | .patchMine _ _ _ data =>
    { stock := data.stockQty
      active := data.isActive
      draft := data.isDraft
      sellingPrice := data.sellingPrice
      customerPrice := data.customerPrice.map some }
  | .deleteMine _ _ _ => { active := some false, draft := some true }
  | .update _ data =>
    { stock := data.stockQty.join
      threshold := data.lowStockThreshold.join
      active := data.isActive.join
      draft := data.isDraft.join
      sellingPrice := data.sellingPrice.join
      customerPrice := data.customerPrice }
  | .softDelete _ => { active := some false }
  | .stock _ stockQty _ _ _ => { stock := some stockQty }
  | .prices _ data =>
    { sellingPrice := data.sellingPrice.join, customerPrice := data.customerPrice }
  | _ => {}

/-- The product that a request rewrites. -/
def Request.productId : Request → Option ℕ
  | .patchMine _ y _ _ => some y
  | .deleteMine _ y _ => some y
  | .update y _ => some y
  | .softDelete y => some y
  | .stock y _ _ _ _ => some y
  | .prices y _ => some y
  | _ => none

/-- The movements by which a request explains a new stock. -/
def Request.movements (p : Product) : Request → List StockMovement
  | .stock y stockQty reason note adminId => [adjustment y p stockQty reason note adminId]
  | _ => []

/-- A product is rewritten in these fields, and a new stock gets a status. -/
structure Sets.Written (w : Sets) (f : Product → Product) (p : Product) : Prop where
  stock : (f p).stockQty = w.stock.getD p.stockQty
  status : (f p).stockStatus =
    (w.stock.map fun q => stockStatusFor q defaultThreshold).getD p.stockStatus
  threshold : (f p).lowStockThreshold = w.threshold.getD p.lowStockThreshold
  active : (f p).isActive = w.active.getD p.isActive
  draft : (f p).isDraft = w.draft.getD p.isDraft
  sellingPrice : (f p).sellingPrice = w.sellingPrice.getD p.sellingPrice
  customerPrice : (f p).customerPrice = w.customerPrice.getD p.customerPrice

section Writes

open Guard

variable {s : Db} {r : Request} {y : ℕ} {p q : Product} {f : Product → Product}
  {movements : List StockMovement}

theorem toOption_eq_some {α ε : Type} {x : Except ε α} {a : α} :
    x.toOption = some a ↔ x = .ok a := by
  cases x <;> simp [Except.toOption]

theorem required_eq_ok {α : Type} {field : Option (Option α)} {v : Option α}
    (h : required field = .ok v) : v = field.join := by
  unfold required at h
  split at h <;> cases h <;> rfl

/-- An admin's change that is not refused sets what it names. -/
theorem written_patched {data : ProductPatch} (h : patched s p data = .ok f) (q : Product) :
    (Request.update y data).sets.Written f q := by
  unfold patched at h
  obtain ⟨⟨brand, supplier⟩, _, h⟩ := bind_eq_ok.1 h
  obtain ⟨_, h⟩ := raiseIf_bind_eq_ok.1 h
  obtain ⟨stock, hstock, h⟩ := bind_eq_ok.1 h
  obtain ⟨category, _, h⟩ := bind_eq_ok.1 h
  obtain ⟨name, _, h⟩ := bind_eq_ok.1 h
  obtain ⟨price, hprice, h⟩ := bind_eq_ok.1 h
  obtain ⟨active, hactive, h⟩ := bind_eq_ok.1 h
  obtain ⟨draft, hdraft, h⟩ := bind_eq_ok.1 h
  obtain ⟨threshold, hthreshold, h⟩ := bind_eq_ok.1 h
  obtain ⟨_, h⟩ := raiseIf_bind_eq_ok.1 h
  cases pure_eq_ok.1 h
  cases required_eq_ok hstock
  cases required_eq_ok hprice
  cases required_eq_ok hactive
  cases required_eq_ok hdraft
  cases required_eq_ok hthreshold
  exact ⟨rfl, rfl, rfl, rfl, rfl, rfl, rfl⟩

/-- A shop's change that is not refused sets what it names. -/
theorem written_myPatch {u now : ℕ} {data : MyProductPatch} (h : myPatch s u data = .ok f)
    (q : Product) : (Request.patchMine u y now data).sets.Written f q := by
  unfold myPatch at h
  obtain ⟨name, _, h⟩ := bind_eq_ok.1 h
  obtain ⟨category, _, h⟩ := bind_eq_ok.1 h
  obtain ⟨_, h⟩ := raiseIf_bind_eq_ok.1 h
  obtain ⟨_, h⟩ := raiseIf_bind_eq_ok.1 h
  cases pure_eq_ok.1 h
  refine ⟨rfl, rfl, rfl, rfl, rfl, rfl, ?_⟩
  show data.customerPrice.or q.customerPrice = (data.customerPrice.map some).getD q.customerPrice
  cases data.customerPrice <;> rfl

/-- A change of prices that is not refused sets what it names. -/
theorem written_repriced {data : PricesIn} (h : repriced data = .ok f) (q : Product) :
    (Request.prices y data).sets.Written f q := by
  unfold repriced at h
  obtain ⟨_, _, h⟩ := bind_eq_ok.1 h
  obtain ⟨_, _, h⟩ := bind_eq_ok.1 h
  obtain ⟨_, _, h⟩ := bind_eq_ok.1 h
  obtain ⟨_, _, h⟩ := bind_eq_ok.1 h
  obtain ⟨_, _, h⟩ := bind_eq_ok.1 h
  obtain ⟨price, hprice, h⟩ := bind_eq_ok.1 h
  cases pure_eq_ok.1 h
  cases required_eq_ok hprice
  exact ⟨rfl, rfl, rfl, rfl, rfl, rfl, rfl⟩

/-- A request that plans to rewrite a product names it, and sets what it names. -/
theorem written_of_planned (h : planned s r = some (.write y p f movements)) :
    s.products.get? y = some p ∧ r.productId = some y ∧ (∀ q, r.sets.Written f q) ∧
      movements = r.movements p := by
  cases r with
  | createMine u now data =>
    simp only [planned, Option.bind_eq_bind, Option.bind_eq_some_iff] at h
    obtain ⟨_, _, _, _, h⟩ := h
    cases h
  | patchMine u k now data =>
    simp only [planned, Option.bind_eq_bind, Option.bind_eq_some_iff] at h
    obtain ⟨_, _, p', hp, f', hf, h⟩ := h
    cases h
    exact ⟨(Option.filter_eq_some_iff.1 hp).1, rfl, written_myPatch (toOption_eq_some.1 hf), rfl⟩
  | deleteMine u k now =>
    simp only [planned, Option.bind_eq_bind, Option.bind_eq_some_iff] at h
    obtain ⟨_, _, p', hp, h⟩ := h
    cases h
    exact ⟨(Option.filter_eq_some_iff.1 hp).1, rfl, fun _ => ⟨rfl, rfl, rfl, rfl, rfl, rfl, rfl⟩, rfl⟩
  | create body =>
    obtain ⟨_, _, h⟩ := Option.map_eq_some_iff.1 h
    cases h
  | update k data =>
    simp only [planned, Option.bind_eq_bind, Option.bind_eq_some_iff] at h
    obtain ⟨p', hp, f', hf, h⟩ := h
    cases h
    exact ⟨hp, rfl, written_patched (toOption_eq_some.1 hf), rfl⟩
  | softDelete k =>
    obtain ⟨_, hp, h⟩ := Option.map_eq_some_iff.1 h
    cases h
    exact ⟨hp, rfl, fun _ => ⟨rfl, rfl, rfl, rfl, rfl, rfl, rfl⟩, rfl⟩
  | duplicate k =>
    simp only [planned, Option.bind_eq_bind, Option.bind_eq_some_iff] at h
    obtain ⟨_, _, _, _, h⟩ := h
    cases h
  | stock k stockQty reason note adminId =>
    obtain ⟨_, hp, h⟩ := Option.map_eq_some_iff.1 h
    cases h
    exact ⟨hp, rfl, fun _ => ⟨rfl, rfl, rfl, rfl, rfl, rfl, rfl⟩, rfl⟩
  | prices k data =>
    simp only [planned, Option.bind_eq_bind, Option.bind_eq_some_iff] at h
    obtain ⟨p', hp, f', hf, h⟩ := h
    cases h
    exact ⟨hp, rfl, written_repriced (toOption_eq_some.1 hf), rfl⟩
  | ask body =>
    simp only [planned] at h
    split_ifs at h
    obtain ⟨_, _, h⟩ := Option.map_eq_some_iff.1 h
    cases h

/-- The request can change the prices of a product, and leaves its supplier. -/
def Request.Reprices : Request → Prop
  | .patchMine _ _ _ _ => True
  | .update _ data => data.brandName = none ∧ data.supplierUserId = none
  | .prices _ _ => True
  | _ => False

theorem supplier_patched {data : ProductPatch} (h : patched s p data = .ok f)
    (hbrand : data.brandName = none ∧ data.supplierUserId = none) :
    (f p).supplierUserId = p.supplierUserId := by
  unfold patched at h
  obtain ⟨⟨brand, supplier⟩, hkept, h⟩ := bind_eq_ok.1 h
  obtain ⟨_, h⟩ := raiseIf_bind_eq_ok.1 h
  obtain ⟨_, _, h⟩ := bind_eq_ok.1 h
  obtain ⟨_, _, h⟩ := bind_eq_ok.1 h
  obtain ⟨_, _, h⟩ := bind_eq_ok.1 h
  obtain ⟨_, _, h⟩ := bind_eq_ok.1 h
  obtain ⟨_, _, h⟩ := bind_eq_ok.1 h
  obtain ⟨_, _, h⟩ := bind_eq_ok.1 h
  obtain ⟨_, _, h⟩ := bind_eq_ok.1 h
  obtain ⟨_, h⟩ := raiseIf_bind_eq_ok.1 h
  cases pure_eq_ok.1 h
  rw [patchedBrand, if_pos hbrand] at hkept
  cases hkept
  rfl

/-- A change of prices is no new row, and leaves the supplier. -/
theorem supplier_of_planned {c : Change} (hr : r.Reprices) (h : planned s r = some c) :
    ∃ y p f, c = .write y p f [] ∧ s.products.get? y = some p ∧
      (f p).supplierUserId = p.supplierUserId := by
  cases r with
  | patchMine u k now data =>
    simp only [planned, Option.bind_eq_bind, Option.bind_eq_some_iff] at h
    obtain ⟨_, _, p, hp, f, hf, h⟩ := h
    cases h
    refine ⟨k, p, f, rfl, (Option.filter_eq_some_iff.1 hp).1, ?_⟩
    have hpatch := toOption_eq_some.1 hf
    unfold myPatch at hpatch
    obtain ⟨_, _, hpatch⟩ := bind_eq_ok.1 hpatch
    obtain ⟨_, _, hpatch⟩ := bind_eq_ok.1 hpatch
    obtain ⟨_, hpatch⟩ := raiseIf_bind_eq_ok.1 hpatch
    obtain ⟨_, hpatch⟩ := raiseIf_bind_eq_ok.1 hpatch
    cases pure_eq_ok.1 hpatch
    rfl
  | update k data =>
    simp only [planned, Option.bind_eq_bind, Option.bind_eq_some_iff] at h
    obtain ⟨p, hp, f, hf, h⟩ := h
    cases h
    exact ⟨k, p, f, rfl, hp, supplier_patched (toOption_eq_some.1 hf) hr⟩
  | prices k data =>
    simp only [planned, Option.bind_eq_bind, Option.bind_eq_some_iff] at h
    obtain ⟨p, hp, f, hf, h⟩ := h
    cases h
    refine ⟨k, p, f, rfl, hp, ?_⟩
    have hprices := toOption_eq_some.1 hf
    unfold repriced at hprices
    obtain ⟨_, _, hprices⟩ := bind_eq_ok.1 hprices
    obtain ⟨_, _, hprices⟩ := bind_eq_ok.1 hprices
    obtain ⟨_, _, hprices⟩ := bind_eq_ok.1 hprices
    obtain ⟨_, _, hprices⟩ := bind_eq_ok.1 hprices
    obtain ⟨_, _, hprices⟩ := bind_eq_ok.1 hprices
    obtain ⟨_, _, hprices⟩ := bind_eq_ok.1 hprices
    cases pure_eq_ok.1 hprices
    rfl
  | _ => exact hr.elim

/-- What every new row has: the default threshold, and the status that its stock calls for. -/
structure Fresh (p : Product) : Prop where
  status : p.stockStatus = stockStatusFor p.stockQty defaultThreshold
  threshold : p.lowStockThreshold = defaultThreshold

theorem fresh_newProduct {body : ProductIn} (h : newProduct s body = .ok p) : Fresh p := by
  unfold newProduct at h
  obtain ⟨_, _, h⟩ := bind_eq_ok.1 h
  obtain ⟨_, h⟩ := raiseIf_bind_eq_ok.1 h
  cases pure_eq_ok.1 h
  exact ⟨rfl, rfl⟩

/-- A shop's new product is fresh, and has no negative stock. -/
theorem fresh_myNewProduct {u : ℕ} {profile : RetailerProfile} {data : MyProductIn}
    (h : myNewProduct s u profile data = .ok p) : Fresh p ∧ 0 ≤ p.stockQty := by
  unfold myNewProduct at h
  obtain ⟨name, _, h⟩ := bind_eq_ok.1 h
  obtain ⟨_, h⟩ := raiseIf_bind_eq_ok.1 h
  obtain ⟨category, _, h⟩ := bind_eq_ok.1 h
  obtain ⟨_, h⟩ := raiseIf_bind_eq_ok.1 h
  obtain ⟨hstock, h⟩ := raiseIf_bind_eq_ok.1 h
  obtain ⟨_, h⟩ := raiseIf_bind_eq_ok.1 h
  obtain ⟨_, h⟩ := raiseIf_bind_eq_ok.1 h
  cases pure_eq_ok.1 h
  exact ⟨⟨rfl, rfl⟩, not_lt.1 hstock⟩

/-- A row that a request plans to add is fresh, and a shop's has no negative stock. -/
theorem fresh_of_planned (h : planned s r = some (.add p)) :
    Fresh p ∧ ∀ u now data, r = .createMine u now data → 0 ≤ p.stockQty := by
  cases r with
  | createMine u now data =>
    simp only [planned, Option.bind_eq_bind, Option.bind_eq_some_iff] at h
    obtain ⟨_, _, p', hp, h⟩ := h
    cases h
    obtain ⟨hfresh, hstock⟩ := fresh_myNewProduct (toOption_eq_some.1 hp)
    exact ⟨hfresh, fun _ _ _ _ => hstock⟩
  | create body =>
    obtain ⟨p', hp, h⟩ := Option.map_eq_some_iff.1 h
    cases h
    exact ⟨fresh_newProduct (toOption_eq_some.1 hp), by simp⟩
  | duplicate k =>
    simp only [planned, Option.bind_eq_bind, Option.bind_eq_some_iff] at h
    obtain ⟨_, _, p', hp, h⟩ := h
    cases h
    exact ⟨fresh_newProduct (toOption_eq_some.1 hp), by simp⟩
  | ask body =>
    simp only [planned] at h
    split_ifs at h
    obtain ⟨p', hp, h⟩ := Option.map_eq_some_iff.1 h
    cases h
    exact ⟨fresh_newProduct (toOption_eq_some.1 hp), by simp⟩
  | patchMine u k now data =>
    simp only [planned, Option.bind_eq_bind, Option.bind_eq_some_iff] at h
    obtain ⟨_, _, _, _, _, _, h⟩ := h
    cases h
  | deleteMine u k now =>
    simp only [planned, Option.bind_eq_bind, Option.bind_eq_some_iff] at h
    obtain ⟨_, _, _, _, h⟩ := h
    cases h
  | update k data =>
    simp only [planned, Option.bind_eq_bind, Option.bind_eq_some_iff] at h
    obtain ⟨_, _, _, _, h⟩ := h
    cases h
  | prices k data =>
    simp only [planned, Option.bind_eq_bind, Option.bind_eq_some_iff] at h
    obtain ⟨_, _, _, _, h⟩ := h
    cases h
  | softDelete k =>
    obtain ⟨_, _, h⟩ := Option.map_eq_some_iff.1 h
    cases h
  | stock k stockQty reason note adminId =>
    obtain ⟨_, _, h⟩ := Option.map_eq_some_iff.1 h
    cases h

end Writes

end Catalog

end SweetCrust
