import SweetCrust.Lib.Decimal
import SweetCrust.Lib.Guard
import SweetCrust.Sell.Shop

/-!
# The products of the catalog

Who writes a product: the shop that sells it (`create_my_product`, `patch_my_product`,
`delete_my_product`), the admin (`create_product`, `update_product`, `soft_delete_product`,
`duplicate_product`, `update_stock`, and `update_prices` of the pricing service), and a shop
that asks the bakery for a product (`request_product`).

What a request writes is worked out from its fields alone and from the row it finds; each
handler is a look-up, that computation, and a commit.  Slugs, unit labels and the descriptive
columns that no rule reads are left out.
-/

namespace SweetCrust

open Tabular Session Decimal Text

namespace Catalog

/-- A number as a program tests it: zero is none. -/
def nonzero {α : Type} [Zero α] [DecidableEq α] (x : Option α) : Option α := x.filter fun a => a ≠ 0

/-- `s.strip()`. -/
def stripped (s : String) : String := String.ofList (strip isSpace s.toList)

/-- The threshold that `stock_status_for` has when it is given none. -/
def defaultThreshold : ℤ := 5

def insertProduct (p : Product) (db : Db) : Db := { db with products := db.products.insert p }

def writeProduct (productId : ℕ) (f : Product → Product) (db : Db) : Db :=
  { db with products := db.products.modify productId f }

/-! ## The shop -/

section Shop

open Guard

/-- The fields of a shop's new product. -/
structure MyProductIn where
  name : Option String := none
  categoryId : Option ℤ := none
  sellingPrice : Option ℚ := none
  customerPrice : Option ℚ := none
  shopPrice : Option ℚ := none
  purchaseCost : Option ℚ := none
  stockQty : Option ℤ := none
  shortDescription : Option String := none
  description : Option String := none
  coverImageUrl : Option String := none
  isActive : Bool := true

/-- The name of a shop's product, trimmed. -/
def productName (name : Option String) : Except AppError String := do
  let name := stripped (name.getD "")
  raiseIf (name = "") (.badRequest "Product name is required")
  raiseIf (name.length < 2) (.badRequest "Product name must be at least 2 characters")
  return name

/-- A category that the shop may use: the bakery's, or its own. -/
def usableCategory (db : Db) (userId : ℕ) (categoryId : ℤ) : Except AppError ℕ := do
  raiseIf (categoryId ≤ 0) (.badRequest "Category is required")
  let cat ← orRaise (db.categories.get? categoryId.toNat) (.badRequest "Valid category is required")
  raiseIf (∃ owner ∈ nonzero cat.ownerUserId, owner ≠ userId) (.forbidden "Category not yours")
  return categoryId.toNat

/-- The row that `create_my_product` adds. -/
def myNewProduct (db : Db) (userId : ℕ) (profile : RetailerProfile) (data : MyProductIn) :
    Except AppError Product := do
  let name ← productName data.name
  raiseIf (160 < name.length) (.badRequest "Product name is too long")
  let categoryId ← usableCategory db userId (data.categoryId.getD 0)
  let selling := ((nonzero data.sellingPrice).or data.customerPrice).getD 0
  raiseIf (selling ≤ 0) (.badRequest "Price must be greater than 0")
  let stockQty := data.stockQty.getD 0
  raiseIf (stockQty < 0) (.badRequest "Stock must be 0 or more")
  raiseIf (300 < (data.shortDescription.getD "").length)
    (.badRequest "Short description is too long")
  raiseIf (4000 < (data.description.getD "").length) (.badRequest "Details are too long")
  return {
    name, categoryId, stockQty
    brandName := some profile.shopName
    supplierUserId := some userId
    sellingPrice := selling
    customerPrice := some (data.customerPrice.getD selling)
    shopPrice := data.shopPrice
    purchaseCost := data.purchaseCost
    stockStatus := stockStatusFor stockQty defaultThreshold
    coverImageUrl := data.coverImageUrl
    isDraft := false
    isActive := data.isActive
    supplierAvailableQty := 0
    lowStockThreshold := 5
    salesCount := 0 }

/-- The fields of a shop's change; one that is null changes nothing. -/
structure MyProductPatch where
  name : Option String := none
  categoryId : Option ℤ := none
  sellingPrice : Option ℚ := none
  customerPrice : Option ℚ := none
  shopPrice : Option ℚ := none
  purchaseCost : Option ℚ := none
  stockQty : Option ℤ := none
  coverImageUrl : Option String := none
  isActive : Option Bool := none
  isDraft : Option Bool := none

/-- A product as a shop's change leaves it. -/
def myPatched (data : MyProductPatch) (name : Option String) (categoryId : Option ℕ) (p : Product) :
    Product :=
  { p with
    name := name.getD p.name
    categoryId := categoryId.getD p.categoryId
    sellingPrice := data.sellingPrice.getD p.sellingPrice
    customerPrice := data.customerPrice.or p.customerPrice
    shopPrice := data.shopPrice.or p.shopPrice
    purchaseCost := data.purchaseCost.or p.purchaseCost
    stockQty := data.stockQty.getD p.stockQty
    stockStatus := (data.stockQty.map fun q => stockStatusFor q defaultThreshold).getD p.stockStatus
    coverImageUrl := data.coverImageUrl.or p.coverImageUrl
    isActive := data.isActive.getD p.isActive
    isDraft := data.isDraft.getD p.isDraft }

/-- What `patch_my_product` writes. -/
def myPatch (db : Db) (userId : ℕ) (data : MyProductPatch) : Except AppError (Product → Product) := do
  let name ← data.name.mapM fun name => productName (some name)
  let categoryId ← data.categoryId.mapM fun categoryId => usableCategory db userId categoryId
  raiseIf (∃ price ∈ data.sellingPrice, price ≤ 0) (.badRequest "Price must be greater than 0")
  raiseIf (∃ qty ∈ data.stockQty, qty < 0) (.badRequest "Stock must be 0 or more")
  return myPatched data name categoryId

/-- A product that a shop has taken off the catalog. -/
def withdrawn (p : Product) : Product := { p with isActive := false, isDraft := true }

end Shop

/-- The product, if the shop sells it. -/
def myProduct (db : Db) (userId productId : ℕ) : Option Product :=
  (db.products.get? productId).filter fun p => p.supplierUserId = some userId

/-- `create_my_product`: the key of the product. -/
def createMyProduct (userId : ℕ) (data : MyProductIn) (now : ℕ) : Sell.Service ℕ := do
  let shop ← Sell.sellingShop userId now
  let db ← get
  let p ← ofExcept (myNewProduct db userId shop.2 data)
  modify (insertProduct p)
  commit
  return db.products.next

/-- `patch_my_product`: the product's row as it is then. -/
def patchMyProduct (userId productId : ℕ) (data : MyProductPatch) (now : ℕ) :
    Sell.Service (Option Product) := do
  let _ ← Sell.sellingShop userId now
  let db ← get
  let _ ← orRaise (myProduct db userId productId) (.notFound "Product not found")
  let f ← ofExcept (myPatch db userId data)
  modify (writeProduct productId f)
  commit
  let db ← get
  return db.products.get? productId

/-- `delete_my_product`: the row stays, for the orders that name it. -/
def deleteMyProduct (userId productId now : ℕ) : Sell.Service Unit := do
  let _ ← Sell.sellingShop userId now
  let db ← get
  let _ ← orRaise (myProduct db userId productId) (.notFound "Product not found")
  modify (writeProduct productId withdrawn)
  commit

/-! ## The admin -/

section Admin

open Guard

/-- A request that the database does not take. -/
def integrityError : AppError := .uncaught "IntegrityError"

/-- `resolve_brand_fields`. -/
def resolveBrandFields (brandName : Option String) (supplierUserId : Option ℕ)
    (shopName : Option String) : Option String × Option ℕ :=
  let sid := nonzero supplierUserId
  let brand := truthy (some (stripped (brandName.getD "")))
  (if sid ≠ none ∧ brand = none then truthy (some (stripped (shopName.getD ""))) else brand, sid)

/-- `_apply_supplier_brand`: the brand and the supplier of a product. -/
def applySupplierBrand (db : Db) (brandName : Option String) (supplierUserId : Option ℕ) :
    Except AppError (Option String × Option ℕ) :=
  match nonzero supplierUserId with
  | none => return (truthy (some (stripped (brandName.getD ""))), none)
  | some userId => do
    let _ ← orRaise ((db.users.get? userId).filter fun u => u.role = .retailer)
      (.badRequest "Supplier must be a retailer/wholesaler shop")
    let (_, profile) ← orRaise (profileOf db userId) (.badRequest "Supplier shop profile not found")
    raiseIf (profile.isWholesaler = false)
      (.badRequest "Shop is not marked as wholesaler/supplier")
    return resolveBrandFields brandName (some userId) (some profile.shopName)

/-- The fields of a product that the admin adds. -/
structure ProductIn where
  categoryId : ℕ
  name : String
  brandName : Option String := none
  supplierUserId : Option ℕ := none
  sellingPrice : ℚ := 0
  customerPrice : Option ℚ := none
  shopPrice : Option ℚ := none
  purchaseCost : Option ℚ := none
  originalPrice : Option ℚ := none
  stockQty : ℤ := 0
  isEggless : Bool := false
  coverImageUrl : Option String := none
  isDraft : Bool := false
  isActive : Bool := true

/-- The row that `create_product` adds. -/
def newProduct (db : Db) (body : ProductIn) : Except AppError Product := do
  let (brandName, supplierUserId) ← applySupplierBrand db body.brandName body.supplierUserId
  raiseIf (db.categories.get? body.categoryId = none) integrityError
  return {
    brandName, supplierUserId
    categoryId := body.categoryId
    name := body.name
    sellingPrice := body.sellingPrice
    customerPrice := body.customerPrice
    shopPrice := body.shopPrice
    purchaseCost := body.purchaseCost
    originalPrice := body.originalPrice
    stockQty := body.stockQty
    stockStatus := stockStatusFor body.stockQty defaultThreshold
    isEggless := body.isEggless
    coverImageUrl := body.coverImageUrl
    isDraft := body.isDraft
    isActive := body.isActive
    supplierAvailableQty := 0
    lowStockThreshold := 5
    salesCount := 0 }

/-- The fields of an admin's change.  A field may be missing, null, or have a value; the
threshold is a column that the handler takes and its route does not. -/
structure ProductPatch where
  categoryId : Option (Option ℕ) := none
  name : Option (Option String) := none
  brandName : Option (Option String) := none
  supplierUserId : Option (Option ℕ) := none
  sellingPrice : Option (Option ℚ) := none
  stockQty : Option (Option ℤ) := none
  isActive : Option (Option Bool) := none
  isDraft : Option (Option Bool) := none
  coverImageUrl : Option (Option String) := none
  shopPrice : Option (Option ℚ) := none
  customerPrice : Option (Option ℚ) := none
  purchaseCost : Option (Option ℚ) := none
  lowStockThreshold : Option (Option ℤ) := none

/-- A field of a column that is never null. -/
def required {α : Type} (field : Option (Option α)) : Except AppError (Option α) :=
  match field with
  | some none => .error integrityError
  | some (some a) => .ok (some a)
  | none => .ok none

/-- The brand and the supplier of a product after an admin's change. -/
def patchedBrand (db : Db) (p : Product) (data : ProductPatch) :
    Except AppError (Option String × Option ℕ) :=
  if data.brandName = none ∧ data.supplierUserId = none then .ok (p.brandName, p.supplierUserId)
  else
    applySupplierBrand db (data.brandName.getD p.brandName)
      (data.supplierUserId.getD p.supplierUserId)

/-- What `update_product` writes to the product `p`.  A null stock is no number to compute a
status from. -/
def patched (db : Db) (p : Product) (data : ProductPatch) : Except AppError (Product → Product) := do
  let (brandName, supplierUserId) ← patchedBrand db p data
  raiseIf (data.stockQty = some none) (.uncaught "TypeError")
  let stockQty ← required data.stockQty
  let categoryId ← required data.categoryId
  let name ← required data.name
  let sellingPrice ← required data.sellingPrice
  let isActive ← required data.isActive
  let isDraft ← required data.isDraft
  let lowStockThreshold ← required data.lowStockThreshold
  raiseIf (∃ k ∈ categoryId, db.categories.get? k = none) integrityError
  return fun p =>
    { p with
      brandName
      supplierUserId
      categoryId := categoryId.getD p.categoryId
      name := name.getD p.name
      sellingPrice := sellingPrice.getD p.sellingPrice
      stockQty := stockQty.getD p.stockQty
      stockStatus := (stockQty.map fun q => stockStatusFor q defaultThreshold).getD p.stockStatus
      isActive := isActive.getD p.isActive
      isDraft := isDraft.getD p.isDraft
      coverImageUrl := data.coverImageUrl.getD p.coverImageUrl
      shopPrice := data.shopPrice.getD p.shopPrice
      customerPrice := data.customerPrice.getD p.customerPrice
      purchaseCost := data.purchaseCost.getD p.purchaseCost
      lowStockThreshold := lowStockThreshold.getD p.lowStockThreshold }

/-- A product that the admin has disabled. -/
def disabled (p : Product) : Product := { p with isActive := false }

/-- The fields of the copy that `duplicate_product` makes: a draft. -/
def copyIn (p : Product) : ProductIn where
  categoryId := p.categoryId
  name := p.name ++ " (Copy)"
  brandName := p.brandName
  supplierUserId := p.supplierUserId
  sellingPrice := p.sellingPrice
  customerPrice := p.customerPrice
  shopPrice := p.shopPrice
  purchaseCost := p.purchaseCost
  originalPrice := p.originalPrice
  stockQty := p.stockQty
  isEggless := p.isEggless
  coverImageUrl := p.coverImageUrl
  isDraft := true

/-- A product with another stock. -/
def restocked (stockQty : ℤ) (p : Product) : Product :=
  { p with stockQty, stockStatus := stockStatusFor stockQty defaultThreshold }

/-- The movement of an adjusted stock. -/
def adjustment (productId : ℕ) (p : Product) (stockQty : ℤ) (reason : String) (note : Option String)
    (adminId : Option ℕ) : StockMovement :=
  ⟨productId, stockQty - p.stockQty, reason, note, adminId⟩

/-- The fields of a change of prices. -/
structure PricesIn where
  sellingPrice : Option (Option ℚ) := none
  customerPrice : Option (Option ℚ) := none
  shopPrice : Option (Option ℚ) := none
  originalPrice : Option (Option ℚ) := none
  purchaseCost : Option (Option ℚ) := none

/-- A price is not negative. -/
def checkPrice (key : String) (field : Option (Option ℚ)) : Except AppError Unit :=
  raiseIf (∃ v ∈ field.join, v < 0) (.badRequest (key ++ " must be >= 0"))

/-- What `update_prices` writes. -/
def repriced (data : PricesIn) : Except AppError (Product → Product) := do
  checkPrice "selling_price" data.sellingPrice
  checkPrice "customer_price" data.customerPrice
  checkPrice "shop_price" data.shopPrice
  checkPrice "original_price" data.originalPrice
  checkPrice "purchase_cost" data.purchaseCost
  let sellingPrice ← required data.sellingPrice
  return fun p =>
    { p with
      sellingPrice := sellingPrice.getD p.sellingPrice
      customerPrice := data.customerPrice.getD p.customerPrice
      shopPrice := data.shopPrice.getD p.shopPrice
      originalPrice := data.originalPrice.getD p.originalPrice
      purchaseCost := data.purchaseCost.getD p.purchaseCost }

end Admin

/-- `create_product`: the key of the product. -/
def createProduct (body : ProductIn) : Sell.Service ℕ := do
  let db ← get
  let p ← ofExcept (newProduct db body)
  modify (insertProduct p)
  commit
  return db.products.next

/-- `update_product`: the product's row as it is then. -/
def updateProduct (productId : ℕ) (data : ProductPatch) : Sell.Service (Option Product) := do
  let db ← get
  let p ← orRaise (db.products.get? productId) (.notFound "Product not found")
  let f ← ofExcept (patched db p data)
  modify (writeProduct productId f)
  commit
  let db ← get
  return db.products.get? productId

/-- `soft_delete_product`. -/
def softDeleteProduct (productId : ℕ) : Sell.Service String := do
  let db ← get
  match db.products.get? productId with
  | some _ =>
    modify (writeProduct productId disabled)
    commit
    return "disabled"
  | none => return "disabled"

/-- `duplicate_product`. -/
def duplicateProduct (productId : ℕ) : Sell.Service ℕ := do
  let db ← get
  let p ← orRaise (db.products.get? productId) (.notFound "Product not found")
  createProduct (copyIn p)

/-- `update_stock`: the product's row as it is then. -/
def updateStock (productId : ℕ) (stockQty : ℤ) (reason : String) (note : Option String)
    (adminId : Option ℕ) : Sell.Service (Option Product) := do
  let db ← get
  let p ← orRaise (db.products.get? productId) (.notFound "Product not found")
  modify (writeProduct productId (restocked stockQty))
  modify fun db =>
    { db with movements := db.movements.insert (adjustment productId p stockQty reason note adminId) }
  commit
  let db ← get
  return db.products.get? productId

/-- `update_prices`: the product's row as it is then. -/
def updatePrices (productId : ℕ) (data : PricesIn) : Sell.Service (Option Product) := do
  let db ← get
  let _ ← orRaise (db.products.get? productId) (.notFound "Product not found")
  let f ← ofExcept (repriced data)
  modify (writeProduct productId f)
  commit
  let db ← get
  return db.products.get? productId

/-! ## A product that a shop asks for -/

/-- The fields of a shop's request for a product. -/
structure ProductRequestIn where
  name : Option String := none
  title : Option String := none
  imageUrls : List String := []
  coverImage : Option String := none
  category : Option String := none
  shopPrice : Option ℚ := none
  sellingPrice : Option ℚ := none
  recommendedSellingPrice : Option ℚ := none
  customerPrice : Option ℚ := none
  suggestedStock : Option ℤ := none
  stockQty : Option ℤ := none
  isEggless : Bool := false

/-- `(s.get("name") or s.get("title") or "").strip()`. -/
def requestedName (body : ProductRequestIn) : String :=
  stripped (((truthy body.name).or body.title).getD "")

/-- The photo of a request: the cover, or the first image. -/
def requestedCover (body : ProductRequestIn) : Option String :=
  (truthy body.coverImage).or ((body.imageUrls.filter fun u => u ≠ "").head?)

/-- The category of a request, by name. -/
def requestedCategory (body : ProductRequestIn) : String :=
  (truthy (some (stripped ((truthy body.category).getD "Village Supply")))).getD "Village Supply"

/-- The database with the category in it. -/
def withCategory (name : String) (db : Db) : Db :=
  match db.categories.first? fun c => c.name = name with
  | some _ => db
  | none => { db with categories := db.categories.insert ⟨name, none, none, true⟩ }

/-- The key of a category, which is committed when there is none. -/
def categoryNamed (name : String) : Sell.Service ℕ := do
  let db ← get
  match db.categories.first? fun c => c.name = name with
  | some (k, _) => return k
  | none =>
    modify (withCategory name)
    commit
    return db.categories.next

/-- The fields of the draft that a request becomes. -/
def requestIn (body : ProductRequestIn) (categoryId : ℕ) : ProductIn :=
  let shopPrice := ((nonzero body.shopPrice).or ((nonzero body.sellingPrice).or
    (nonzero body.recommendedSellingPrice))).getD 99
  let selling := ((nonzero body.sellingPrice).or (nonzero body.customerPrice)).getD shopPrice
  { categoryId
    name := String.ofList ((requestedName body).toList.take 200)
    sellingPrice := selling
    shopPrice := some shopPrice
    customerPrice := some ((nonzero body.customerPrice).getD selling)
    stockQty := ((nonzero body.suggestedStock).or body.stockQty).getD 0
    isEggless := body.isEggless
    coverImageUrl := requestedCover body
    isDraft := true
    isActive := false }

/-- `request_product`. -/
def requestProduct (body : ProductRequestIn) : Sell.Service ℕ := do
  raiseIf (requestedName body = "") (.badRequest "Product name is required")
  raiseIf (requestedCover body = none) (.badRequest "Product photo is required")
  let categoryId ← categoryNamed (requestedCategory body)
  createProduct (requestIn body categoryId)

end Catalog

end SweetCrust
