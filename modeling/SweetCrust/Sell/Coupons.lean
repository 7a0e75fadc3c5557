import SweetCrust.Lib.Decimal
import SweetCrust.Sell.Shop

/-!
# The coupons of a shop

`create_coupon` and `patch_coupon` of `sell.py`.  Creating a coupon checks its terms;
changing it writes every value that the request names, unchecked.  Title and description
are not stored here: nothing computes with them.
-/

namespace SweetCrust

open Tabular Session Text Decimal

namespace Sell

/-- `ShopCouponIn`. -/
structure CouponIn where
  code : String
  title : String
  couponType : String := "percentage"
  value : ℚ := 0
  minOrderAmount : ℚ := 0
  maxDiscount : Option ℚ := none
  usageLimit : Option ℤ := none
  isActive : Bool := true

/-- `(data.get("code") or "").strip().upper()`. -/
def couponCode (text : String) : String := String.ofList (upper (strip isSpace text.toList))

/-- `(data.get("coupon_type") or "percentage").strip().lower()`. -/
def couponType (text : String) : String :=
  String.ofList (lower (strip isSpace ((truthy (some text)).getD "percentage").toList))

/-- The row of a new coupon. -/
def newCoupon (userId : ℕ) (data : CouponIn) : Coupon where
  code := couponCode data.code
  couponType := couponType data.couponType
  value := data.value
  minOrderAmount := data.minOrderAmount
  maxDiscount := data.maxDiscount
  isActive := data.isActive
  usageLimit := data.usageLimit
  shopUserId := some userId

/-- `create_coupon`: the key of the coupon. -/
def createCoupon (userId now : ℕ) (data : CouponIn) : Service ℕ := do
  let _ ← sellingShop userId now
  raiseIf (couponCode data.code = "" ∨ strip isSpace data.title.toList = [])
    (.badRequest "code and title required")
  raiseIf ((couponCode data.code).length < 3) (.badRequest "Code must be at least 3 characters")
  let db ← get
  raiseIf ((db.coupons.first? fun c => c.code = couponCode data.code).isSome = true)
    (.badRequest "Coupon code already exists")
  raiseIf (couponType data.couponType ∉ ["percentage", "flat"])
    (.badRequest "coupon_type must be percentage or flat")
  raiseIf (data.value ≤ 0) (.badRequest "Offer value must be greater than 0")
  raiseIf (couponType data.couponType = "percentage" ∧ data.value > 100)
    (.badRequest "Percentage cannot exceed 100")
  modify fun db => { db with coupons := db.coupons.insert (newCoupon userId data) }
  commit
  return db.coupons.next

/-- `ShopCouponPatchIn`: a value that is missing is not changed. -/
structure CouponPatchIn where
  couponType : Option String := none
  value : Option ℚ := none
  minOrderAmount : Option ℚ := none
  maxDiscount : Option ℚ := none
  usageLimit : Option ℤ := none
  isActive : Option Bool := none

/-- A coupon with the values that a request names. -/
def patchedCoupon (data : CouponPatchIn) (c : Coupon) : Coupon :=
  { c with
    couponType := data.couponType.getD c.couponType
    value := data.value.getD c.value
    minOrderAmount := data.minOrderAmount.getD c.minOrderAmount
    maxDiscount := data.maxDiscount.or c.maxDiscount
    usageLimit := data.usageLimit.or c.usageLimit
    isActive := data.isActive.getD c.isActive }

/-- `patch_coupon`. -/
def patchCoupon (userId couponId now : ℕ) (data : CouponPatchIn) : Service Unit := do
  let _ ← sellingShop userId now
  let db ← get
  let _ ← orRaise ((db.coupons.get? couponId).filter fun c => c.shopUserId = some userId)
    (.notFound "Coupon not found")
  modify fun db => { db with coupons := db.coupons.modify couponId (patchedCoupon data) }
  commit

end Sell

end SweetCrust
