import SweetCrust.Cart.Carts

/-!
# Coupons on a cart

`apply_coupon` of the promotion service: the cart remembers the code of an active coupon.
What the coupon takes off is computed whenever the cart is summed up.

* `TakesOff` — what the terms of a coupon take off an amount.
* `takesOff_discountOf`, `TakesOff.unique` — the code computes just that.
-/

namespace SweetCrust

open Tabular Session Text Carts

namespace Promotion

/-- The summary of the promotion service, which does not name the shop. -/
def withoutShop (summary : Summary) : Summary :=
  { summary with
    shopUserId := none
    shopName := none
    items := summary.items.map fun line => { line with supplierUserId := none } }

/-- The active coupon with a code. -/
def activeCoupon (db : Db) (code : String) : Option (ℕ × Coupon) :=
  db.coupons.first? fun c => c.code = code ∧ c.isActive = true

/-- The database with a coupon on the cart. -/
def couponed (cartId : ℕ) (code : String) (db : Db) : Db :=
  { db with carts := db.carts.modify cartId fun c => { c with couponCode := some code } }

/-- `apply_coupon`. -/
def applyCoupon (userId : ℕ) (code : String) : Service Summary := do
  let db ← get
  let (_, coupon) ← orRaise (activeCoupon db (String.ofList (upper code.toList)))
    (.badRequest "Invalid coupon")
  let (cartId, _) ← getOrCreateCart userId
  modify (couponed cartId coupon.code)
  commit
  return withoutShop (← cartSummary userId)

/-! ## What a coupon takes off -/

/-- The types of a coupon whose value is a percentage. -/
def percentTypes : List String := ["percentage", "first_order", "festival", "category", "product"]

/-- The coupon takes the amount `x` off a total. -/
inductive TakesOff (total : ℚ) : Option Coupon → ℚ → Prop
  | none : TakesOff total none 0
  | tooSmall (c : Coupon) (h : total < c.minOrderAmount) : TakesOff total (some c) 0
  | percent (c : Coupon) (h : c.minOrderAmount ≤ total) (hkind : c.couponType ∈ percentTypes)
      (hlimit : ∀ m ∈ c.maxDiscount, m ≠ 0 → total * c.value / 100 ≤ m) :
      TakesOff total (some c) (total * c.value / 100)
  | limited (c : Coupon) (m : ℚ) (h : c.minOrderAmount ≤ total)
      (hkind : c.couponType ∈ percentTypes) (hmax : c.maxDiscount = some m) (hm : m ≠ 0)
      (hle : m ≤ total * c.value / 100) : TakesOff total (some c) m
  | freeDelivery (c : Coupon) (h : c.minOrderAmount ≤ total)
      (hkind : c.couponType = "free_delivery") : TakesOff total (some c) 0
  | amount (c : Coupon) (h : c.minOrderAmount ≤ total) (hkind : c.couponType ∉ percentTypes)
      (hpaid : c.couponType ≠ "free_delivery") (hle : c.value ≤ total) :
      TakesOff total (some c) c.value
  | whole (c : Coupon) (h : c.minOrderAmount ≤ total) (hkind : c.couponType ∉ percentTypes)
      (hpaid : c.couponType ≠ "free_delivery") (hle : total ≤ c.value) :
      TakesOff total (some c) total

section Discounts

variable {total x y : ℚ} {c : Coupon} {coupon : Option Coupon}

theorem couponDiscountIn_of_small (fl : ℚ → ℚ) (h : fl total < fl c.minOrderAmount) :
    couponDiscountIn fl c total = 0 := if_pos h

theorem couponDiscountIn_of_percent (fl : ℚ → ℚ) (h : fl c.minOrderAmount ≤ fl total)
    (hkind : c.couponType ∈ percentTypes) :
    couponDiscountIn fl c total =
      match c.maxDiscount.filter fun m => m ≠ 0 with
      | some m => min (fl (fl (fl total * fl c.value) / 100)) (fl m)
      | none => fl (fl (fl total * fl c.value) / 100) := by
  unfold couponDiscountIn
  rw [if_neg (not_lt.2 h)]
  exact if_pos hkind

theorem couponDiscountIn_of_free (fl : ℚ → ℚ) (h : fl c.minOrderAmount ≤ fl total)
    (hkind : c.couponType = "free_delivery") : couponDiscountIn fl c total = 0 := by
  have hother : c.couponType ∉ percentTypes := by
    rw [hkind]
    decide
  unfold couponDiscountIn
  rw [if_neg (not_lt.2 h)]
  exact (if_neg hother).trans (if_pos hkind)

theorem couponDiscountIn_of_amount (fl : ℚ → ℚ) (h : fl c.minOrderAmount ≤ fl total)
    (hkind : c.couponType ∉ percentTypes) (hpaid : c.couponType ≠ "free_delivery") :
    couponDiscountIn fl c total = min (fl c.value) (fl total) := by
  unfold couponDiscountIn
  rw [if_neg (not_lt.2 h)]
  exact (if_neg hkind).trans (if_neg hpaid)

theorem couponDiscount_of_small (h : total < c.minOrderAmount) : couponDiscount c total = 0 :=
  couponDiscountIn_of_small id h

theorem couponDiscount_of_percent (h : c.minOrderAmount ≤ total)
    (hkind : c.couponType ∈ percentTypes) :
    couponDiscount c total =
      match c.maxDiscount.filter fun m => m ≠ 0 with
      | some m => min (total * c.value / 100) m
      | none => total * c.value / 100 := couponDiscountIn_of_percent id h hkind

theorem couponDiscount_of_free (h : c.minOrderAmount ≤ total)
    (hkind : c.couponType = "free_delivery") : couponDiscount c total = 0 :=
  couponDiscountIn_of_free id h hkind

theorem couponDiscount_of_amount (h : c.minOrderAmount ≤ total)
    (hkind : c.couponType ∉ percentTypes) (hpaid : c.couponType ≠ "free_delivery") :
    couponDiscount c total = min c.value total := couponDiscountIn_of_amount id h hkind hpaid

/-- `_coupon_discount` computes what the terms of the coupon take off. -/
theorem takesOff_couponDiscount (c : Coupon) (total : ℚ) :
    TakesOff total (some c) (couponDiscount c total) := by
  by_cases hmin : total < c.minOrderAmount
  · rw [couponDiscount_of_small hmin]
    exact .tooSmall c hmin
  rw [not_lt] at hmin
  by_cases hkind : c.couponType ∈ percentTypes
  · rw [couponDiscount_of_percent hmin hkind]
    cases hmax : c.maxDiscount.filter fun m => m ≠ 0 with
    | none =>
      refine .percent c hmin hkind fun m hm hne => ?_
      rw [Option.filter_eq_none_iff] at hmax
      exact absurd (by simpa using hne) (hmax m hm)
    | some m =>
      obtain ⟨hsome, hne⟩ := Option.filter_eq_some_iff.1 hmax
      rcases le_total (total * c.value / 100) m with hle | hle
      · show TakesOff total (some c) (min (total * c.value / 100) m)
        rw [min_eq_left hle]
        refine .percent c hmin hkind fun m' hm' _ => ?_
        rw [hsome] at hm'
        cases hm'
        exact hle
      · show TakesOff total (some c) (min (total * c.value / 100) m)
        rw [min_eq_right hle]
        exact .limited c m hmin hkind hsome (by simpa using hne) hle
  · by_cases hfree : c.couponType = "free_delivery"
    · rw [couponDiscount_of_free hmin hfree]
      exact .freeDelivery c hmin hfree
    · rw [couponDiscount_of_amount hmin hkind hfree]
      rcases le_total c.value total with hle | hle
      · rw [min_eq_left hle]
        exact .amount c hmin hkind hfree hle
      · rw [min_eq_right hle]
        exact .whole c hmin hkind hfree hle

/-- Nothing else comes off. -/
theorem TakesOff.eq_couponDiscount (h : TakesOff total (some c) x) : x = couponDiscount c total := by
  cases h with
  | tooSmall _ h => rw [couponDiscount_of_small h]
  | percent _ h hkind hlimit =>
    rw [couponDiscount_of_percent h hkind]
    cases hmax : c.maxDiscount.filter fun m => m ≠ 0 with
    | none => rfl
    | some m =>
      obtain ⟨hsome, hne⟩ := Option.filter_eq_some_iff.1 hmax
      exact (min_eq_left (hlimit m hsome (by simpa using hne))).symm
  | limited _ _ h hkind hmax hm hle =>
    have hfilter : c.maxDiscount.filter (fun m => m ≠ 0) = some x := by
      rw [hmax, Option.filter_some, if_pos (by simpa using hm)]
    rw [couponDiscount_of_percent h hkind, hfilter]
    exact (min_eq_right hle).symm
  | freeDelivery _ h hkind => rw [couponDiscount_of_free h hkind]
  | amount _ h hkind hpaid hle =>
    rw [couponDiscount_of_amount h hkind hpaid, min_eq_left hle]
  | whole _ h hkind hpaid hle =>
    rw [couponDiscount_of_amount h hkind hpaid, min_eq_right hle]

theorem TakesOff.unique (hx : TakesOff total coupon x) (hy : TakesOff total coupon y) : x = y := by
  cases coupon with
  | none =>
    cases hx
    cases hy
    rfl
  | some c => rw [hx.eq_couponDiscount, hy.eq_couponDiscount]

/-- The coupon that a cart's code stands for. -/
def appliedCoupon (db : Db) (cart : Cart) : Option Coupon :=
  ((truthy cart.couponCode).bind (activeCoupon db)).map Prod.snd

/-- The summary takes off what the terms of the cart's coupon do. -/
theorem takesOff_discountOf (db : Db) (cart : Cart) (total : ℚ) :
    TakesOff total (appliedCoupon db cart) (discountOf db cart total) := by
  unfold appliedCoupon discountOf discountIn activeCoupon
  cases (truthy cart.couponCode).bind fun code =>
      db.coupons.first? fun c => c.code = code ∧ c.isActive = true with
  | none => exact .none
  | some r => exact takesOff_couponDiscount r.2 total

end Discounts

end Promotion

end SweetCrust
