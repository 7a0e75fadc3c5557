import SweetCrust.Checkout.Money
import SweetCrust.Checkout.SingleShop

/-!
# Which terms of a coupon count?

A coupon has a limit of uses, a time window, a shop and a count of its uses.  No request
looks at them: a coupon counts when it is active, and its minimum order is reached.

* `coupons_run` — no request of a customer writes a coupon, so its uses are not counted.
* `couponed_of_created` — the coupon that an order has its discount from.
* `terms_ignored` — a run that breaks the other terms.
-/

namespace SweetCrust

open Tabular Session Rounding Carts Checkout Promotion Runs

namespace Shopping

/-! ## The other terms -/

/-- The orders that have a discount from the coupon with a code. -/
def fromCoupon (db : Db) (code : String) : List (ℕ × Order) :=
  db.orders.select fun o => o.couponCode = some code ∧ 0 < o.discount

/-- The coupon is used no more often than its limit. -/
def WithinLimit (c : Coupon) (db : Db) : Prop :=
  ∀ n ∈ c.usageLimit, ((fromCoupon db c.code).length : ℤ) ≤ n

/-- The coupon is used in its time window. -/
def WithinWindow (c : Coupon) (db : Db) : Prop :=
  ∀ o ∈ fromCoupon db c.code,
    (∀ start ∈ c.startsAt, start ≤ o.2.createdAt) ∧ ∀ stop ∈ c.endsAt, o.2.createdAt ≤ stop

/-- The coupon is used for products of its shop. -/
def OfItsShop (c : Coupon) (db : Db) : Prop :=
  ∀ o ∈ fromCoupon db c.code, ∀ shop ∈ c.shopUserId,
    db.orderItems.All fun i => i.orderId = o.1 → shopOf db.products i.productId = some shop

/-- The uses of the coupon are counted. -/
def UsesCounted (c : Coupon) (db : Db) : Prop :=
  ∀ k ∈ activeCoupon db c.code, k.2.usedCount = (fromCoupon db c.code).length

/-! ## The terms that count -/

/-- An order has its discount, if it has one, from an active coupon whose minimum order is
reached, and it is what the coupon takes off. -/
def DiscountedBy (db : Db) (u : ℕ) (order : Order) : Prop :=
  0 < order.discount → ∃ k c x, db.coupons.get? k = some c ∧ order.couponCode = some c.code ∧
    c.isActive = true ∧ c.minOrderAmount ≤ cartWorth db u ∧
      TakesOff (cartWorth db u) (some c) x ∧ order.discount = round2 x

/-- Over a run, coupons stay as they are, and the orders created have their discounts from
them. -/
structure CouponTerms (db : Db) (rs : List Request) : Prop where
  unwritten : (run step db rs).coupons = db.coupons
  discounts : ∀ pre u data draws o, pre ++ [.checkout u data draws] <+: rs →
    created (run step db pre) (.checkout u data draws) = some o →
      ∃ order, (run step db (pre ++ [.checkout u data draws])).orders.get? o = some order ∧
        DiscountedBy (run step db pre) u order

section Coupons

variable {s : Db} {u o : ℕ} {data : CheckoutIn} {draws : Draws} {r : Request} {c : Coupon} {x : ℚ}

/-- No request writes a coupon. -/
theorem coupons_step (s : Db) (r : Request) : (step s r).coupons = s.coupons := by
  rcases step_cases s r with ⟨hframe, _⟩ | ⟨u, data, draws, q, _, _, ht⟩
  · exact hframe.coupons
  · rw [ht]
    exact (frame_prepared u s).coupons

theorem coupons_run (s : Db) (rs : List Request) : (run step s rs).coupons = s.coupons := by
  induction rs generalizing s with
  | nil => rfl
  | cons r rs ih => rw [run_cons, ih, coupons_step]

/-- A coupon that takes off something has its minimum order reached. -/
theorem min_le_of_takesOff {worth : ℚ} (h : TakesOff worth (some c) x) (hx : x ≠ 0) :
    c.minOrderAmount ≤ worth := by
  cases h with
  | tooSmall => exact absurd rfl hx
  | freeDelivery => exact absurd rfl hx
  | percent _ h => exact h
  | limited _ _ h => exact h
  | amount _ h => exact h
  | whole _ h => exact h

/-- The coupon of a cart is active, and has the code that the cart remembers. -/
theorem appliedCoupon_eq_some {cart : Cart} (h : appliedCoupon s cart = some c) :
    ∃ k, s.coupons.get? k = some c ∧ cart.couponCode = some c.code ∧ c.isActive = true := by
  obtain ⟨⟨k, c'⟩, hbind, rfl⟩ := Option.map_eq_some_iff.1 h
  obtain ⟨code, hcode, hfirst⟩ := Option.bind_eq_some_iff.1 hbind
  obtain ⟨hget, hc⟩ := Table.get?_of_first? hfirst
  simp only [Bool.decide_and, Bool.decide_eq_true, Bool.and_eq_true, decide_eq_true_eq] at hc
  refine ⟨k, hget, ?_, hc.2⟩
  rw [hc.1]
  exact (Option.filter_eq_some_iff.1 hcode).1

/-- The order of a checkout has its discount from the coupon of the cart. -/
theorem couponed_of_created (hc : created s (.checkout u data draws) = some o) :
    ∃ order, (step s (.checkout u data draws)).orders.get? o = some order ∧
      DiscountedBy s u order := by
  obtain ⟨u', data', draws', q, heq, hq, rfl, ht⟩ := created_eq_some hc
  cases heq
  obtain ⟨_, _, hsummary, _⟩ := quote_eq_ok (quoted_eq_some hq).outcome
  have horder := order_checkedOut draws q (prepared u s)
  rw [(frame_prepared u s).orders] at horder
  refine ⟨orderOf draws q, ht ▸ horder, fun hpos => ?_⟩
  have hx := takesOff_discountOf s (cartFor s u).2 (cartWorth s u)
  set x := discountOf s (cartFor s u).2 (cartWorth s u)
  have hdiscount : (orderOf draws q).discount = round2 x := by
    show q.summary.discount = round2 x
    rw [hsummary]
    exact (fields_summaryFor hx).2.1
  have hne : x ≠ 0 := by
    intro hzero
    rw [hdiscount, hzero, round2_zero] at hpos
    exact absurd hpos (lt_irrefl 0)
  cases happlied : appliedCoupon s (cartFor s u).2 with
  | none =>
    rw [happlied] at hx
    exact absurd (hx.unique .none) hne
  | some c =>
    rw [happlied] at hx
    obtain ⟨k, hget, hcode, hactive⟩ := appliedCoupon_eq_some happlied
    refine ⟨k, c, x, hget, ?_, hactive, min_le_of_takesOff hx hne, hx, hdiscount⟩
    show q.summary.couponCode = some c.code
    rw [hsummary]
    exact hcode

/-- The terms of a coupon that count, over a run. -/
theorem couponTerms (s : Db) (rs : List Request) : CouponTerms s rs where
  unwritten := coupons_run s rs
  discounts := by
    intro pre u data draws o _ hc
    rw [run_concat]
    exact couponed_of_created hc

end Coupons

/-! ## A coupon that is used twice, too late, and in another shop -/

/-- A coupon of shop 2 that can be used once, until time 5. -/
def onceOnly : Coupon where
  code := "ONCE"
  couponType := "flat"
  value := 50
  minOrderAmount := 0
  maxDiscount := none
  isActive := true
  endsAt := some 5
  usageLimit := some 1
  shopUserId := some 2

/-- The two shops with the coupon. -/
def couponShops : Db := { twoShops with coupons := .ofList [onceOnly] }

/-- Buying the cake of the first shop with the coupon, at a time. -/
def buyOnce (number : String) (now : ℕ) : List Request :=
  [addCake 1, .coupon 3 "once", .checkout 3 ⟨1, "upi", ""⟩ ⟨number, "TXN", now⟩]

/-- Two orders at times 10 and 20, both of the first shop, and the uses stay at zero. -/
theorem terms_ignored :
    let t := run step couponShops (buyOnce "ORD1" 10 ++ buyOnce "ORD2" 20)
    ¬ WithinLimit onceOnly t ∧ ¬ WithinWindow onceOnly t ∧ ¬ OfItsShop onceOnly t ∧
      ¬ UsesCounted onceOnly t := by
  unfold WithinLimit WithinWindow OfItsShop UsesCounted
  decide +kernel

end Shopping

end SweetCrust
