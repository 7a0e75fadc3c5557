import SweetCrust.Cart.Promotion
import SweetCrust.Lib.Binary64
import SweetCrust.Lib.Guard
import SweetCrust.Lib.Rounding
import SweetCrust.Sell.Coupons

/-!
# What a coupon is said to take off: `validate_code`

The promotion service quotes the discount of a coupon for a subtotal, and the summary of a cart
deducts it.  The two are written apart, and they read the terms of a coupon differently: the
quote takes every type but `flat` for a percentage and takes a limit of zero for a limit, the
cart knows five percentage types, ignores the limit of an amount, and takes off no more than the
subtotal.  A percentage is worked out in another order, so near to a half of a paisa the two may
be rounded apart.

* `validateCode` — the quote, in floats.
* `within_quoted`, `within_charged` — how far both are from the percentage.
* `Alike` — the terms that both read alike.
* `quotedAsCharged_of_meets` — the quote is what is charged then.
-/

namespace SweetCrust

open Tabular Guard Rounding Decimal Carts Promotion Binary64

namespace Quotes

/-! ## The coupons of the platform -/

/-- `CouponIn`. -/
structure CouponIn where
  code : String
  couponType : String := "percentage"
  value : ℚ := 0
  minOrderAmount : ℚ := 0
  maxDiscount : Option ℚ := none
  isActive : Bool := true

/-- The row with the terms of a request. -/
def couponRow (code couponType : String) (data : CouponIn) : Coupon where
  code := code
  couponType := couponType
  value := data.value
  minOrderAmount := data.minOrderAmount
  maxDiscount := data.maxDiscount
  isActive := data.isActive

/-- `get_by_code`. -/
def getByCode (db : Db) (text : String) : Option (ℕ × Coupon) :=
  db.coupons.first? fun c => c.code = Sell.couponCode text

/-- Add a row, whose code the unique column must not have. -/
def addCoupon (c : Coupon) (db : Db) : Plan := do
  raiseIf ((db.coupons.first? fun d => d.code = c.code).isSome = true) (.uncaught "IntegrityError")
  return fun db => { db with coupons := db.coupons.insert c }

/-- `create_coupon` of the promotion service. -/
def createCoupon (data : CouponIn) (db : Db) : Plan := do
  let code := Sell.couponCode data.code
  raiseIf (code = "") (.badRequest "code required")
  raiseIf ((getByCode db code).isSome = true) (.badRequest "Coupon code already exists")
  let couponType := (Text.truthy (some data.couponType)).getD "percentage"
  addCoupon (couponRow code couponType data) db

/-- `create_coupon` of the store-ops service, for an admin: the code is stored as it comes. -/
def adminCreateCoupon (data : CouponIn) (db : Db) : Plan :=
  addCoupon (couponRow data.code data.couponType data) db

/-! ## The quote -/

/-- The discount that `validate_code` computes. -/
def quotedDiscount (c : Coupon) (subtotal : ℚ) : ℚ :=
  let discount :=
    if c.couponType = "flat" then fl c.value
    else fl (round2 (fl (fl subtotal * fl (fl c.value / 100))))
  match c.maxDiscount with
  | some m => min discount (fl m)
  | none => discount

/-- `validate_code`: the coupon, and the discount it is said to give. -/
def validateCode (db : Db) (code : String) (subtotal : ℚ) : Except AppError (ℕ × ℚ) := do
  let (k, c) ← orRaise ((getByCode db code).filter fun r => r.2.isActive)
    (.notFound "Coupon not found or inactive")
  raiseIf (c.minOrderAmount ≠ 0 ∧ fl subtotal < fl c.minOrderAmount)
    (.badRequest ("Minimum order ₹" ++ String.ofList (fixed0 c.minOrderAmount) ++ " required"))
  return (k, quotedDiscount c subtotal)

/-- The coupon gives nothing because it is not active, or the minimum is not reached. -/
def Refused (c : Coupon) (subtotal : ℚ) : Prop :=
  c.isActive = false ∨ fl subtotal < fl c.minOrderAmount

instance (c : Coupon) (subtotal : ℚ) : Decidable (Refused c subtotal) :=
  inferInstanceAs (Decidable (_ ∨ _))

/-- The quote for the coupon under key `k` is what the cart that has the coupon on it is charged
less. -/
structure QuotedAsCharged (db : Db) (k : ℕ) (c : Coupon) (cart : Cart) (subtotal : ℚ) : Prop where
  refused : (∃ e, validateCode db c.code subtotal = .error e) ↔ Refused c subtotal
  nothing : Refused c subtotal → discountIn fl db cart subtotal = 0
  quoted : ∀ j q, validateCode db c.code subtotal = .ok (j, q) →
    j = k ∧ q = fl (round2 (discountIn fl db cart subtotal))

/-! ## The terms that both read alike -/

/-- The percentage of the subtotal. -/
def share (c : Coupon) (subtotal : ℚ) : ℚ := subtotal * c.value / 100

/-- A percentage is rounded alike, and cut at a limit alike. -/
structure PercentAlike (c : Coupon) (subtotal : ℚ) : Prop where
  clear : Clear 9 (share c subtotal)
  limit : ∀ m ∈ c.maxDiscount, m ≠ 0 ∧ Whole m ∨ round2 (share c subtotal) ≤ m

/-- An amount is the same, without its limit and with the subtotal as a limit. -/
def FlatAlike (c : Coupon) (subtotal : ℚ) : Prop :=
  if c.value ≤ subtotal then
    Whole c.value ∧ (∀ m ∈ c.maxDiscount, c.value ≤ m) ∨
      ∃ m ∈ c.maxDiscount, m < c.value ∧ m = round2 (fl c.value)
  else c.maxDiscount = some subtotal

/-- The percentage that is quoted for free delivery is nothing. -/
def FreeAlike (c : Coupon) (subtotal : ℚ) : Prop :=
  Clear 9 (share c subtotal) ∧ round2 (share c subtotal) = 0 ∧ (∀ m ∈ c.maxDiscount, 0 ≤ m) ∨
    c.maxDiscount = some 0 ∧ 0 ≤ c.value

/-- The terms of the coupon come to the same in the quote and in the cart.  Of the other types the
quote takes a percentage, and the cart the amount. -/
def Alike (c : Coupon) (subtotal : ℚ) : Prop :=
  if c.couponType ∈ percentTypes then PercentAlike c subtotal
  else if c.couponType = "flat" then FlatAlike c subtotal
  else c.couponType = "free_delivery" ∧ FreeAlike c subtotal

/-- No two coupons have the same code, as the column is unique. -/
def UniqueCodes (db : Db) : Prop :=
  ∀ j k c d, db.coupons.get? j = some c → db.coupons.get? k = some d → c.code = d.code → j = k

/-- A new coupon has a code of its own. -/
theorem uniqueCodes_addCoupon {db : Db} {c : Coupon} {write : Db → Db}
    (hunique : UniqueCodes db) (h : addCoupon c db = .ok write) : UniqueCodes (write db) := by
  unfold addCoupon at h
  rw [raiseIf_bind_eq_ok, pure_eq_ok] at h
  obtain ⟨hfree, rfl⟩ := h
  have hother : ∀ j d, db.coupons.get? j = some d → d.code ≠ c.code := by
    intro j d hj hcode
    have hnone := Option.not_isSome_iff_eq_none.1 hfree
    have hnot := List.find?_eq_none.1 hnone (j, d) (Table.get?_eq_some.1 hj)
    simp [hcode] at hnot
  intro j k d e hj hk hcode
  rw [Table.get?_insert] at hj hk
  split_ifs at hj hk with hjn hkn hkn
  · omega
  · cases hj
    exact absurd hcode.symm (hother k e hk)
  · cases hk
    exact absurd hcode (hother j d hj)
  · exact hunique j k d e hj hk hcode

/-- So the codes stay apart, whoever creates a coupon. -/
theorem uniqueCodes_of_created {db : Db} {data : CouponIn} {write : Db → Db}
    (hunique : UniqueCodes db)
    (h : createCoupon data db = .ok write ∨ adminCreateCoupon data db = .ok write) :
    UniqueCodes (write db) := by
  rcases h with h | h
  · unfold createCoupon at h
    rw [raiseIf_bind_eq_ok] at h
    obtain ⟨-, h⟩ := h
    rw [raiseIf_bind_eq_ok] at h
    exact uniqueCodes_addCoupon hunique h.2
  · exact uniqueCodes_addCoupon hunique h

/-- Either the coupon gives nothing, and the quote finds no coupon that gives something; or its
code is spelled the way it is looked up, and its terms come to the same. -/
def Meets (db : Db) (c : Coupon) (subtotal : ℚ) : Prop :=
  if Refused c subtotal then ∀ r, getByCode db c.code = some r → Refused r.2 subtotal
  else Sell.couponCode c.code = c.code ∧ Alike c subtotal

section Quoting

variable {db : Db} {k j : ℕ} {c : Coupon} {cart : Cart} {code : String} {subtotal q : ℚ}

theorem validateCode_eq_ok (h0 : 0 ≤ subtotal) : validateCode db code subtotal = .ok (j, q) ↔
    ∃ c, getByCode db code = some (j, c) ∧ ¬ Refused c subtotal ∧
      quotedDiscount c subtotal = q := by
  have hmin : ∀ c : Coupon, ¬ (c.minOrderAmount ≠ 0 ∧ fl subtotal < fl c.minOrderAmount) ↔
      ¬ fl subtotal < fl c.minOrderAmount := by
    intro c
    refine not_congr ⟨fun h => h.2, fun h => ⟨fun hzero => ?_, h⟩⟩
    rw [hzero, fl_zero] at h
    exact absurd (fl_nonneg h0) (not_le.2 h)
  unfold validateCode
  rw [orRaise_bind_eq_ok]
  simp only [raiseIf_bind_eq_ok, pure_eq_ok, hmin, Option.filter_eq_some_iff, Prod.mk.injEq]
  constructor
  · rintro ⟨⟨i, c⟩, ⟨hfind, hactive⟩, hreached, rfl, rfl⟩
    refine ⟨c, hfind, ?_, rfl⟩
    rintro (hinactive | hbelow)
    · rw [hinactive] at hactive
      cases hactive
    · exact hreached hbelow
  · rintro ⟨c, hfind, hgives, rfl⟩
    refine ⟨(j, c), ⟨hfind, ?_⟩, fun h => hgives (Or.inr h), rfl, rfl⟩
    exact Bool.eq_true_of_not_eq_false fun h => hgives (Or.inl h)

/-- It refuses exactly when it does not quote. -/
theorem validateCode_error_iff : (∃ e, validateCode db code subtotal = .error e) ↔
    ∀ r, validateCode db code subtotal ≠ .ok r := by
  cases validateCode db code subtotal with
  | ok r => simp
  | error e => simp

/-- Looking for the code of a coupon finds the coupon, or nothing. -/
theorem first?_code (hunique : UniqueCodes db) (hc : db.coupons.get? k = some c)
    {p : Coupon → Bool} (hp : ∀ d, p d = true → d.code = c.code) :
    db.coupons.first? p = if p c = true then some (k, c) else none := by
  have hfound : ∀ r, db.coupons.first? p = some r → r = (k, c) := by
    intro r hr
    obtain ⟨hget, hr⟩ := Table.get?_of_first? hr
    have hkey := hunique r.1 k r.2 c hget hc (hp r.2 hr)
    rw [hkey, hc] at hget
    exact Prod.ext hkey (Option.some.inj hget).symm
  split_ifs with hpc
  · cases hfirst : db.coupons.first? p with
    | some r => rw [hfound r hfirst]
    | none => exact absurd hpc (List.find?_eq_none.1 hfirst (k, c) (Table.get?_eq_some.1 hc))
  · cases hfirst : db.coupons.first? p with
    | some r =>
      have hr := (Table.get?_of_first? hfirst).2
      rw [hfound r hfirst] at hr
      exact absurd hr hpc
    | none => rfl

theorem discountIn_eq (hunique : UniqueCodes db) (hc : db.coupons.get? k = some c)
    (hcart : Text.truthy cart.couponCode = some c.code) : discountIn fl db cart subtotal =
      if c.isActive = true then couponDiscountIn fl c subtotal else 0 := by
  have hfirst := first?_code hunique hc (p := fun d => d.code = c.code ∧ d.isActive = true)
    (by simp +contextual)
  unfold discountIn
  rw [hcart, Option.bind_some, hfirst]
  by_cases h : c.isActive = true <;> simp [h]

/-! ### A percentage -/

/-- The quote divides before it multiplies. -/
theorem within_quoted (c : Coupon) (subtotal : ℚ) :
    Within 9 (share c subtotal) (fl (fl subtotal * fl (fl c.value / 100))) := by
  have hvalue : Within 4 (c.value / 100) (fl (fl c.value / 100)) :=
    ((within_fl c.value).div_right 100).fl (by norm_num)
  have hmul := ((within_fl subtotal).mul hvalue (by norm_num)).fl (by norm_num)
  rwa [← mul_div_assoc] at hmul

/-- The cart multiplies first. -/
theorem within_charged (c : Coupon) (subtotal : ℚ) :
    Within 9 (share c subtotal) (fl (fl (fl subtotal * fl c.value) / 100)) := by
  have hmul := ((within_fl subtotal).mul (within_fl c.value) (by norm_num)).fl (by norm_num)
  exact (hmul.div_right 100).fl (by norm_num)

/-- Clear of a half of a paisa, the float of the rounded percentage is rounded to it. -/
theorem whole_share (h : Clear 9 (share c subtotal)) : Whole (round2 (share c subtotal)) := by
  have hround := abs_le.1 (abs_round2_sub_le (share c subtotal))
  have hle := h.abs_mul_le
  have hbound : |share c subtotal| ≤ 2 ^ 53 / 1800 := by
    push_cast at hle
    linarith
  refine whole_of_isCents (isCents_round2 _) (abs_lt.2 ?_)
  have hbound' := abs_le.1 hbound
  norm_num at hbound' hround ⊢
  constructor <;> linarith

theorem quoted_of_percentAlike (hmin : fl c.minOrderAmount ≤ fl subtotal)
    (hkind : c.couponType ∈ percentTypes) (h : PercentAlike c subtotal) :
    quotedDiscount c subtotal = fl (round2 (couponDiscountIn fl c subtotal)) := by
  have hflat : c.couponType ≠ "flat" := by
    intro hflat
    rw [hflat] at hkind
    exact absurd hkind (by decide)
  have hcharged := (within_charged c subtotal).round2_eq h.clear
  unfold quotedDiscount
  rw [if_neg hflat, (within_quoted c subtotal).round2_eq h.clear,
    couponDiscountIn_of_percent fl hmin hkind]
  cases hmax : c.maxDiscount with
  | none => exact congrArg fl hcharged.symm
  | some m =>
    have hlimit := h.limit m hmax
    by_cases hm : m = 0
    · -- no limit for the cart, and one that is not reached for the quote
      have hle : round2 (share c subtotal) ≤ m := hlimit.resolve_left fun h => h.1 hm
      rw [Option.filter_some, if_neg (by simpa using hm)]
      exact (min_eq_left (fl_mono hle)).trans (congrArg fl hcharged.symm)
    · rw [Option.filter_some, if_pos (by simpa using hm)]
      dsimp only
      rw [round2_min, hcharged, ← monotone_fl.map_min]
      rcases hlimit with ⟨-, hwhole⟩ | hle
      · rw [show round2 (fl m) = m from hwhole]
      · have hround := round2_mono (fl_mono hle)
        rw [whole_share h.clear] at hround
        rw [min_eq_left hle, min_eq_left hround]

/-! ### An amount, and free delivery -/

theorem quoted_of_flatAlike (hwhole : Whole subtotal) (hmin : fl c.minOrderAmount ≤ fl subtotal)
    (hkind : c.couponType = "flat") (h : FlatAlike c subtotal) :
    quotedDiscount c subtotal = fl (round2 (couponDiscountIn fl c subtotal)) := by
  have hother : c.couponType ∉ percentTypes := by
    rw [hkind]
    decide
  have hpaid : c.couponType ≠ "free_delivery" := by
    rw [hkind]
    decide
  unfold FlatAlike at h
  unfold quotedDiscount
  rw [if_pos hkind, couponDiscountIn_of_amount fl hmin hother hpaid, ← monotone_fl.map_min]
  split_ifs at h with hle
  · -- the whole amount is taken off
    rw [min_eq_left hle]
    rcases h with ⟨hvalue, hlimit⟩ | ⟨m, hmax, hlt, hm⟩
    · rw [show round2 (fl c.value) = c.value from hvalue]
      cases hmax : c.maxDiscount with
      | none => rfl
      | some m => exact min_eq_left (fl_mono (hlimit m hmax))
    · rw [show c.maxDiscount = some m from hmax, ← hm]
      exact min_eq_right (fl_mono hlt.le)
  · -- the cart takes off the subtotal
    rw [min_eq_right (not_le.1 hle).le, h, show round2 (fl subtotal) = subtotal from hwhole]
    exact min_eq_right (fl_mono (not_le.1 hle).le)

theorem quoted_of_freeAlike (h0 : 0 ≤ subtotal) (hmin : fl c.minOrderAmount ≤ fl subtotal)
    (hkind : c.couponType = "free_delivery") (h : FreeAlike c subtotal) :
    quotedDiscount c subtotal = fl (round2 (couponDiscountIn fl c subtotal)) := by
  have hflat : c.couponType ≠ "flat" := by
    rw [hkind]
    decide
  unfold quotedDiscount
  rw [if_neg hflat, couponDiscountIn_of_free fl hmin hkind, round2_zero, fl_zero]
  rcases h with ⟨hclear, hzero, hlimit⟩ | ⟨hmax, hvalue⟩
  · rw [(within_quoted c subtotal).round2_eq hclear, hzero, fl_zero]
    cases hmax : c.maxDiscount with
    | none => rfl
    | some m =>
      have hle := fl_nonneg (hlimit m hmax)
      exact min_eq_left hle
  · have hpercent : 0 ≤ fl (round2 (fl (fl subtotal * fl (fl c.value / 100)))) := by
      have hdiv : 0 ≤ fl c.value / 100 := div_nonneg (fl_nonneg hvalue) (by norm_num)
      exact fl_nonneg (round2_nonneg (fl_nonneg (mul_nonneg (fl_nonneg h0) (fl_nonneg hdiv))))
    rw [hmax]
    dsimp only
    rw [fl_zero]
    exact min_eq_right hpercent

/-- The quote rounds to what is charged on these terms. -/
theorem quoted_of_alike (h0 : 0 ≤ subtotal) (hwhole : Whole subtotal)
    (hmin : fl c.minOrderAmount ≤ fl subtotal) (h : Alike c subtotal) :
    quotedDiscount c subtotal = fl (round2 (couponDiscountIn fl c subtotal)) := by
  unfold Alike at h
  split_ifs at h with hpercent hflat
  · exact quoted_of_percentAlike hmin hpercent h
  · exact quoted_of_flatAlike hwhole hmin hflat h
  · exact quoted_of_freeAlike h0 hmin h.1 h.2

end Quoting

/-- The quote for a coupon is what a cart with the coupon on it is charged less, where the coupon
meets the condition. -/
theorem quotedAsCharged_of_meets {db : Db} {k : ℕ} {c : Coupon} {cart : Cart} {subtotal : ℚ}
    (hunique : UniqueCodes db) (hk : db.coupons.get? k = some c)
    (hcart : Text.truthy cart.couponCode = some c.code) (h0 : 0 ≤ subtotal)
    (hwhole : Whole subtotal) (h : Meets db c subtotal) :
    QuotedAsCharged db k c cart subtotal := by
  have hcharged : discountIn fl db cart subtotal =
      if c.isActive = true then couponDiscountIn fl c subtotal else 0 :=
    discountIn_eq hunique hk hcart
  unfold Meets at h
  split_ifs at h with hrefused
  · have hnone : ∀ r, validateCode db c.code subtotal ≠ .ok r := by
      rintro ⟨j, q⟩ hok
      obtain ⟨d, hd, hgives, -⟩ := (validateCode_eq_ok h0).1 hok
      exact hgives (h _ hd)
    refine ⟨iff_of_true (validateCode_error_iff.2 hnone) hrefused, fun _ => ?_,
      fun j q hok => absurd hok (hnone _)⟩
    rw [hcharged]
    split_ifs with hactive
    · exact couponDiscountIn_of_small fl (hrefused.resolve_left (by simp [hactive]))
    · rfl
  · obtain ⟨hactive, hmin⟩ := not_or.1 hrefused
    obtain ⟨hspelled, halike⟩ := h
    rw [if_pos (Bool.eq_true_of_not_eq_false hactive)] at hcharged
    have hfind : getByCode db c.code = some (k, c) := by
      have hfirst := first?_code hunique hk (p := fun d => d.code = Sell.couponCode c.code)
        (by simp [hspelled])
      simpa [getByCode, hspelled] using hfirst
    have hok : validateCode db c.code subtotal = .ok (k, quotedDiscount c subtotal) :=
      (validateCode_eq_ok h0).2 ⟨c, hfind, hrefused, rfl⟩
    refine ⟨iff_of_false ?_ hrefused, fun h => absurd h hrefused, fun j q hq => ?_⟩
    · rw [validateCode_error_iff]
      exact fun h => h _ hok
    · rw [hok] at hq
      cases hq
      rw [hcharged]
      exact ⟨rfl, quoted_of_alike h0 hwhole (not_lt.1 hmin) halike⟩

/-- A flat coupon of ₹50, as the platform creates it. -/
def fiftyOff : CouponIn := { code := "fifty", couponType := "flat", value := 50 }

/-- A tenth, up to ₹20. -/
def tenthOff : CouponIn := { code := "tenth", value := 10, maxDiscount := some 20 }

/-- The database with a coupon. -/
def offering (data : CouponIn) : Db :=
  match createCoupon data Db.empty with
  | .ok write => write Db.empty
  | .error _ => Db.empty

def fiftyCart : Cart := { userId := 1, couponCode := some "FIFTY" }

def tenthCart : Cart := { userId := 1, couponCode := some "TENTH" }

/-- For ₹30 the quote says ₹50, and the cart is charged ₹30 less. -/
theorem fifty_of_thirty :
    (validateCode (offering fiftyOff) "FIFTY" 30).toOption.map Prod.snd = some 50 ∧
      discountIn fl (offering fiftyOff) fiftyCart 30 = 30 ∧
      ¬ QuotedAsCharged (offering fiftyOff) 1 (couponRow "FIFTY" "flat" fiftyOff) fiftyCart 30 := by
  have hquote : (validateCode (offering fiftyOff) "FIFTY" 30).toOption = some (1, 50) := by
    decide +kernel
  have hcharge : discountIn fl (offering fiftyOff) fiftyCart 30 = 30 := by decide +kernel
  refine ⟨by rw [hquote]; rfl, hcharge, fun h => ?_⟩
  cases hok : validateCode (offering fiftyOff) "FIFTY" 30 with
  | error e =>
    rw [hok] at hquote
    cases hquote
  | ok r =>
    rw [hok] at hquote
    cases hquote
    have hsame := (h.quoted 1 50 hok).2
    rw [hcharge] at hsame
    exact absurd hsame (by decide +kernel)

/-- For ₹150 both take ₹15 off. -/
theorem tenth_of_hundredFifty :
    QuotedAsCharged (offering tenthOff) 1 (couponRow "TENTH" "percentage" tenthOff) tenthCart
      150 := by
  have hrow : ∀ j c, (offering tenthOff).coupons.get? j = some c → j = 1 := by
    intro j c hj
    have hrows : ∀ r ∈ (offering tenthOff).coupons.rows, r.1 = 1 := by decide
    exact hrows (j, c) (Table.get?_eq_some.1 hj)
  have hunique : UniqueCodes (offering tenthOff) := fun j k c d hj hk _ =>
    (hrow j c hj).trans (hrow k d hk).symm
  have hgives : ¬ Refused (couponRow "TENTH" "percentage" tenthOff) 150 := by decide +kernel
  have hshare : share (couponRow "TENTH" "percentage" tenthOff) 150 = 15 := by decide +kernel
  refine quotedAsCharged_of_meets hunique (by decide) (by decide) (by norm_num)
    (by decide +kernel) ?_
  unfold Meets
  rw [if_neg hgives]
  refine ⟨by decide, ?_⟩
  unfold Alike
  rw [if_pos (by decide)]
  refine ⟨?_, fun m hm => ?_⟩
  · rw [hshare]
    exact clear_of_isCents ⟨1500, by norm_num⟩ (by norm_num)
  · obtain rfl : m = 20 := (Option.some.inj hm).symm
    exact .inl ⟨by norm_num, by decide +kernel⟩

/-- A tenth of ₹150.55 is a half of a paisa: ₹15.06 is quoted, and ₹15.05 charged. -/
example : (validateCode (offering tenthOff) "TENTH" (3011 / 20)).toOption.map Prod.snd =
      some (fl (753 / 50)) ∧
    round2 (discountIn fl (offering tenthOff) tenthCart (3011 / 20)) = 301 / 20 := by
  decide +kernel

end Quotes

end SweetCrust
