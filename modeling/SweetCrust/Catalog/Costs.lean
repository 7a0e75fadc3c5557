import SweetCrust.Catalog.Store

/-!
# What a piece in stock has cost

Goods that come in change the purchase cost of a product to the average over all its pieces, each
lot weighed with its number.  A stock that was set below nothing has a negative weight in it.

* `Deed` — the acts of the store, and a supplier who changes its offer.
* `Averaged` — the new cost lies between the two that go into it, and all the goods are worth what
  they were, but for the rounding.
* `Sound` — a stock and costs for which this comes out.
* `averaged_of_sound` — the average, through the float operations.
* `averagesRight_of_sound` — in a run, goods that are sound are averaged right.
-/

namespace SweetCrust

open Tabular Guard Rounding Interleave Runs Catalog Binary64

namespace Costs

/-! ## The offer of a supplier -/

def offered (availableQty : Option ℤ) (purchaseCost : Option ℚ) (p : Product) : Product :=
  { p with
    supplierAvailableQty := availableQty.getD p.supplierAvailableQty
    purchaseCost := purchaseCost.or p.purchaseCost }

/-- `patch_my_product` of a supplier. -/
def patchOffer (userId productId : ℕ) (availableQty : Option ℤ) (purchaseCost : Option ℚ)
    (db : Db) : Plan := do
  let r ← orRaise (profileOf db userId) (.notFound "Shop profile not found")
  raiseIf (r.2.isWholesaler = false) (.forbidden "Shop is not marked as supplier/wholesaler")
  let _ ← orRaise ((db.products.get? productId).filter fun p => p.supplierUserId = some userId)
    (.notFound "Product not found")
  raiseIf (∃ q ∈ availableQty, q < 0) (.badRequest "supplier_available_qty must be >= 0")
  raiseIf (∃ c ∈ purchaseCost, c < 0) (.badRequest "purchase_cost must be >= 0")
  return fun db =>
    { db with products := db.products.modify productId (offered availableQty purchaseCost) }

/-! ## The store and its suppliers -/

inductive Deed
  | act (a : Act)
  | offer (userId productId : ℕ) (availableQty : Option ℤ) (purchaseCost : Option ℚ)

variable (env : Payment.Env)

def step (db : Db) : Deed → Db
  | .act a => act env db a
  | .offer u y availableQty purchaseCost =>
    call (fun _ : Unit => patchOffer u y availableQty purchaseCost) db ()

/-- The purchase order whose goods come in with a request that is served. -/
def goodsOf (db : Db) : Purchase.Request → Option SupplierPurchase
  | .create v y qty unitCost note createdBy markPaid _ instantReceive =>
    if instantReceive || markPaid then
      (db.products.get? y).map fun p =>
        Purchase.newPurchase v y p qty unitCost note createdBy
    else none
  | .accept id _ => db.purchases.get? id
  | _ => none

/-- The purchase order whose goods come in. -/
def received (db : Db) : Deed → Option SupplierPurchase
  | .act (.purchase r) =>
    match Purchase.plan env r db with
    | .ok _ => goodsOf db r
    | .error _ => none
  | _ => none

/-! ## The average -/

/-- What a piece has cost, or nothing if that is not known. -/
def cost (p : Product) : ℚ := p.purchaseCost.getD 0

/-- The new cost of a piece is between the old one and that of the goods, and the stock is worth
what it was and the goods cost, to within a half of a paisa for each piece. -/
structure Averaged (p q : Product) (qty : ℤ) (unitCost : ℚ) : Prop where
  between : min (cost p) unitCost ≤ cost q ∧ cost q ≤ max (cost p) unitCost
  value : |cost q * q.stockQty - (cost p * p.stockQty + unitCost * qty)| ≤
    max 0 (q.stockQty : ℚ) / 200

/-- What is worked into the average is what a purchase order brings in. -/
def AveragesRight (db : Db) (d : Deed) : Prop :=
  ∀ purchase ∈ received env db d, 0 < purchase.qty → 0 ≤ purchase.unitCost →
    ∀ p q, db.products.get? purchase.productId = some p →
      (step env db d).products.get? purchase.productId = some q →
      Averaged p q purchase.qty purchase.unitCost

/-- What the pieces in stock and those that come in have cost. -/
def worth (p : Product) (qty : ℤ) (unitCost : ℚ) : ℚ := cost p * p.stockQty + unitCost * qty

/-- There is no stock below nothing, and amounts are whole paise and not large; or, where there is
nothing to average over, both costs are one. -/
def Sound (p : Product) (qty : ℤ) (unitCost : ℚ) : Prop :=
  if 0 < p.stockQty + qty then
    (0 ≤ p.stockQty ∧ p.stockQty + qty < 2 ^ 53) ∧
      ((0 ≤ cost p ∧ IsCents (cost p)) ∧ IsCents unitCost) ∧ worth p qty unitCost ≤ 2 ^ 42
  else unitCost = cost p

/-- The goods that come in are sound. -/
def SoundReceipt (db : Db) (d : Deed) : Prop :=
  ∀ purchase ∈ received env db d, 0 < purchase.qty → 0 ≤ purchase.unitCost →
    ∀ p, db.products.get? purchase.productId = some p →
      Sound p purchase.qty purchase.unitCost

/-! ## One receipt -/

section Receipt

variable {p : Product} {qty : ℤ} {unitCost : ℚ}

/-- The average is computed up to a few units of the last digit. -/
theorem within_average (hold : 0 ≤ p.stockQty) (hqty : 0 < qty)
    (hsmall : p.stockQty + qty < 2 ^ 53) (hcost : 0 ≤ cost p) (hunit : 0 ≤ unitCost) :
    Within 8 (worth p qty unitCost / (p.stockQty + qty : ℤ))
      (fl (fl (fl (fl (cost p) * fl p.stockQty) + fl (fl unitCost * fl qty)) /
        fl (p.stockQty + qty : ℤ))) := by
  have hexact {n : ℤ} (h0 : 0 ≤ n) (hn : n < 2 ^ 53) : fl (n : ℚ) = n :=
    fl_intCast (abs_lt.2 ⟨by omega, hn⟩)
  have hold' : (0 : ℚ) ≤ p.stockQty := by exact_mod_cast hold
  have hqty' : (0 : ℚ) ≤ qty := by exact_mod_cast hqty.le
  rw [hexact hold (by omega), hexact hqty.le (by omega),
    hexact (by omega : 0 ≤ p.stockQty + qty) hsmall]
  have hfirst := ((within_fl (cost p)).mul_right p.stockQty).fl (by norm_num)
  have hsecond := ((within_fl unitCost).mul_right qty).fl (by norm_num)
  have hsum := (hfirst.add hsecond (mul_nonneg hcost hold') (mul_nonneg hunit hqty')).fl
    (by norm_num)
  exact (hsum.div_right (p.stockQty + qty : ℤ)).fl (by norm_num)

/-- The average lies between the two costs. -/
theorem average_between (hold : 0 ≤ p.stockQty) (hqty : 0 < qty) :
    min (cost p) unitCost ≤ worth p qty unitCost / (p.stockQty + qty : ℤ) ∧
      worth p qty unitCost / (p.stockQty + qty : ℤ) ≤ max (cost p) unitCost := by
  have hold' : (0 : ℚ) ≤ p.stockQty := by exact_mod_cast hold
  have hqty' : (0 : ℚ) < qty := by exact_mod_cast hqty
  have hlow := mul_le_mul_of_nonneg_right (min_le_left (cost p) unitCost) hold'
  have hlow' := mul_le_mul_of_nonneg_right (min_le_right (cost p) unitCost) hqty'.le
  have hhigh := mul_le_mul_of_nonneg_right (le_max_left (cost p) unitCost) hold'
  have hhigh' := mul_le_mul_of_nonneg_right (le_max_right (cost p) unitCost) hqty'.le
  unfold worth
  push_cast
  rw [le_div_iff₀ (by linarith), div_le_iff₀ (by linarith)]
  constructor <;> linarith

/-- A number near to an average is rounded to one between the costs. -/
theorem round2_between {a x y e : ℚ} (ha : IsCents a) (hnear : |y - x| ≤ e) (he : e < 1 / 200) :
    (a ≤ x → a ≤ round2 y) ∧ (x ≤ a → round2 y ≤ a) := by
  have hround := abs_le.1 (abs_round2_sub_le y)
  have hy := abs_le.1 hnear
  constructor
  · intro hle
    exact ha.le_of_lt_add (isCents_round2 y) (by linarith)
  · intro hle
    exact (isCents_round2 y).le_of_lt_add ha (by linarith)

/-- Goods that come in are averaged right if they are sound. -/
theorem averaged_of_sound (hqty : 0 < qty) (hunit : 0 ≤ unitCost) (h : Sound p qty unitCost) :
    Averaged p ((Purchase.stockAfterReceipt p qty unitCost).apply p) qty unitCost := by
  have hcost : cost ((Purchase.stockAfterReceipt p qty unitCost).apply p) =
      if 0 < p.stockQty + qty then
        round2 (fl (fl (fl (fl (cost p) * fl p.stockQty) + fl (fl unitCost * fl qty)) /
          fl (p.stockQty + qty : ℤ)))
      else unitCost := rfl
  have hstock : ((Purchase.stockAfterReceipt p qty unitCost).apply p).stockQty =
      p.stockQty + qty := rfl
  unfold Sound at h
  split_ifs at h with hn
  · obtain ⟨⟨hold, hsmall⟩, ⟨⟨hcost0, hcents⟩, hunitCents⟩, hworth⟩ := h
    have hnear := within_average hold hqty hsmall hcost0 hunit
    obtain ⟨hlow, hhigh⟩ : min (cost p) unitCost ≤ worth p qty unitCost / (p.stockQty + qty : ℤ) ∧
        worth p qty unitCost / (p.stockQty + qty : ℤ) ≤ max (cost p) unitCost :=
      average_between hold hqty
    rw [if_pos hn] at hcost
    have hpos : (0 : ℚ) < (p.stockQty + qty : ℤ) := by exact_mod_cast hn
    set average := worth p qty unitCost / (p.stockQty + qty : ℤ) with haverage
    have haverage0 : 0 ≤ average := (le_min hcost0 hunit).trans hlow
    have hall : average * (p.stockQty + qty : ℤ) = worth p qty unitCost :=
      div_mul_cancel₀ _ hpos.ne'
    have hone : (1 : ℚ) ≤ (p.stockQty + qty : ℤ) := by exact_mod_cast hn
    have hsmallAverage : average ≤ 2 ^ 42 := by nlinarith
    have herror := hnear.abs_sub_le (abs_of_nonneg haverage0).le
    have he : (8 : ℕ) * average / 2 ^ 53 < 1 / 200 := by
      rw [div_lt_iff₀ (by norm_num)]
      push_cast
      linarith
    refine ⟨?_, ?_⟩
    · rw [hcost]
      exact ⟨(round2_between (hcents.min hunitCents) herror he).1 hlow,
        (round2_between (hcents.max hunitCents) herror he).2 hhigh⟩
    · -- the rounding of the average is the only loss, once for each piece
      have hround : |round2 (fl (fl (fl (fl (cost p) * fl p.stockQty) + fl (fl unitCost * fl qty)) /
          fl (p.stockQty + qty : ℤ))) - average| ≤ 1 / 200 := by
        refine abs_round2_sub_le_of_near herror fun b hb => ?_
        obtain ⟨n, hn'⟩ := Int.eq_ofNat_of_zero_le hn.le
        have hcast : ((p.stockQty + qty : ℤ) : ℚ) = n := by
          rw [hn']
          rfl
        have hworthCents : IsCents (worth p qty unitCost) :=
          (hcents.mul_int _).add (hunitCents.mul_int _)
        have hhalf := half_or_far hworthCents (n := n) (by omega) hb
        rw [← hcast] at hhalf
        refine hhalf.imp id fun hfar => lt_of_lt_of_le ?_ hfar
        rw [div_lt_div_iff₀ (by norm_num) (by positivity)]
        push_cast at hall hworth ⊢
        nlinarith
      rw [hcost, hstock, max_eq_right hpos.le]
      change |_ - worth p qty unitCost| ≤ _
      rw [← hall, ← sub_mul, abs_mul, abs_of_pos hpos]
      calc _ ≤ 1 / 200 * ((p.stockQty + qty : ℤ) : ℚ) :=
            mul_le_mul_of_nonneg_right hround hpos.le
        _ = ((p.stockQty + qty : ℤ) : ℚ) / 200 := by ring
  · rw [if_neg hn] at hcost
    have hnonpos : ((p.stockQty + qty : ℤ) : ℚ) ≤ 0 := by exact_mod_cast not_lt.1 hn
    refine ⟨?_, ?_⟩
    · rw [hcost]
      exact ⟨min_le_right _ _, le_max_right _ _⟩
    · rw [hcost, hstock, max_eq_left hnonpos, h]
      push_cast
      rw [mul_add, sub_self, abs_zero, zero_div]

end Receipt

/-! ## Runs of the store -/

section Run

variable {env} {db : Db} {d : Deed} {r : Purchase.Request} {write : Db → Db}
  {purchase : SupplierPurchase} {p : Product}

/-- A request that is served works its goods into the average of their product. -/
theorem stocked_of_plan (hplan : Purchase.plan env r db = .ok write)
    (h : goodsOf db r = some purchase) (hp : db.products.get? purchase.productId = some p) :
    (write db).products.get? purchase.productId =
      some ((Purchase.stockAfterReceipt p purchase.qty purchase.unitCost).apply p) := by
  cases r with
  | create v y qty unitCost note createdBy markPaid payMethod instantReceive =>
    obtain ⟨_, _, i, profile, product, _, _, hproduct, rfl⟩ :=
      Purchase.createPurchase_eq_ok.1 hplan
    simp only [goodsOf] at h
    split_ifs at h with hnow
    rw [hproduct, Option.map_some, Option.some.injEq] at h
    subst h
    obtain rfl : product = p := Option.some.inj (hproduct.symm.trans hp)
    rw [if_pos hnow, Purchase.receiveGoods_products]
    exact (Table.get?_modify_self _ _ _).trans (congrArg _ hproduct)
  | accept id v =>
    obtain ⟨o, ho, _, _, i, profile, product, _, hproduct, rfl⟩ :=
      Purchase.acceptPurchase_eq_ok.1 hplan
    obtain rfl : o = purchase := Option.some.inj (ho.symm.trans h)
    obtain rfl : product = p := Option.some.inj (hproduct.symm.trans hp)
    rw [Purchase.receiveGoods_products]
    exact (Table.get?_modify_self _ _ _).trans (congrArg _ hproduct)
  | reject => cases h
  | pay => cases h
  | createPay => cases h
  | verify => cases h

theorem stocked_of_received (h : received env db d = some purchase)
    (hp : db.products.get? purchase.productId = some p) :
    (step env db d).products.get? purchase.productId =
      some ((Purchase.stockAfterReceipt p purchase.qty purchase.unitCost).apply p) := by
  cases d with
  | offer => cases h
  | act a =>
    cases a with
    | shopping => cases h
    | product => cases h
    | purchase r =>
      simp only [received] at h
      split at h
      · rename_i write hplan
        rw [show step env db (.act (.purchase r)) = write db from call_of_ok hplan]
        exact stocked_of_plan hplan h hp
      · cases h

/-- What a deed brings in is averaged right if it is sound. -/
theorem averagesRight_deed (h : SoundReceipt env db d) : AveragesRight env db d := by
  intro purchase hin hqty hunit p q hp hq
  rw [stocked_of_received hin hp] at hq
  cases hq
  exact averaged_of_sound hqty hunit (h purchase hin hqty hunit p hp)

/-- In a run from any state, what comes in is averaged right if it is sound. -/
theorem averagesRight_of_sound {ds : List Deed} (h : Stepwise (step env) (SoundReceipt env) db ds) :
    Stepwise (step env) (AveragesRight env) db ds :=
  fun pre d hpre => averagesRight_deed (h pre d hpre)

end Run

/-! ## A stock that was set below nothing -/

/-- A wholesaler, user 1, and a product of which 5 pieces have cost ₹1 each. -/
def cheapDb : Db :=
  { Db.empty with
    users := .ofList [{ (default : User) with role := .retailer }]
    profiles := .ofList [{ (default : RetailerProfile) with userId := 1, isWholesaler := true }]
    products := .ofList [{ (default : Product) with stockQty := 5, purchaseCost := some 1 }] }

/-- Ten pieces at ₹10, received at once. -/
def tenAtTen : Deed := .act (.purchase (.create 1 1 10 10 none none false none true))

/-- Five pieces at ₹1 and ten at ₹10 make fifteen at ₹7. -/
theorem tenAtTen_averaged :
    Stepwise (step Payment.plainEnv) (AveragesRight Payment.plainEnv) cheapDb [tenAtTen] := by
  refine averagesRight_of_sound (stepwise_cons.2 ⟨?_, stepwise_nil _ _⟩)
  have hin : (received Payment.plainEnv cheapDb tenAtTen).all (fun o => decide
      (o.qty = 10 ∧ o.productId = 1 ∧ o.unitCost = 10)) = true := by
    decide +kernel
  have hproduct : (cheapDb.products.get? 1).all
      (fun p => decide (p.stockQty = 5 ∧ cost p = 1)) = true := by
    decide +kernel
  intro o ho _ _ p hp
  obtain ⟨hqty, hproductId, hunit⟩ := of_decide_eq_true ((Option.all_eq_true _ _).1 hin o ho)
  rw [hproductId] at hp
  obtain ⟨hstock, hcost⟩ := of_decide_eq_true ((Option.all_eq_true _ _).1 hproduct p hp)
  unfold Sound worth
  rw [hqty, hunit, hstock, hcost, if_pos (by norm_num)]
  refine ⟨⟨by norm_num, by norm_num⟩, ⟨⟨by norm_num, 100, by norm_num⟩, 1000, by norm_num⟩, ?_⟩
  norm_num

/-- The admin sets the stock to −9. -/
def setBelow : Deed := .act (.product (.stock 1 (-9) "correction" none none))

/-- Nine pieces fewer than none at ₹1, and ten at ₹10, make one piece of ₹91. -/
theorem setBelow_misvalued :
    ¬ Stepwise (step Payment.plainEnv) (AveragesRight Payment.plainEnv) cheapDb
      [setBelow, tenAtTen] := by
  intro h
  rw [stepwise_cons, stepwise_cons] at h
  have hin : (received Payment.plainEnv (step Payment.plainEnv cheapDb setBelow) tenAtTen).any
      (fun o => decide
        (0 < o.qty ∧ 0 ≤ o.unitCost ∧ o.productId = 1 ∧ o.unitCost = 10)) = true := by
    decide +kernel
  have hbefore : ((step Payment.plainEnv cheapDb setBelow).products.get? 1).any
      (fun p => decide (cost p = 1)) = true := by
    decide +kernel
  have hafter : ((step Payment.plainEnv (step Payment.plainEnv cheapDb setBelow)
      tenAtTen).products.get? 1).any (fun p => decide (cost p = 91)) = true := by
    decide +kernel
  obtain ⟨o, ho, hcase⟩ := (Option.any_eq_true _ _).1 hin
  obtain ⟨p, hp, hcost⟩ := (Option.any_eq_true _ _).1 hbefore
  obtain ⟨q, hq, hcost'⟩ := (Option.any_eq_true _ _).1 hafter
  obtain ⟨hqty, hnn, hproduct, hunit⟩ := of_decide_eq_true hcase
  have hright := (h.2.1 o ho hqty hnn p q (hproduct ▸ hp) (hproduct ▸ hq)).between.2
  rw [of_decide_eq_true hcost, of_decide_eq_true hcost', hunit] at hright
  norm_num at hright

end Costs

end SweetCrust
