import SweetCrust.Data.Rows
import SweetCrust.Lib.Binary64
import SweetCrust.Lib.Runs
import SweetCrust.Lib.Session

/-!
# Is the displayed rating the average?

A product shows the mean of its reviews, in hundredths.  A new review is worked into the *shown*
mean, so that the error of its rounding is weighed with the number of the reviews and carried on.

* `addProductReview` — the request, in floats.
* `Displays` — what a product is to show.
* `within_reviewed` — the float operations hardly matter.
* `Settles` — an addition to a mean that is shown exactly, or one that makes it so.
* `displays_of_settles` — a product shows its mean throughout a run of such additions.
-/

namespace SweetCrust

open Tabular Session Rounding Runs Binary64

namespace Ratings

/-! ## The request -/

/-- What a customer says of a product. -/
structure Request where
  userId : ℕ
  productId : ℕ
  rating : ℤ
  comment : Option String
  orderId : Option ℕ

def Request.review (r : Request) : ProductReview where
  productId := r.productId
  userId := r.userId
  orderId := r.orderId
  rating := r.rating
  comment := r.comment

/-- A product with a review worked into its rating. -/
def reviewed (rating : ℤ) (p : Product) : Product :=
  let total := fl (fl (fl p.rating * fl p.reviewCount) + fl rating)
  { p with
    reviewCount := p.reviewCount + 1
    rating := round2 (fl (total / fl (p.reviewCount + 1 : ℤ))) }

/-- The database with a review. -/
def withReview (r : Request) (db : Db) : Db :=
  { db with
    reviews := db.reviews.insert r.review
    products := db.products.modify r.productId (reviewed r.rating) }

/-- `add_product_review`. -/
def addProductReview (r : Request) : Sess AppError Db ProductReview := do
  raiseIf (r.rating < 1 ∨ 5 < r.rating) (.badRequest "rating must be 1-5")
  let db ← get
  let product ← orRaise (db.products.get? r.productId) (.notFound "Product not found")
  raiseIf (product.reviewCount + 1 = 0) (.uncaught "ZeroDivisionError")
  modify (withReview r)
  commit
  return r.review

/-- One request. -/
def step (db : Db) (r : Request) : Db := final (addProductReview r) db

/-! ## What a product shows -/

/-- The ratings of a product, in the order in which they came. -/
def ratingsOf (db : Db) (i : ℕ) : List ℤ :=
  (db.reviews.rows.filter fun r => r.2.productId = i).map fun r => r.2.rating

/-- The exact mean. -/
def mean (l : List ℤ) : ℚ := l.sum / l.length

/-- The product shows how many reviews it has, and their mean to within a half of a hundredth. -/
def Displays (i : ℕ) (db : Db) : Prop :=
  ∀ p, db.products.get? i = some p →
    p.reviewCount = (ratingsOf db i).length ∧
      (ratingsOf db i ≠ [] → |p.rating - mean (ratingsOf db i)| ≤ 1 / 200)

/-- The ratings before the new one have a whole number of hundredths as their mean, or those with
it have. -/
def Settles (i : ℕ) (db : Db) (r : Request) : Prop :=
  r.productId = i → 1 ≤ r.rating → r.rating ≤ 5 →
    (IsCents (mean (ratingsOf db i)) ∨ IsCents (mean (ratingsOf db i ++ [r.rating]))) ∧
      (ratingsOf db i).length + 1 < 2 ^ 32

/-! ## One review -/

section Steps

variable {db : Db} {r : Request} {i : ℕ} {p : Product}

theorem step_of_accepted (hlow : 1 ≤ r.rating) (hhigh : r.rating ≤ 5)
    (hp : db.products.get? r.productId = some p) (hcount : p.reviewCount + 1 ≠ 0) :
    step db r = withReview r db := by
  have hrange : ¬ (r.rating < 1 ∨ 5 < r.rating) := by omega
  have hreturns : Returns (addProductReview r) db r.review (withReview r db) := by
    unfold addProductReview
    refine Returns.raiseIf_bind hrange (Returns.get_bind (Returns.orRaise_bind hp ?_))
    exact Returns.raiseIf_bind hcount (Returns.modify_commit (returns_pure _ _))
  exact hreturns.final

/-- A request is refused, or its review is worked in. -/
theorem step_cases (db : Db) (r : Request) :
    step db r = db ∨ ∃ p, 1 ≤ r.rating ∧ r.rating ≤ 5 ∧
      db.products.get? r.productId = some p ∧ step db r = withReview r db := by
  have hrefused : ∀ {t}, Raises (addProductReview r) db t → step db r = t := fun h => h.final
  unfold addProductReview at hrefused
  by_cases hrange : r.rating < 1 ∨ 5 < r.rating
  · exact Or.inl (hrefused (raises_raiseIf_bind hrange _ _ db))
  cases hp : db.products.get? r.productId with
  | none =>
    left
    exact hrefused (Raises.raiseIf_bind hrange (Raises.get_bind (raises_orRaise_bind hp _ _ db)))
  | some p =>
    by_cases hcount : p.reviewCount + 1 = 0
    · left
      refine hrefused (Raises.raiseIf_bind hrange (Raises.get_bind (Raises.orRaise_bind hp ?_)))
      exact raises_raiseIf_bind hcount _ _ db
    · have hlow : 1 ≤ r.rating := by omega
      have hhigh : r.rating ≤ 5 := by omega
      exact Or.inr ⟨p, hlow, hhigh, rfl, step_of_accepted hlow hhigh hp hcount⟩

theorem ratingsOf_withReview :
    ratingsOf (withReview r db) i =
      if r.productId = i then ratingsOf db i ++ [r.rating] else ratingsOf db i := by
  unfold ratingsOf withReview
  rw [Table.rows_insert, List.filter_append, List.map_append]
  by_cases h : r.productId = i <;> simp [Request.review, h]

theorem get?_withReview (h : r.productId = i) :
    (withReview r db).products.get? i = (db.products.get? i).map (reviewed r.rating) := by
  subst h
  exact Table.get?_modify_self _ _ _

theorem get?_withReview_of_ne (h : r.productId ≠ i) :
    (withReview r db).products.get? i = db.products.get? i :=
  Table.get?_modify_of_ne _ _ (Ne.symm h)

/-- What holds of a product however its reviews come: it knows how many there are, and what it
shows is rounded. -/
structure Kept (i : ℕ) (db : Db) : Prop where
  count : ∀ p, db.products.get? i = some p → p.reviewCount = (ratingsOf db i).length
  rounded : ∀ p, db.products.get? i = some p → ratingsOf db i ≠ [] → IsCents p.rating
  range : ∀ x ∈ ratingsOf db i, 1 ≤ x ∧ x ≤ 5

theorem kept_step (h : Kept i db) (r : Request) : Kept i (step db r) := by
  rcases step_cases db r with hsame | ⟨p, hlow, hhigh, -, hstep⟩
  · rw [hsame]
    exact h
  rw [hstep]
  by_cases hi : r.productId = i
  · have hratings : ratingsOf (withReview r db) i = ratingsOf db i ++ [r.rating] := by
      rw [ratingsOf_withReview, if_pos hi]
    refine ⟨fun q hq => ?_, fun q hq _ => ?_, ?_⟩
    · rw [get?_withReview hi] at hq
      obtain ⟨p, hp, rfl⟩ := Option.map_eq_some_iff.1 hq
      rw [hratings, List.length_append, Nat.cast_add, ← h.count p hp]
      rfl
    · rw [get?_withReview hi] at hq
      obtain ⟨p, -, rfl⟩ := Option.map_eq_some_iff.1 hq
      exact isCents_round2 _
    · rw [hratings]
      intro x hx
      rcases List.mem_append.1 hx with hx | hx
      · exact h.range x hx
      · obtain rfl := List.mem_singleton.1 hx
        exact ⟨hlow, hhigh⟩
  · have hratings : ratingsOf (withReview r db) i = ratingsOf db i := by
      rw [ratingsOf_withReview, if_neg hi]
    constructor <;> rw [hratings]
    · rw [get?_withReview_of_ne hi]
      exact h.count
    · rw [get?_withReview_of_ne hi]
      exact h.rounded
    · exact h.range

end Steps

/-! ### What is worked in -/

section Means

variable {l : List ℤ} {rating n : ℤ} {x : ℚ} {p : Product}

theorem isCents_intCast (n : ℤ) : IsCents n := ⟨n * 100, by push_cast; ring⟩

theorem sum_range (h : ∀ y ∈ l, 1 ≤ y ∧ y ≤ 5) : l.length ≤ l.sum ∧ l.sum ≤ 5 * l.length := by
  induction l with
  | nil => simp
  | cons y l ih =>
    obtain ⟨hlow, hhigh⟩ := ih fun z hz => h z (List.mem_cons_of_mem y hz)
    have hy := h y (List.mem_cons_self ..)
    simp only [List.sum_cons, List.length_cons]
    push_cast
    omega

/-- The mean of some ratings is one to five stars. -/
theorem mean_range (h : ∀ y ∈ l, 1 ≤ y ∧ y ≤ 5) (hne : l ≠ []) : 1 ≤ mean l ∧ mean l ≤ 5 := by
  obtain ⟨hlow, hhigh⟩ := sum_range h
  have hpos : (0 : ℚ) < l.length := by exact_mod_cast List.length_pos_iff.2 hne
  have hlow' : (l.length : ℚ) ≤ l.sum := by exact_mod_cast hlow
  have hhigh' : (l.sum : ℚ) ≤ 5 * l.length := by exact_mod_cast hhigh
  unfold mean
  rw [le_div_iff₀ hpos, div_le_iff₀ hpos, one_mul]
  exact ⟨hlow', hhigh'⟩

theorem mean_concat (l : List ℤ) (rating : ℤ) :
    mean (l ++ [rating]) = (l.sum + rating) / (l.length + 1) := by
  simp [mean]

/-- What the new rating would be without its rounding. -/
def worked (x : ℚ) (n rating : ℤ) : ℚ := (x * n + rating) / (n + 1)

/-- It is computed up to a few units of the last digit. -/
theorem within_reviewed (hn : 0 ≤ n) (hsmall : n + 1 < 2 ^ 32) (hx : 0 ≤ x * n)
    (hlow : 1 ≤ rating) (hhigh : rating ≤ 5) : Within 8 (worked x n rating)
      (fl (fl (fl (fl x * fl n) + fl rating) / fl (n + 1 : ℤ))) := by
  have hcount : fl (n : ℚ) = n := fl_intCast (abs_lt.2 ⟨by omega, by omega⟩)
  have hnext : fl ((n + 1 : ℤ) : ℚ) = (n + 1 : ℤ) := fl_intCast (abs_lt.2 ⟨by omega, by omega⟩)
  have hrating : fl (rating : ℚ) = rating := fl_intCast (abs_lt.2 ⟨by omega, by omega⟩)
  have hstars : (0 : ℚ) ≤ rating := by exact_mod_cast (by omega : 0 ≤ rating)
  rw [hcount, hnext, hrating]
  have hproduct : Within 4 (x * n) (fl (fl x * n)) :=
    ((within_fl x).mul_right n).fl (by norm_num)
  have htotal : Within 6 (x * n + rating) (fl (fl (fl x * n) + rating)) :=
    (hproduct.add ((Within.refl _).mono (by omega)) hx hstars).fl (by norm_num)
  have hmean := (htotal.div_right (n + 1 : ℤ)).fl (by norm_num)
  push_cast at hmean ⊢
  exact hmean

/-- Worked into a mean that is shown exactly, a rating gives the next mean. -/
theorem reviewed_of_exact (hrange : ∀ y ∈ l, 1 ≤ y ∧ y ≤ 5) (hlow : 1 ≤ rating)
    (hhigh : rating ≤ 5) (hsmall : l.length + 1 < 2 ^ 32) {y : ℚ}
    (hnear : Within 8 (mean (l ++ [rating])) y) :
    |round2 y - mean (l ++ [rating])| ≤ 1 / 200 := by
  have hall : ∀ z ∈ l ++ [rating], 1 ≤ z ∧ z ≤ 5 := by
    intro z hz
    rcases List.mem_append.1 hz with hz | hz
    · exact hrange z hz
    · obtain rfl := List.mem_singleton.1 hz
      exact ⟨hlow, hhigh⟩
  obtain ⟨hone, hfive⟩ := mean_range hall (by simp)
  have hbound : |mean (l ++ [rating])| ≤ 5 := abs_le.2 ⟨by linarith, hfive⟩
  refine abs_round2_sub_le_of_near (hnear.abs_sub_le hbound) fun b hb => ?_
  -- a mean of few ratings is a half of a hundredth, or not that near to it
  have hhalf := half_or_far (isCents_intCast (l ++ [rating]).sum) (n := (l ++ [rating]).length)
    (by simp) hb
  refine hhalf.imp id fun hfar => lt_of_lt_of_le ?_ hfar
  have hlength : (((l ++ [rating]).length : ℕ) : ℚ) ≤ 2 ^ 32 := by
    have hle : (l ++ [rating]).length ≤ 2 ^ 32 := by simp; omega
    exact_mod_cast hle
  have hpos : (0 : ℚ) < (l ++ [rating]).length := by exact_mod_cast (by simp)
  rw [lt_div_iff₀ (by positivity)]
  push_cast
  linarith

/-- Worked into a mean that is shown to within a half of a hundredth, a rating that makes the mean a
whole number of hundredths gives just that. -/
theorem reviewed_of_next (hrange : ∀ y ∈ l, 1 ≤ y ∧ y ≤ 5) (hne : l ≠ []) (hlow : 1 ≤ rating)
    (hhigh : rating ≤ 5) (hsmall : l.length + 1 < 2 ^ 32) (hshown : |x - mean l| ≤ 1 / 200)
    (hcents : IsCents (mean (l ++ [rating]))) {y : ℚ}
    (hnear : Within 8 (worked x l.length rating) y) : round2 y = mean (l ++ [rating]) := by
  obtain ⟨hone, hfive⟩ := mean_range hrange hne
  have hn : (0 : ℚ) < l.length := by exact_mod_cast List.length_pos_iff.2 hne
  have hlength : ((l.length : ℕ) : ℚ) + 1 ≤ 2 ^ 32 := by exact_mod_cast hsmall.le
  have hrating : (1 : ℚ) ≤ rating ∧ (rating : ℚ) ≤ 5 :=
    ⟨by exact_mod_cast hlow, by exact_mod_cast hhigh⟩
  have hx := abs_le.1 hshown
  -- the error of the shown mean is weighed with one rating less than there are
  have hmoved : worked x l.length rating - mean (l ++ [rating]) =
      (x - mean l) * l.length / (l.length + 1) := by
    rw [mean_concat, worked, mean]
    push_cast
    field_simp
    ring
  have hshift : |worked x l.length rating - mean (l ++ [rating])| ≤
      1 / 200 - 1 / (200 * (l.length + 1)) := by
    rw [hmoved, abs_div, abs_mul, abs_of_pos hn, abs_of_pos (by linarith : (0 : ℚ) < l.length + 1)]
    calc |x - mean l| * l.length / (l.length + 1)
        ≤ 1 / 200 * l.length / (l.length + 1) := by gcongr
      _ = 1 / 200 - 1 / (200 * (l.length + 1)) := by
        field_simp
        ring
  have hbound : |worked x l.length rating| ≤ 6 := by
    rw [worked, Int.cast_natCast, abs_div, abs_of_pos (by linarith : (0 : ℚ) < l.length + 1),
      div_le_iff₀ (by linarith), abs_of_nonneg (by nlinarith)]
    nlinarith
  have herror := hnear.abs_sub_le hbound
  have hfar : (8 : ℕ) * (6 : ℚ) / 2 ^ 53 < 1 / (200 * (l.length + 1)) := by
    rw [lt_div_iff₀ (by positivity)]
    push_cast
    linarith
  refine round2_of_near hcents ?_
  calc |y - mean (l ++ [rating])|
      ≤ |y - worked x l.length rating| +
        |worked x l.length rating - mean (l ++ [rating])| := abs_sub_le _ _ _
    _ < 1 / (200 * (l.length + 1)) + (1 / 200 - 1 / (200 * (l.length + 1))) := by linarith
    _ = 1 / 200 := by ring

end Means

section Steps

variable {db : Db} {r : Request} {i : ℕ} {p : Product}

/-- What a review makes of the rating. -/
theorem shown_reviewed (hkept : Kept i db) (h : Displays i db) (hp : db.products.get? i = some p)
    {rating : ℤ} (hlow : 1 ≤ rating) (hhigh : rating ≤ 5)
    (hsettles : IsCents (mean (ratingsOf db i)) ∨ IsCents (mean (ratingsOf db i ++ [rating])))
    (hsmall : (ratingsOf db i).length + 1 < 2 ^ 32) :
    |(reviewed rating p).rating - mean (ratingsOf db i ++ [rating])| ≤ 1 / 200 := by
  have hcount := hkept.count p hp
  have hrange := hkept.range
  set l := ratingsOf db i with hl
  have hsmall' : (l.length : ℤ) + 1 < 2 ^ 32 := by exact_mod_cast hsmall
  have hrating : (reviewed rating p).rating = round2 (fl (fl (fl (fl p.rating *
      fl (l.length : ℤ)) + fl rating) / fl ((l.length : ℤ) + 1 : ℤ))) := by
    rw [reviewed, hcount]
  rw [hrating]
  rcases eq_or_ne l [] with hnil | hne
  · -- the first review: there is nothing to carry
    have hnear := within_reviewed (x := p.rating) (Int.natCast_nonneg l.length) hsmall'
      (by simp [hnil]) hlow hhigh
    have hworked : worked p.rating l.length rating = mean (l ++ [rating]) := by
      simp [worked, mean, hnil]
    exact reviewed_of_exact hrange hlow hhigh hsmall (hworked ▸ hnear)
  have hshown := (h p hp).2 hne
  obtain ⟨hone, hfive⟩ := mean_range hrange hne
  have hn : (0 : ℚ) < l.length := by exact_mod_cast List.length_pos_iff.2 hne
  have hpos : 0 ≤ p.rating * (l.length : ℤ) := by
    have hx := abs_le.1 hshown
    push_cast
    exact mul_nonneg (by linarith) hn.le
  have hnear := within_reviewed (x := p.rating) (Int.natCast_nonneg l.length) hsmall' hpos hlow
    hhigh
  rcases hsettles with hcents | hcents
  · -- what is shown is the mean itself
    have hexact : p.rating = mean l := by
      have hx := abs_le.1 hshown
      have hrounded := hkept.rounded p hp hne
      exact le_antisymm (hrounded.le_of_lt_add hcents (by linarith))
        (hcents.le_of_lt_add hrounded (by linarith))
    have hworked : worked p.rating l.length rating = mean (l ++ [rating]) := by
      rw [hexact, worked, mean_concat, mean]
      push_cast
      field_simp
    exact reviewed_of_exact hrange hlow hhigh hsmall (hworked ▸ hnear)
  · rw [reviewed_of_next hrange hne hlow hhigh hsmall hshown hcents hnear, sub_self, abs_zero]
    norm_num

/-- Such a review keeps what a product shows right. -/
theorem displays_step (hkept : Kept i db) (h : Displays i db) (hr : Settles i db r) :
    Displays i (step db r) := by
  have hkept' := kept_step hkept r
  rcases step_cases db r with hsame | ⟨p, hlow, hhigh, hp, hstep⟩
  · rw [hsame]
    exact h
  rw [hstep] at hkept' ⊢
  intro q hq
  by_cases hi : r.productId = i
  · subst hi
    obtain ⟨hsettles, hsmall⟩ := hr rfl hlow hhigh
    refine ⟨hkept'.count q hq, fun _ => ?_⟩
    rw [get?_withReview rfl, hp] at hq
    cases hq
    rw [ratingsOf_withReview, if_pos rfl]
    exact shown_reviewed hkept h hp hlow hhigh hsettles hsmall
  · rw [get?_withReview_of_ne hi] at hq
    rw [ratingsOf_withReview, if_neg hi]
    exact h q hq

end Steps

/-! ## Whole runs -/

section Runs

variable {db : Db} {i : ℕ}

/-- A product without reviews. -/
def Unreviewed (i : ℕ) (db : Db) : Prop :=
  ratingsOf db i = [] ∧ ∀ p, db.products.get? i = some p → p.reviewCount = 0

theorem Unreviewed.kept (h : Unreviewed i db) : Kept i db := by
  refine ⟨fun p hp => ?_, fun p hp hne => absurd h.1 hne, ?_⟩
  · rw [h.2 p hp, h.1]
    rfl
  · rw [h.1]
    simp

/-- From its first review on, a product shows its mean throughout a run in which each review comes
to a mean that is shown exactly, or makes it so. -/
theorem displays_of_settles (hnew : Unreviewed i db) {rs : List Request}
    (h : Stepwise step (Settles i) db rs) : Throughout step (Displays i) db rs := by
  have hboth : Throughout step (fun s => Kept i s ∧ Displays i s) db rs := by
    refine throughout_of_stepwise (fun s r hs hr => ?_) ⟨hnew.kept, fun p hp => ?_⟩ h
    · exact ⟨kept_step hs.1 r, displays_step hs.1 hs.2 hr⟩
    · exact ⟨hnew.kept.count p hp, fun hne => absurd hnew.1 hne⟩
  exact fun pre hpre => (hboth pre hpre).2

end Runs

/-! ## Means that are shown, and one that is not -/

def cake : Product where
  name := "Cake"
  coverImageUrl := none
  supplierUserId := none
  sellingPrice := 500
  customerPrice := none
  purchaseCost := none
  stockQty := 10
  supplierAvailableQty := 0
  stockStatus := .inStock
  lowStockThreshold := 5
  salesCount := 0
  isActive := true

def menu : Db := { Db.empty with products := .ofList [cake] }

theorem unreviewed_menu : Unreviewed 1 menu := by
  refine ⟨rfl, fun p hp => ?_⟩
  have hcake : menu.products.get? 1 = some cake := by decide
  rw [hcake] at hp
  cases hp
  rfl

/-- A review of the cake. -/
def stars (rating : ℤ) : Request := ⟨7, 1, rating, none, none⟩

/-- The means 5 and 4.5 are whole hundredths, 13/3 is not, and 4.5 is again. -/
theorem fourReviews_displayed :
    Throughout step (Displays 1) menu [stars 5, stars 4, stars 4, stars 5] := by
  have hcents {x : ℚ} (h : round2 x = x) : IsCents x := isCents_iff_round2.2 h
  refine displays_of_settles unreviewed_menu ?_
  simp only [stepwise_cons]
  refine ⟨fun _ _ _ => ⟨.inl (hcents ?_), ?_⟩, fun _ _ _ => ⟨.inl (hcents ?_), ?_⟩,
    fun _ _ _ => ⟨.inl (hcents ?_), ?_⟩, fun _ _ _ => ⟨.inr (hcents ?_), ?_⟩, stepwise_nil _ _⟩
  all_goals decide +kernel

/-- Seven reviews with a mean of 1.1428…, which is shown as 1.15. -/
theorem sevenReviews_off :
    ¬ Throughout step (Displays 1) menu
      [stars 1, stars 1, stars 1, stars 1, stars 1, stars 2, stars 1] := by
  intro h
  have hshown := (h.final { cake with rating := 115 / 100, reviewCount := 7 } (by decide +kernel)).2
    (by decide +kernel)
  revert hshown
  decide +kernel

end Ratings

end SweetCrust
