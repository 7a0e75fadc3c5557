import SweetCrust.Lib.Rounding

/-!
# Amounts in binary floating point

A `float` holds 53 binary digits.  Every operation rounds its exact result to the nearest number
that has no more of them, the even one of two.  The exponents are left unbounded: no amount here
overflows, and none is lost below the smallest exponent.

Python's `round(x, 2)` of a float is the float nearest to `round2 x`, so a float that comes from it
is written here as that number of hundredths, and `fl` is taken where it is used.

* `fl` — the rounding; `fl_mono` says that it is monotone, `abs_fl_sub_le` how far it moves.
* `Within` — the relative error of a computation, with one rule for each operation.
* `Held` — whole hundredths up to about a trillion, on which the operations are as on the exact
  amounts: `Held.round2_fl_add`, `Held.round2_fl_sub`, `Held.fl_lt_fl`.
* `round2_eq_of_near`, `abs_round2_sub_le_of_near` — what is rounded alike in spite of an error.
-/

namespace Binary64

open Rounding

/-- The distance of the floats about `x`. -/
def spacing (x : ℚ) : ℚ := 2 ^ (Int.log 2 |x| - 52)

/-- The nearest float. -/
def fl (x : ℚ) : ℚ := roundHalfEven (x / spacing x) * spacing x

variable {x y x' y' : ℚ}

/-! ## The nearest float -/

theorem spacing_pos (x : ℚ) : 0 < spacing x := zpow_pos (by norm_num) _

theorem spacing_neg (x : ℚ) : spacing (-x) = spacing x := by
  rw [spacing, abs_neg, spacing]

@[simp] theorem fl_zero : fl 0 = 0 := by
  simp [fl, roundHalfEven]

theorem fl_neg (x : ℚ) : fl (-x) = -fl x := by
  rw [fl, spacing_neg, neg_div, roundHalfEven_neg, fl]
  push_cast
  ring

theorem spacing_le (h : x ≠ 0) : spacing x * 2 ^ 52 ≤ |x| := by
  have hlog : ((2 : ℕ) : ℚ) ^ Int.log 2 |x| ≤ |x| :=
    Int.zpow_log_le_self (by norm_num) (abs_pos.2 h)
  rw [spacing, zpow_sub₀ (by norm_num)]
  push_cast at hlog
  calc (2 : ℚ) ^ Int.log 2 |x| / 2 ^ (52 : ℤ) * 2 ^ 52 = 2 ^ Int.log 2 |x| := by
        norm_num
    _ ≤ |x| := hlog

/-- A float has 53 digits, so the nearest one is no farther than that. -/
theorem abs_fl_sub_le (x : ℚ) : |fl x - x| ≤ |x| / 2 ^ 53 := by
  rcases eq_or_ne x 0 with rfl | hx
  · simp
  · have hround := abs_roundHalfEven_sub_le (x / spacing x)
    have hsplit : fl x - x = (roundHalfEven (x / spacing x) - x / spacing x) * spacing x := by
      rw [sub_mul, div_mul_cancel₀ _ (spacing_pos x).ne', fl]
    have hle := spacing_le hx
    rw [hsplit, abs_mul, abs_of_pos (spacing_pos x)]
    calc _ ≤ 1 / 2 * spacing x := mul_le_mul_of_nonneg_right hround (spacing_pos x).le
      _ ≤ |x| / 2 ^ 53 := by
        rw [le_div_iff₀ (by norm_num)]
        linarith

/-! ## Order -/

/-- A number is at most the power of two that follows it, and so is its float. -/
theorem fl_le_zpow (h : 0 < x) : fl x ≤ 2 ^ (Int.log 2 x + 1) := by
  have hlog : x < ((2 : ℕ) : ℚ) ^ (Int.log 2 x + 1) := Int.lt_zpow_succ_log_self (by norm_num) x
  have hspan : (2 : ℚ) ^ (Int.log 2 x + 1) = ((2 ^ 53 : ℤ) : ℚ) * spacing x := by
    rw [spacing, abs_of_pos h, zpow_add₀ (by norm_num), zpow_sub₀ (by norm_num)]
    norm_num
    ring
  have hdiv : x / spacing x ≤ ((2 ^ 53 : ℤ) : ℚ) := by
    rw [div_le_iff₀ (spacing_pos x), ← hspan]
    push_cast at hlog
    exact hlog.le
  have hround := roundHalfEven_mono hdiv
  rw [roundHalfEven_intCast] at hround
  rw [hspan, fl]
  exact mul_le_mul_of_nonneg_right (by exact_mod_cast hround) (spacing_pos x).le

/-- It is at least the power of two before it. -/
theorem zpow_le_fl (h : 0 < x) : 2 ^ Int.log 2 x ≤ fl x := by
  have hspan : (2 : ℚ) ^ Int.log 2 x = ((2 ^ 52 : ℤ) : ℚ) * spacing x := by
    rw [spacing, abs_of_pos h, zpow_sub₀ (by norm_num)]
    norm_num
    ring
  have hle := spacing_le h.ne'
  rw [abs_of_pos h] at hle
  have hdiv : ((2 ^ 52 : ℤ) : ℚ) ≤ x / spacing x := by
    rw [le_div_iff₀ (spacing_pos x)]
    push_cast
    linarith
  have hround := roundHalfEven_mono hdiv
  rw [roundHalfEven_intCast] at hround
  rw [hspan, fl]
  exact mul_le_mul_of_nonneg_right (by exact_mod_cast hround) (spacing_pos x).le

theorem fl_le_fl_of_pos (hx : 0 < x) (h : x ≤ y) : fl x ≤ fl y := by
  have hy : 0 < y := hx.trans_le h
  rcases (Int.log_mono_right hx h (b := 2)).eq_or_lt with heq | hlt
  · -- in one binade the floats are equally far apart
    have hsame : spacing x = spacing y := by
      rw [spacing, spacing, abs_of_pos hx, abs_of_pos hy, heq]
    have hround := roundHalfEven_mono (div_le_div_of_nonneg_right h (spacing_pos x).le)
    rw [fl, fl, ← hsame]
    exact mul_le_mul_of_nonneg_right (by exact_mod_cast hround) (spacing_pos x).le
  · calc fl x ≤ 2 ^ (Int.log 2 x + 1) := fl_le_zpow hx
      _ ≤ 2 ^ Int.log 2 y := zpow_le_zpow_right₀ (by norm_num) hlt
      _ ≤ fl y := zpow_le_fl hy

theorem fl_nonneg (h : 0 ≤ x) : 0 ≤ fl x := by
  rcases h.eq_or_lt with rfl | hpos
  · rw [fl_zero]
  · exact (zpow_pos (by norm_num) _).le.trans (zpow_le_fl hpos)

theorem fl_mono (h : x ≤ y) : fl x ≤ fl y := by
  rcases lt_or_ge 0 x with hx | hx
  · exact fl_le_fl_of_pos hx h
  rcases le_or_gt 0 y with hy | hy
  · have hneg := fl_nonneg (neg_nonneg.2 hx)
    rw [fl_neg] at hneg
    linarith [fl_nonneg hy]
  · have hneg := fl_le_fl_of_pos (neg_pos.2 hy) (neg_le_neg h)
    rw [fl_neg, fl_neg] at hneg
    linarith

theorem monotone_fl : Monotone fl := fun _ _ => fl_mono

/-- An integer of no more than 53 digits is held as it is. -/
theorem fl_intCast {n : ℤ} (h : |n| < 2 ^ 53) : fl (n : ℚ) = n := by
  rcases eq_or_ne n 0 with rfl | hn
  · rw [Int.cast_zero, fl_zero]
  have habs : (0 : ℚ) < |(n : ℚ)| := abs_pos.2 (by exact_mod_cast hn)
  have hlog : Int.log 2 |(n : ℚ)| < 53 := by
    refine (Int.lt_zpow_iff_log_lt (by norm_num) habs).1 ?_
    push_cast
    exact_mod_cast h
  -- so the spacing is the reciprocal of a whole number
  obtain ⟨d, hd⟩ : ∃ d : ℕ, spacing (n : ℚ) * 2 ^ d = 1 := by
    refine ⟨(52 - Int.log 2 |(n : ℚ)|).toNat, ?_⟩
    rw [spacing, ← zpow_natCast, ← zpow_add₀ (by norm_num), Int.toNat_of_nonneg (by omega)]
    simp
  have hdiv : (n : ℚ) / spacing n = ((n * 2 ^ d : ℤ) : ℚ) := by
    rw [div_eq_iff (spacing_pos _).ne']
    push_cast
    rw [mul_assoc, mul_comm _ (spacing _), hd, mul_one]
  rw [fl, hdiv, roundHalfEven_intCast]
  push_cast
  rw [mul_assoc, mul_comm _ (spacing _), hd, mul_one]

/-! ## The error of a computation -/

/-- `y` is `x` up to some units of the last digit. -/
def Within (k : ℕ) (x y : ℚ) : Prop := |y - x| ≤ k * |x| / 2 ^ 53

section Errors

variable {j k : ℕ}

theorem Within.refl (x : ℚ) : Within 0 x x := by
  simp [Within]

theorem Within.mono (h : Within j x y) (hjk : j ≤ k) : Within k x y := by
  have hjk' : (j : ℚ) ≤ k := by exact_mod_cast hjk
  exact le_trans h (by gcongr)

theorem Within.abs_le (h : Within k x y) (hk : k ≤ 2 ^ 53) : |y| ≤ 2 * |x| := by
  have hk' : (k : ℚ) ≤ 2 ^ 53 := by exact_mod_cast hk
  have hle : k * |x| / 2 ^ 53 ≤ |x| := by
    rw [div_le_iff₀ (by norm_num), mul_comm]
    exact mul_le_mul_of_nonneg_left hk' (abs_nonneg x)
  have htri := abs_sub_abs_le_abs_sub y x
  unfold Within at h
  linarith

protected theorem Within.fl (h : Within k x y) (hk : k ≤ 2 ^ 53) : Within (k + 2) x (fl y) := by
  have habs := h.abs_le hk
  have hround := abs_fl_sub_le y
  have htri := abs_sub_le (Binary64.fl y) y x
  unfold Within at *
  push_cast
  calc |Binary64.fl y - x| ≤ 2 * |x| / 2 ^ 53 + k * |x| / 2 ^ 53 := by
        have hle : |y| / 2 ^ 53 ≤ 2 * |x| / 2 ^ 53 :=
          div_le_div_of_nonneg_right habs (by norm_num)
        linarith
    _ = (k + 2) * |x| / 2 ^ 53 := by ring

theorem within_fl (x : ℚ) : Within 2 x (fl x) := (Within.refl x).fl (by norm_num)

theorem Within.mul_right (h : Within k x y) (c : ℚ) : Within k (x * c) (y * c) := by
  unfold Within at *
  rw [← sub_mul, abs_mul, abs_mul]
  calc _ ≤ k * |x| / 2 ^ 53 * |c| := mul_le_mul_of_nonneg_right h (abs_nonneg c)
    _ = k * (|x| * |c|) / 2 ^ 53 := by ring

theorem Within.div_right (h : Within k x y) (c : ℚ) : Within k (x / c) (y / c) := by
  rw [div_eq_mul_inv, div_eq_mul_inv]
  exact h.mul_right c⁻¹

theorem Within.mul (h : Within j x x') (h' : Within k y y') (hjk : j * k ≤ 2 ^ 53) :
    Within (j + k + 1) (x * y) (x' * y') := by
  have hjk' : (j : ℚ) * k ≤ 2 ^ 53 := by exact_mod_cast hjk
  have hsplit : x' * y' - x * y = (x' - x) * y + x * (y' - y) + (x' - x) * (y' - y) := by ring
  have hboth : |(x' - x) * (y' - y)| ≤ |x| * |y| / 2 ^ 53 := by
    rw [abs_mul]
    calc _ ≤ j * |x| / 2 ^ 53 * (k * |y| / 2 ^ 53) :=
          mul_le_mul h h' (abs_nonneg _) (by positivity)
      _ = j * k * (|x| * |y| / 2 ^ 53) / 2 ^ 53 := by ring
      _ ≤ 2 ^ 53 * (|x| * |y| / 2 ^ 53) / 2 ^ 53 := by gcongr
      _ = |x| * |y| / 2 ^ 53 := by ring
  have hleft : |(x' - x) * y| ≤ j * |x| / 2 ^ 53 * |y| := by
    rw [abs_mul]
    exact mul_le_mul_of_nonneg_right h (abs_nonneg y)
  have hright : |x * (y' - y)| ≤ |x| * (k * |y| / 2 ^ 53) := by
    rw [abs_mul]
    exact mul_le_mul_of_nonneg_left h' (abs_nonneg x)
  unfold Within
  rw [hsplit, abs_mul]
  push_cast
  calc _ ≤ |(x' - x) * y| + |x * (y' - y)| + |(x' - x) * (y' - y)| := abs_add_three _ _ _
    _ ≤ j * |x| / 2 ^ 53 * |y| + |x| * (k * |y| / 2 ^ 53) + |x| * |y| / 2 ^ 53 := by gcongr
    _ = (j + k + 1) * (|x| * |y|) / 2 ^ 53 := by ring

theorem Within.add (h : Within k x x') (h' : Within k y y') (hx : 0 ≤ x) (hy : 0 ≤ y) :
    Within k (x + y) (x' + y') := by
  have htri := abs_add_le (x' - x) (y' - y)
  unfold Within at *
  rw [abs_of_nonneg hx] at h
  rw [abs_of_nonneg hy] at h'
  rw [abs_of_nonneg (add_nonneg hx hy), add_sub_add_comm]
  calc _ ≤ k * x / 2 ^ 53 + k * y / 2 ^ 53 := htri.trans (add_le_add h h')
    _ = k * (x + y) / 2 ^ 53 := by ring

/-- The error of an amount that is not large. -/
theorem Within.abs_sub_le (h : Within k x y) {b : ℚ} (hb : |x| ≤ b) :
    |y - x| ≤ k * b / 2 ^ 53 := by
  unfold Within at h
  exact h.trans (by gcongr)

end Errors

/-! ## Rounding to hundredths -/

section Hundredths

variable {b e : ℚ}

theorem round2_of_near (hb : IsCents b) (h : |y - b| < 1 / 200) : round2 y = b := by
  have hround := abs_round2_sub_le y
  rw [abs_lt] at h
  rw [abs_le] at hround
  exact le_antisymm ((isCents_round2 y).le_of_lt_add hb (by linarith))
    (hb.le_of_lt_add (isCents_round2 y) (by linarith))

/-- An error changes nothing where there is no half of a hundredth within it. -/
theorem round2_eq_of_near (h : |y - x| ≤ e)
    (hfar : ∀ b, IsCents b → e < |x - (b + 1 / 200)|) : round2 y = round2 x := by
  have hside : ∀ b, IsCents b → (round2 y ≤ b ↔ round2 x ≤ b) := by
    intro b hb
    have hb' := hfar b hb
    rw [abs_le] at h
    rw [round2_le_iff hb, round2_le_iff hb]
    rcases lt_abs.1 hb' with hlt | hlt
    · constructor
      · rintro (h' | ⟨h', -⟩) <;> linarith
      · rintro (h' | ⟨h', -⟩) <;> linarith
    · exact iff_of_true (.inl (by linarith)) (.inl (by linarith))
  exact le_antisymm ((hside _ (isCents_round2 x)).2 le_rfl)
    ((hside _ (isCents_round2 y)).1 le_rfl)

/-- No half of a hundredth is within `k` units of the last digit. -/
def Clear (k : ℕ) (x : ℚ) : Prop :=
  ∀ b, IsCents b → k * |x| / 2 ^ 53 < |x - (b + 1 / 200)|

theorem Within.round2_eq {k : ℕ} (h : Within k x y) (hx : Clear k x) : round2 y = round2 x :=
  round2_eq_of_near h hx

theorem Clear.abs_mul_le {k : ℕ} (h : Clear k x) : k * |x| ≤ 2 ^ 53 / 200 := by
  have hround := abs_le.1 (abs_round2_sub_le x)
  -- one of the two halves about the rounded amount is that near
  have hnear : ∃ b, IsCents b ∧ |x - (b + 1 / 200)| ≤ 1 / 200 := by
    rcases le_total x (round2 x) with hle | hle
    · refine ⟨round2 x - 1 / 100, (isCents_round2 x).sub ⟨1, by norm_num⟩, ?_⟩
      rw [abs_le]
      constructor <;> linarith
    · refine ⟨round2 x, isCents_round2 x, ?_⟩
      rw [abs_le]
      constructor <;> linarith
  obtain ⟨b, hb, hle⟩ := hnear
  have hlt := (h b hb).trans_le hle
  rw [div_lt_iff₀ (by norm_num)] at hlt
  linarith

/-- The float is that of a whole number of hundredths. -/
def Whole (x : ℚ) : Prop := round2 (fl x) = x

instance (x : ℚ) : Decidable (Whole x) := inferInstanceAs (Decidable (_ = _))

/-- The float of a whole number of hundredths is rounded to it. -/
theorem whole_of_isCents (hx : IsCents x) (h : |x| < 2 ^ 53 / 200) : Whole x := by
  refine round2_of_near hx ((abs_fl_sub_le x).trans_lt ?_)
  rw [div_lt_iff₀ (by norm_num)]
  linarith

/-- What is whole hundredths is clear. -/
theorem clear_of_isCents {k : ℕ} (hx : IsCents x) (h : k * |x| < 2 ^ 53 / 200) : Clear k x := by
  intro b hb
  have hsmall : k * |x| / 2 ^ 53 < 1 / 200 := by
    rw [div_lt_iff₀ (by norm_num)]
    linarith
  refine hsmall.trans_le ?_
  rw [le_abs]
  rcases lt_or_ge b x with hlt | hge
  · exact .inl (by linarith [hb.add_one_le hx hlt])
  · exact .inr (by linarith)

/-- What is a half of a hundredth itself is off by that, wherever the error takes it. -/
theorem abs_round2_sub_le_of_near (h : |y - x| ≤ e)
    (hfar : ∀ b, IsCents b → x = b + 1 / 200 ∨ e < |x - (b + 1 / 200)|) :
    |round2 y - x| ≤ 1 / 200 := by
  rw [abs_round2_sub_le_iff]
  intro b hb hacross
  rw [abs_le] at h
  rcases hfar b hb with rfl | hfar
  · rcases hacross with ⟨hlt, -⟩ | ⟨hlt, -⟩ <;> exact absurd hlt (lt_irrefl _)
  · rcases hacross with ⟨hx, hy⟩ | ⟨hx, hy⟩
    · rw [abs_of_neg (by linarith)] at hfar
      rcases hy with hy | ⟨hy, -⟩ <;> linarith
    · rw [abs_of_pos (by linarith)] at hfar
      rcases hy with hy | ⟨hy, -⟩ <;> linarith

/-- An average of whole hundredths is a half of a hundredth, or not very near to it. -/
theorem half_or_far {s : ℚ} (hs : IsCents s) {n : ℕ} (hn : 0 < n) (hb : IsCents b) :
    s / n = b + 1 / 200 ∨ 1 / (200 * n) ≤ |s / n - (b + 1 / 200)| := by
  obtain ⟨i, rfl⟩ := hs
  obtain ⟨j, rfl⟩ := hb
  have hn' : (0 : ℚ) < n := by exact_mod_cast hn
  have hsplit : (i : ℚ) / 100 / n - (j / 100 + 1 / 200) =
      ((2 * i - n * (2 * j + 1) : ℤ) : ℚ) / (200 * n) := by
    push_cast
    field_simp
    ring
  rcases eq_or_ne (2 * i - n * (2 * j + 1)) 0 with hzero | hne
  · left
    rw [hzero, Int.cast_zero, zero_div] at hsplit
    linarith
  · right
    have hone : (1 : ℚ) ≤ |((2 * i - n * (2 * j + 1) : ℤ) : ℚ)| := by
      exact_mod_cast Int.one_le_abs hne
    rw [hsplit, abs_div, abs_of_pos (by positivity : (0 : ℚ) < 200 * n)]
    exact div_le_div_of_nonneg_right hone (by positivity)

end Hundredths

/-! ## Whole hundredths -/

/-- A whole number of hundredths, up to about a trillion. -/
structure Held (x : ℚ) : Prop where
  cents : IsCents x
  le : |x| ≤ 2 ^ 40

namespace Held

theorem abs_fl_sub_le (h : Held x) : |fl x - x| ≤ 1 / 2 ^ 13 := by
  refine (Binary64.abs_fl_sub_le x).trans ?_
  rw [div_le_div_iff₀ (by norm_num) (by norm_num)]
  linarith [h.le]

theorem round2_fl (h : Held x) : round2 (fl x) = x :=
  round2_of_near h.cents (h.abs_fl_sub_le.trans_lt (by norm_num))

theorem whole (h : Held x) : Whole x := h.round2_fl

/-- A number that is near to two amounts together. -/
theorem round2_fl_of_near (hx : Held x) (hy : Held y) {z : ℚ}
    (hz : |z - (x + y)| ≤ 2 / 2 ^ 13) : round2 (fl z) = x + y := by
  refine round2_of_near (hx.cents.add hy.cents) ?_
  have hround := Binary64.abs_fl_sub_le z
  have habs : |z| ≤ 2 ^ 42 := by
    have hx' := abs_le.1 hx.le
    have hy' := abs_le.1 hy.le
    have hz' := abs_le.1 hz
    rw [abs_le]
    constructor <;> linarith
  have hsmall : |z| / 2 ^ 53 ≤ 4 / 2 ^ 13 := by
    rw [div_le_div_iff₀ (by norm_num) (by norm_num)]
    linarith
  have htri := abs_sub_le (fl z) z (x + y)
  calc |fl z - (x + y)| ≤ 4 / 2 ^ 13 + 2 / 2 ^ 13 := by linarith
    _ < 1 / 200 := by norm_num

theorem round2_fl_add (hx : Held x) (hy : Held y) : round2 (fl (fl x + fl y)) = x + y := by
  refine round2_fl_of_near hx hy ?_
  rw [add_sub_add_comm]
  exact (abs_add_le _ _).trans (by linarith [hx.abs_fl_sub_le, hy.abs_fl_sub_le])

theorem neg (h : Held x) : Held (-x) := by
  refine ⟨?_, by rw [abs_neg]; exact h.le⟩
  have hsub := isCents_zero.sub h.cents
  rwa [zero_sub] at hsub

theorem round2_fl_sub (hx : Held x) (hy : Held y) : round2 (fl (fl x - fl y)) = x - y := by
  rw [sub_eq_add_neg, ← fl_neg, hx.round2_fl_add hy.neg, ← sub_eq_add_neg]

theorem fl_lt_fl (hx : Held x) (hy : Held y) (h : x < y) : fl x < fl y := by
  have hnext := hx.cents.add_one_le hy.cents h
  have hx' := abs_le.1 hx.abs_fl_sub_le
  have hy' := abs_le.1 hy.abs_fl_sub_le
  norm_num at hx' hy'
  linarith

end Held

end Binary64
