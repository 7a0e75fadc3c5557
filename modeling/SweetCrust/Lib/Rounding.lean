import Mathlib

/-!
# Rounding exact amounts to two decimals

`round(x, 2)` on an exact amount: the nearest hundredth, and the even one of the
two when `x` lies half-way between them.

* `roundHalfEven`, `round2` — the rounding.
* `IsCents` — an amount that is a whole number of hundredths; `round2_of_isCents`
  says rounding leaves it alone and `isCents_round2` that rounding produces one.
* `abs_round2_sub_le` — rounding moves an amount by at most half a hundredth.
* `round2_mono` — rounding is monotone.
* `round2_neg`, `round2_le_iff` — rounding is symmetric, and what it rounds to at most a
  whole number of hundredths.
* `Across`, `abs_round2_sub_le_iff` — an amount is rounded to a nearest hundredth of another one
  exactly if there is no half of a hundredth between the two.
* `round2_add_iff` — the exact condition under which a whole number of hundredths
  can be taken out of a rounding: the remaining amount is not half-way between two
  hundredths, or the number taken out is even.
-/

namespace Rounding

/-- The nearest integer, ties to even. -/
def roundHalfEven (q : ℚ) : ℤ :=
  if Int.fract q < 1 / 2 then ⌊q⌋
  else if 1 / 2 < Int.fract q then ⌊q⌋ + 1
  else if Even ⌊q⌋ then ⌊q⌋
  else ⌊q⌋ + 1

/-- `round(q, 2)`. -/
def round2 (q : ℚ) : ℚ := roundHalfEven (q * 100) / 100

/-- A whole number of hundredths. -/
def IsCents (q : ℚ) : Prop := ∃ n : ℤ, q = n / 100

/-- An even number of hundredths. -/
def EvenCents (q : ℚ) : Prop := ∃ n : ℤ, Even n ∧ q = n / 100

/-- An amount half-way between two hundredths. -/
def HalfCent (q : ℚ) : Prop := Int.fract (q * 100) = 1 / 2

/-! ## The nearest integer -/

theorem roundHalfEven_eq_floor_or (q : ℚ) :
    roundHalfEven q = ⌊q⌋ ∨ roundHalfEven q = ⌊q⌋ + 1 := by
  unfold roundHalfEven
  split_ifs <;> simp

theorem floor_le_roundHalfEven (q : ℚ) : ⌊q⌋ ≤ roundHalfEven q := by
  rcases roundHalfEven_eq_floor_or q with h | h <;> omega

theorem roundHalfEven_le_floor_add_one (q : ℚ) : roundHalfEven q ≤ ⌊q⌋ + 1 := by
  rcases roundHalfEven_eq_floor_or q with h | h <;> omega

@[simp] theorem roundHalfEven_intCast (n : ℤ) : roundHalfEven (n : ℚ) = n := by
  simp [roundHalfEven]

theorem abs_roundHalfEven_sub_le (q : ℚ) : |(roundHalfEven q : ℚ) - q| ≤ 1 / 2 := by
  have hq : (⌊q⌋ : ℚ) + Int.fract q = q := Int.floor_add_fract q
  have h0 := Int.fract_nonneg q
  have h1 := Int.fract_lt_one q
  unfold roundHalfEven
  split_ifs with hlt hgt <;> rw [abs_le] <;> push_cast <;> constructor <;> linarith

theorem roundHalfEven_mono {q r : ℚ} (h : q ≤ r) : roundHalfEven q ≤ roundHalfEven r := by
  rcases lt_or_eq_of_le (Int.floor_mono h) with hlt | heq
  · have h1 := roundHalfEven_le_floor_add_one q
    have h2 := floor_le_roundHalfEven r
    omega
  · have hq : (⌊q⌋ : ℚ) + Int.fract q = q := Int.floor_add_fract q
    have hr : (⌊r⌋ : ℚ) + Int.fract r = r := Int.floor_add_fract r
    have hf : Int.fract q ≤ Int.fract r := by
      rw [heq] at hq
      linarith
    unfold roundHalfEven
    rw [heq]
    split_ifs <;> first | omega | linarith

/-- Taking an integer out of a rounding is exact unless a tie is decided by the
parity that integer changes. -/
theorem roundHalfEven_int_add (n : ℤ) (q : ℚ) :
    roundHalfEven (n + q) = n + roundHalfEven q ↔ (Int.fract q ≠ 1 / 2 ∨ Even n) := by
  have hfl : ⌊(n : ℚ) + q⌋ = n + ⌊q⌋ := Int.floor_intCast_add n q
  have hfr : Int.fract ((n : ℚ) + q) = Int.fract q := Int.fract_intCast_add n q
  unfold roundHalfEven
  rw [hfl, hfr]
  rcases lt_trichotomy (Int.fract q) (1 / 2) with h | h | h
  · rw [if_pos h, if_pos h]
    exact iff_of_true rfl (Or.inl h.ne)
  · have hn : ¬ Int.fract q < 1 / 2 := by rw [h]; exact lt_irrefl _
    have hn' : ¬ 1 / 2 < Int.fract q := by rw [h]; exact lt_irrefl _
    simp only [if_neg hn, if_neg hn', Int.even_add]
    by_cases he : Even n <;> by_cases hf : Even ⌊q⌋ <;> simp [he, hf, h]
    omega
  · have hn : ¬ Int.fract q < 1 / 2 := not_lt.2 h.le
    rw [if_neg hn, if_pos h, if_neg hn, if_pos h]
    exact iff_of_true (add_assoc _ _ _) (Or.inl h.ne')

/-- Rounding is symmetric. -/
theorem roundHalfEven_neg (q : ℚ) : roundHalfEven (-q) = -roundHalfEven q := by
  have hq : (⌊q⌋ : ℚ) + Int.fract q = q := Int.floor_add_fract q
  by_cases hwhole : Int.fract q = 0
  · rw [hwhole, add_zero] at hq
    rw [← hq, ← Int.cast_neg, roundHalfEven_intCast, roundHalfEven_intCast]
  have hfract : Int.fract (-q) = 1 - Int.fract q := Int.fract_neg hwhole
  have hfloor : ⌊-q⌋ = -⌊q⌋ - 1 := by
    have hneg : (⌊-q⌋ : ℚ) + Int.fract (-q) = -q := Int.floor_add_fract (-q)
    have hcast : (⌊-q⌋ : ℚ) = -⌊q⌋ - 1 := by linarith
    exact_mod_cast hcast
  unfold roundHalfEven
  rw [hfract, hfloor]
  rcases lt_trichotomy (Int.fract q) (1 / 2) with h | h | h
  · rw [if_neg (by linarith), if_pos (by linarith), if_pos h]
    omega
  · have hodd : Even (-⌊q⌋ - 1) ↔ ¬ Even ⌊q⌋ := by
      rw [Int.even_sub_one, even_neg]
    rw [h, if_neg (by norm_num), if_neg (by norm_num), if_neg (lt_irrefl _), if_neg (lt_irrefl _)]
    by_cases heven : Even ⌊q⌋
    · rw [if_neg (by simp [hodd, heven]), if_pos heven]
      omega
    · rw [if_pos (hodd.2 heven), if_neg heven]
      omega
  · rw [if_pos (by linarith), if_neg (by linarith), if_pos h]
    omega

/-- What is rounded to at most an integer. -/
theorem roundHalfEven_le_iff (q : ℚ) (n : ℤ) :
    roundHalfEven q ≤ n ↔ q < n + 1 / 2 ∨ q = n + 1 / 2 ∧ Even n := by
  have hq : (⌊q⌋ : ℚ) + Int.fract q = q := Int.floor_add_fract q
  have h0 := Int.fract_nonneg q
  have h1 := Int.fract_lt_one q
  have hcast : ∀ m : ℤ, (m : ℚ) < n + 1 → m ≤ n := fun m hm => by
    have hlt : m < n + 1 := by exact_mod_cast hm
    omega
  unfold roundHalfEven
  split_ifs with hlt hgt heven
  · constructor
    · intro h
      have hle : (⌊q⌋ : ℚ) ≤ n := by exact_mod_cast h
      left
      linarith
    · rintro (h | ⟨h, -⟩) <;> exact hcast _ (by linarith)
  · constructor
    · intro h
      have hle : ((⌊q⌋ + 1 : ℤ) : ℚ) ≤ n := by exact_mod_cast h
      push_cast at hle
      left
      linarith
    · rintro (h | ⟨h, -⟩) <;> refine hcast _ ?_ <;> push_cast <;> linarith
  all_goals
    have hhalf : q = ⌊q⌋ + 1 / 2 := by linarith
  · constructor
    · intro h
      rcases h.lt_or_eq with hlt | rfl
      · have hcast : (⌊q⌋ : ℚ) < n := by exact_mod_cast hlt
        left
        linarith
      · exact Or.inr ⟨hhalf, heven⟩
    · rintro (h | ⟨h, -⟩) <;> exact hcast _ (by linarith)
  · constructor
    · intro h
      have hle : ((⌊q⌋ + 1 : ℤ) : ℚ) ≤ n := by exact_mod_cast h
      push_cast at hle
      left
      linarith
    · rintro (h | ⟨h, hn⟩)
      · refine hcast _ ?_
        push_cast
        have : (⌊q⌋ : ℚ) < n := by linarith
        linarith
      · have hfn : (⌊q⌋ : ℚ) = n := by linarith
        rw [Int.cast_inj.1 hfn] at heven
        exact absurd hn heven

/-! ## Whole hundredths -/

theorem isCents_round2 (q : ℚ) : IsCents (round2 q) := ⟨roundHalfEven (q * 100), rfl⟩

theorem isCents_zero : IsCents 0 := ⟨0, by norm_num⟩

theorem IsCents.add {a b : ℚ} (ha : IsCents a) (hb : IsCents b) : IsCents (a + b) := by
  obtain ⟨m, rfl⟩ := ha
  obtain ⟨n, rfl⟩ := hb
  exact ⟨m + n, by push_cast; ring⟩

theorem IsCents.sub {a b : ℚ} (ha : IsCents a) (hb : IsCents b) : IsCents (a - b) := by
  obtain ⟨m, rfl⟩ := ha
  obtain ⟨n, rfl⟩ := hb
  exact ⟨m - n, by push_cast; ring⟩

theorem IsCents.mul_int {a : ℚ} (ha : IsCents a) (n : ℤ) : IsCents (a * n) := by
  obtain ⟨m, rfl⟩ := ha
  exact ⟨m * n, by push_cast; ring⟩

theorem IsCents.max {a b : ℚ} (ha : IsCents a) (hb : IsCents b) : IsCents (max a b) := by
  rcases max_choice a b with h | h <;> rw [h] <;> assumption

theorem IsCents.min {a b : ℚ} (ha : IsCents a) (hb : IsCents b) : IsCents (min a b) := by
  rcases min_choice a b with h | h <;> rw [h] <;> assumption

theorem isCents_sum {l : List ℚ} (h : ∀ x ∈ l, IsCents x) : IsCents l.sum := by
  induction l with
  | nil => exact isCents_zero
  | cons x l ih =>
    rw [List.sum_cons]
    exact (h x (List.mem_cons_self ..)).add (ih fun y hy => h y (List.mem_cons_of_mem x hy))

theorem evenCents_iff (n : ℤ) : EvenCents ((n : ℚ) / 100) ↔ Even n := by
  constructor
  · rintro ⟨m, hm, he⟩
    have hnm : (n : ℚ) = m := by linarith
    rwa [Int.cast_inj.1 hnm]
  · exact fun h => ⟨n, h, rfl⟩

/-- Between two amounts in whole hundredths there is at least one hundredth. -/
theorem IsCents.add_one_le {a b : ℚ} (ha : IsCents a) (hb : IsCents b) (h : a < b) :
    a + 1 / 100 ≤ b := by
  obtain ⟨m, rfl⟩ := ha
  obtain ⟨n, rfl⟩ := hb
  have hmn : (m : ℚ) < n := by linarith
  have hle : (m : ℚ) + 1 ≤ n := by exact_mod_cast (Int.cast_lt.1 hmn)
  linarith

/-- An amount in whole hundredths within less than a hundredth of another is at most it. -/
theorem IsCents.le_of_lt_add {a b : ℚ} (ha : IsCents a) (hb : IsCents b)
    (h : a < b + 1 / 100) : a ≤ b := by
  by_contra hlt
  have := hb.add_one_le ha (not_le.1 hlt)
  linarith

theorem round2_of_isCents {q : ℚ} (h : IsCents q) : round2 q = q := by
  obtain ⟨n, rfl⟩ := h
  have : (n : ℚ) / 100 * 100 = n := by ring
  rw [round2, this, roundHalfEven_intCast]

@[simp] theorem round2_round2 (q : ℚ) : round2 (round2 q) = round2 q :=
  round2_of_isCents (isCents_round2 q)

@[simp] theorem round2_zero : round2 0 = 0 := round2_of_isCents isCents_zero

/-! ## Error and order -/

theorem abs_round2_sub_le (q : ℚ) : |round2 q - q| ≤ 1 / 200 := by
  have h := abs_roundHalfEven_sub_le (q * 100)
  rw [abs_le] at h ⊢
  unfold round2
  constructor <;> linarith [h.1, h.2]

theorem round2_mono {q r : ℚ} (h : q ≤ r) : round2 q ≤ round2 r := by
  have hr : roundHalfEven (q * 100) ≤ roundHalfEven (r * 100) :=
    roundHalfEven_mono (by linarith)
  have hc : (roundHalfEven (q * 100) : ℚ) ≤ roundHalfEven (r * 100) := by exact_mod_cast hr
  unfold round2
  linarith

theorem round2_nonneg {q : ℚ} (h : 0 ≤ q) : 0 ≤ round2 q := by
  rw [← round2_zero]
  exact round2_mono h

/-- Whole hundredths can be taken out of a rounding, except past a tie whose
outcome their parity decides. -/
theorem round2_add_iff {b : ℚ} (hb : IsCents b) (a : ℚ) :
    round2 (b + a) = b + round2 a ↔ (¬ HalfCent a ∨ EvenCents b) := by
  obtain ⟨n, rfl⟩ := hb
  have hmul : ((n : ℚ) / 100 + a) * 100 = n + a * 100 := by ring
  have hsum : round2 ((n : ℚ) / 100 + a) = n / 100 + round2 a ↔
      roundHalfEven (n + a * 100) = n + roundHalfEven (a * 100) := by
    unfold round2
    rw [hmul]
    constructor
    · intro h
      have : (roundHalfEven (n + a * 100) : ℚ) = n + roundHalfEven (a * 100) := by linarith
      exact_mod_cast this
    · intro h
      rw [h]
      push_cast
      ring
  rw [hsum, roundHalfEven_int_add, evenCents_iff]
  rfl

theorem round2_neg (q : ℚ) : round2 (-q) = -round2 q := by
  unfold round2
  rw [show -q * 100 = -(q * 100) by ring, roundHalfEven_neg]
  push_cast
  ring

theorem halfCent_neg (q : ℚ) : HalfCent (-q) ↔ HalfCent q := by
  have h : Int.fract (-(q * 100)) = 1 / 2 ↔ Int.fract (q * 100) = 1 / 2 := by
    by_cases hwhole : Int.fract (q * 100) = 0
    · rw [Int.fract_neg_eq_zero.2 hwhole, hwhole]
    · rw [Int.fract_neg hwhole]
      constructor <;> intro h <;> linarith
  unfold HalfCent
  rw [show -q * 100 = -(q * 100) by ring]
  exact h

/-- What is rounded to at most a whole number of hundredths. -/
theorem round2_le_iff {b : ℚ} (hb : IsCents b) (q : ℚ) :
    round2 q ≤ b ↔ q < b + 1 / 200 ∨ q = b + 1 / 200 ∧ EvenCents b := by
  obtain ⟨n, rfl⟩ := hb
  have hround : round2 q ≤ n / 100 ↔ roundHalfEven (q * 100) ≤ n := by
    unfold round2
    constructor
    · intro h
      have hle : (roundHalfEven (q * 100) : ℚ) ≤ n := by linarith
      exact_mod_cast hle
    · intro h
      have hle : (roundHalfEven (q * 100) : ℚ) ≤ n := by exact_mod_cast h
      linarith
  rw [hround, roundHalfEven_le_iff, evenCents_iff]
  constructor
  · rintro (h | ⟨h, hn⟩)
    · exact Or.inl (by linarith)
    · exact Or.inr ⟨by linarith, hn⟩
  · rintro (h | ⟨h, hn⟩)
    · exact Or.inl (by linarith)
    · exact Or.inr ⟨by linarith, hn⟩

/-- What is not rounded below zero. -/
theorem round2_nonneg_iff (q : ℚ) : 0 ≤ round2 q ↔ -(1 / 200) ≤ q := by
  have hzero : EvenCents 0 := ⟨0, by simp, by norm_num⟩
  have h := round2_le_iff isCents_zero (-q)
  rw [round2_neg, neg_nonpos] at h
  rw [h]
  constructor
  · rintro (h | ⟨h, -⟩) <;> linarith
  · intro hq
    rcases hq.lt_or_eq with hlt | heq
    · exact Or.inl (by linarith)
    · exact Or.inr ⟨by linarith, hzero⟩

theorem round2_min (x y : ℚ) : round2 (min x y) = min (round2 x) (round2 y) := by
  rcases le_total x y with h | h
  · rw [min_eq_left h, min_eq_left (round2_mono h)]
  · rw [min_eq_right h, min_eq_right (round2_mono h)]

theorem isCents_iff_round2 {x : ℚ} : IsCents x ↔ round2 x = x :=
  ⟨round2_of_isCents, fun h => h ▸ isCents_round2 x⟩

/-! ## The nearest hundredth of another amount -/

/-- The amounts lie on the two sides of the half of a hundredth above `b`.  On it, the second one
lies on the side to which it is rounded. -/
def Across (q r b : ℚ) : Prop :=
  q < b + 1 / 200 ∧ (b + 1 / 200 < r ∨ r = b + 1 / 200 ∧ ¬ EvenCents b) ∨
    b + 1 / 200 < q ∧ (r < b + 1 / 200 ∨ r = b + 1 / 200 ∧ EvenCents b)

theorem lt_round2_iff {b : ℚ} (hb : IsCents b) (r : ℚ) :
    b < round2 r ↔ b + 1 / 200 < r ∨ r = b + 1 / 200 ∧ ¬ EvenCents b := by
  rw [← not_le, round2_le_iff hb]
  simp only [not_or, not_and, not_lt]
  constructor
  · rintro ⟨hle, htie⟩
    rcases hle.lt_or_eq with hlt | heq
    · exact Or.inl hlt
    · exact Or.inr ⟨heq.symm, htie heq.symm⟩
  · rintro (hlt | ⟨heq, hodd⟩)
    · exact ⟨hlt.le, fun heq => absurd heq hlt.ne'⟩
    · exact ⟨heq.ge, fun _ => hodd⟩

/-- An amount is rounded to a nearest hundredth of `q` exactly if no half of a hundredth lies
between the two. -/
theorem abs_round2_sub_le_iff (q r : ℚ) :
    |round2 r - q| ≤ 1 / 200 ↔ ∀ b, IsCents b → ¬ Across q r b := by
  rw [abs_le]
  constructor
  · rintro ⟨hle, hge⟩ b hb (⟨hq, hr⟩ | ⟨hq, hr⟩)
    · have hnext := hb.add_one_le (isCents_round2 r) ((lt_round2_iff hb r).2 hr)
      linarith
    · have hround := (round2_le_iff hb r).2 hr
      linarith
  · intro h
    constructor
    · by_contra hlt
      have hup := h (round2 r) (isCents_round2 r)
      refine hup (Or.inr ⟨by linarith, ?_⟩)
      exact (round2_le_iff (isCents_round2 r) r).1 le_rfl
    · by_contra hlt
      have hcent : IsCents (1 / 100) := ⟨1, by norm_num⟩
      have hb := (isCents_round2 r).sub hcent
      refine h _ hb (Or.inl ⟨by linarith, ?_⟩)
      exact (lt_round2_iff hb r).1 (by linarith)

end Rounding
