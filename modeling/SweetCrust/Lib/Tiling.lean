import Mathlib

/-!
# Spans that tile an interval

A list of half-open spans tiles an interval when each begins where the one before it ends.

* `Tiles` — the spans tile the interval.
* `Tiles.countP_eq_one` — a point of the interval lies in exactly one span.
* `Tiles.sum_map_sum` — what is summed span by span is what is summed over the interval.
* `tiles_range` — equal spans in a row.
-/

namespace Tiling

variable {α M : Type}

/-- The point lies in the span. -/
def Within (span : ℕ × ℕ) (x : ℕ) : Prop := span.1 ≤ x ∧ x < span.2

instance (span : ℕ × ℕ) (x : ℕ) : Decidable (Within span x) := inferInstanceAs (Decidable (_ ∧ _))

theorem within_iff {a b x : ℕ} : Within (a, b) x ↔ a ≤ x ∧ x < b := Iff.rfl

/-- The spans follow one another from `a` to `c`. -/
inductive Tiles : ℕ → ℕ → List (ℕ × ℕ) → Prop
  | nil (a : ℕ) : Tiles a a []
  | cons {a b c : ℕ} {spans : List (ℕ × ℕ)} (hlt : a < b) (hrest : Tiles b c spans) :
      Tiles a c ((a, b) :: spans)

section Points

variable {a b c x : ℕ} {spans : List (ℕ × ℕ)}

theorem Tiles.le (h : Tiles a c spans) : a ≤ c := by
  induction h with
  | nil => exact le_rfl
  | cons hlt _ ih => exact hlt.le.trans ih

/-- No span begins before the interval. -/
theorem Tiles.countP_eq_zero (h : Tiles a c spans) (hx : x < a) :
    spans.countP (fun s => Within s x) = 0 := by
  induction h with
  | nil => rfl
  | @cons a b c spans hlt hrest ih =>
    have hout : ¬ Within (a, b) x := fun hin => absurd hin.1 (not_le.2 hx)
    rw [List.countP_cons_of_neg (by simpa using hout)]
    exact ih (by omega)

/-- A point of the interval lies in exactly one span. -/
theorem Tiles.countP_eq_one (h : Tiles a c spans) (hx : Within (a, c) x) :
    spans.countP (fun s => Within s x) = 1 := by
  induction h with
  | nil => exact absurd (lt_of_le_of_lt hx.1 hx.2) (lt_irrefl _)
  | @cons a b c spans hlt hrest ih =>
    by_cases hb : x < b
    · rw [List.countP_cons_of_pos (by simpa only [decide_eq_true_eq] using ⟨hx.1, hb⟩),
        hrest.countP_eq_zero hb]
    · have hout : ¬ Within (a, b) x := fun hin => hb hin.2
      rw [List.countP_cons_of_neg (by simpa using hout)]
      exact ih ⟨not_lt.1 hb, hx.2⟩

theorem Tiles.append {spans' : List (ℕ × ℕ)} (h : Tiles a b spans) (h' : Tiles b c spans') :
    Tiles a c (spans ++ spans') := by
  induction h with
  | nil => exact h'
  | cons hlt _ ih => exact Tiles.cons hlt (ih h')

/-- Spans of one width in a row. -/
theorem tiles_range (a : ℕ) {width : ℕ} (hwidth : 0 < width) (n : ℕ) :
    Tiles a (a + n * width)
      ((List.range n).map fun i => (a + i * width, a + i * width + width)) := by
  induction n with
  | zero =>
    rw [Nat.zero_mul]
    exact Tiles.nil a
  | succ n ih =>
    have hlast : a + n * width + width = a + (n + 1) * width := by ring
    rw [List.range_succ, List.map_append, ← hlast]
    exact ih.append (Tiles.cons (by omega) (Tiles.nil _))

end Points

section Sums

variable [AddCommMonoid M] {a c : ℕ} {spans : List (ℕ × ℕ)}

/-- What the rows with keys in a span add up to. -/
def sumWithin (key : α → ℕ) (value : α → M) (rows : List α) (span : ℕ × ℕ) : M :=
  ((rows.filter fun r => Within span (key r)).map value).sum

theorem sumWithin_cons (key : α → ℕ) (value : α → M) (r : α) (rows : List α) (span : ℕ × ℕ) :
    sumWithin key value (r :: rows) span =
      (if Within span (key r) then value r else 0) + sumWithin key value rows span := by
  unfold sumWithin
  by_cases h : Within span (key r)
  · rw [List.filter_cons_of_pos (by simpa using h), List.map_cons, List.sum_cons, if_pos h]
  · rw [List.filter_cons_of_neg (by simpa using h), if_neg h, zero_add]

/-- A row of the whole is a row of one of two parts. -/
theorem ite_within_split {a b c x : ℕ} (hab : a ≤ b) (hbc : b ≤ c) (v : M) :
    (if Within (a, c) x then v else 0) =
      (if Within (a, b) x then v else 0) + if Within (b, c) x then v else 0 := by
  by_cases hb : x < b
  · rw [if_neg (show ¬ Within (b, c) x by rw [within_iff]; omega), add_zero]
    exact if_congr (by rw [within_iff, within_iff]; omega) rfl rfl
  · rw [if_neg (show ¬ Within (a, b) x by rw [within_iff]; omega), zero_add]
    exact if_congr (by rw [within_iff, within_iff]; omega) rfl rfl

theorem sumWithin_split {key : α → ℕ} {value : α → M} {a b c : ℕ} (hab : a ≤ b) (hbc : b ≤ c)
    (rows : List α) : sumWithin key value rows (a, c) =
      sumWithin key value rows (a, b) + sumWithin key value rows (b, c) := by
  induction rows with
  | nil => exact (add_zero 0).symm
  | cons r rows ih =>
    rw [sumWithin_cons, sumWithin_cons, sumWithin_cons, ih, ite_within_split hab hbc,
      add_add_add_comm]

/-- What is summed span by span is what is summed over the interval. -/
theorem Tiles.sum_map_sum (h : Tiles a c spans) (key : α → ℕ) (value : α → M) (rows : List α) :
    (spans.map (sumWithin key value rows)).sum = sumWithin key value rows (a, c) := by
  induction h with
  | nil a =>
    have hnone : (rows.filter fun r => Within (a, a) (key r)) = [] := by
      rw [List.filter_eq_nil_iff]
      intro r _ hin
      have hmem : Within (a, a) (key r) := by simpa using hin
      exact absurd (lt_of_le_of_lt hmem.1 hmem.2) (lt_irrefl a)
    rw [sumWithin, hnone]
    rfl
  | cons hlt hrest ih =>
    rw [List.map_cons, List.sum_cons, ih, sumWithin_split hlt.le hrest.le]

/-- Rows that all lie in the interval are all summed. -/
theorem sumWithin_eq_sum {key : α → ℕ} {value : α → M} {rows : List α}
    (h : ∀ r ∈ rows, Within (a, c) (key r)) :
    sumWithin key value rows (a, c) = (rows.map value).sum := by
  rw [sumWithin, List.filter_eq_self.2 fun r hr => by simpa using h r hr]

end Sums

end Tiling
