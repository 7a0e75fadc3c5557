import SweetCrust.Lib.Rounding

/-!
# Totals that are rounded as they run

A total that is rounded to paise after every amount is the sum, where the amounts are whole paise.
-/

namespace Rounding

/-- The total of amounts, rounded after each. -/
def runningRound (l : List ℚ) : ℚ := l.foldl (fun total x => round2 (total + x)) 0

/-- Rounding leaves a running total of whole paise alone. -/
theorem foldl_round2_of_isCents {l : List ℚ} {start : ℚ} (hstart : IsCents start)
    (h : ∀ x ∈ l, IsCents x) :
    l.foldl (fun total x => round2 (total + x)) start = start + l.sum := by
  induction l generalizing start with
  | nil => exact (add_zero start).symm
  | cons x l ih =>
    have hnext : IsCents (start + x) := hstart.add (h x List.mem_cons_self)
    rw [List.foldl_cons, round2_of_isCents hnext,
      ih hnext fun y hy => h y (List.mem_cons_of_mem x hy), List.sum_cons, add_assoc]

theorem runningRound_of_isCents {l : List ℚ} (h : ∀ x ∈ l, IsCents x) :
    runningRound l = l.sum := by
  rw [runningRound, foldl_round2_of_isCents isCents_zero h, zero_add]

end Rounding
