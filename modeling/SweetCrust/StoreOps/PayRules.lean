import SweetCrust.Data.Rows
import SweetCrust.Lib.Decimal
import SweetCrust.Lib.Guard

/-!
# Shared down-payment rules: `pay_rules.py`

The first payment of a bill must cover most of it; the remainder may be paid later in
any parts.
-/

namespace SweetCrust

open Guard Rounding Decimal

namespace PayRules

/-- `MIN_FIRST_PAY_RATIO`: the share of the bill that the first payment must cover. -/
def minFirstPayRatio : ℚ := 4 / 5

/-- `min_first_pay`. -/
def minFirstPay (total : ℚ) : ℚ := round2 (total * minFirstPayRatio)

/-- `₹` and an amount with its paise. -/
def money (x : ℚ) : String := "₹" ++ String.ofList (fixed2 x)

/-- `assert_first_or_partial_pay`. -/
def assertFirstOrPartialPay (total alreadyPaid pay : ℚ) : Except AppError Unit := do
  let total := round2 total
  let already := round2 alreadyPaid
  let pay := round2 pay
  let due := round2 (total - already)
  raiseIf (pay ≤ 0) (.badRequest "Pay amount must be > 0")
  raiseIf (due + 1 / 100 < pay) (.badRequest ("Pay amount must be at most " ++ money due))
  let need := minFirstPay total
  raiseIf (already ≤ 1 / 1000 ∧ pay + 1 / 100 < need ∧ pay + 1 / 100 < due)
    (.badRequest ("First payment must be at least 80% (" ++ money need ++
      "). Rest can be paid later."))

/-- A payment that the check lets through is positive. -/
theorem pos_of_rules {total already pay : ℚ} (hc : IsCents pay)
    (h : assertFirstOrPartialPay total already pay = .ok ()) : 0 < pay := by
  unfold assertFirstOrPartialPay at h
  rw [raiseIf_bind_eq_ok, round2_of_isCents hc] at h
  exact not_le.1 h.1

end PayRules

end SweetCrust
