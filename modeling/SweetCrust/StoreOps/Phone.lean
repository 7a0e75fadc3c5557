import SweetCrust.Auth.SignIn

/-!
# Phone numbers

Two services write a phone in the form in which accounts are compared.  Ten digits get the
country code, whatever stands between them; any other number that begins with a plus is taken as
it is written.

* `normalizePhone` — `normalize_phone` of the store, beside `Auth.normalizePhone`.
* `full` — the digits of a phone with their country code.
* `SameNumber` — two phones denote one subscriber.
* `Plain` — a phone that is taken as it is written has nothing but its digits.
* `normalizePhone_eq_iff`, `normalizePhone_idem` — when two spellings of one number get the same
  form, and the form of a form.
-/

namespace SweetCrust

open Decimal

namespace Phones

/-- The digits of a phone. -/
def digits (phone : String) : List Char := phone.toList.filter isdigit

/-- `normalize_phone`. -/
def normalizePhone (phone : String) : String :=
  let digits := phone.toList.filter isdigit
  if digits.length = 10 then "+91" ++ String.ofList digits
  else if phone.toList.head? = some '+' then phone
  else if digits ≠ [] then "+" ++ String.ofList digits
  else phone

/-- The subscriber that a phone denotes: twelve digits that begin with 91 have the country code
in front. -/
def subscriber (phone : String) : List Char :=
  if (digits phone).length = 12 ∧ (digits phone).take 2 = ['9', '1'] then (digits phone).drop 2
  else digits phone

/-- Two phones have digits, and these denote the same subscriber. -/
def SameNumber (p q : String) : Prop := digits p ≠ [] ∧ subscriber p = subscriber q

instance (p q : String) : Decidable (SameNumber p q) := inferInstanceAs (Decidable (_ ∧ _))

/-- The phone begins with a plus and has not ten digits. -/
def Kept (phone : String) : Prop := phone.toList.head? = some '+' ∧ (digits phone).length ≠ 10

instance (phone : String) : Decidable (Kept phone) := inferInstanceAs (Decidable (_ ∧ _))

/-- Where the phone is kept as it is written, it is a plus and digits. -/
def Plain (phone : String) : Prop := Kept phone → phone = "+" ++ String.ofList (digits phone)

instance (phone : String) : Decidable (Plain phone) := inferInstanceAs (Decidable (_ → _))

/-- The digits of the phone, with the country code before ten of them. -/
def full (phone : String) : String :=
  if (digits phone).length = 10 then "+91" ++ String.ofList (digits phone)
  else "+" ++ String.ofList (digits phone)

section Spellings

variable {p q : String}

/-- A phone with digits is kept as it is written or written in full. -/
theorem normalizePhone_eq (h : digits p ≠ []) :
    normalizePhone p = if Kept p then p else full p := by
  have hdigits : p.toList.filter isdigit = digits p := rfl
  simp only [normalizePhone, hdigits, Kept, full]
  by_cases hten : (digits p).length = 10
  · simp [hten]
  · by_cases hplus : p.toList.head? = some '+'
    · simp [hten, hplus]
    · simp [hten, hplus, h]

/-- The two services agree on phones that have digits. -/
theorem auth_normalizePhone_eq (h : digits p ≠ []) :
    Auth.normalizePhone p = normalizePhone p := by
  unfold Auth.normalizePhone normalizePhone
  simp only [show p.toList.filter isdigit ≠ [] from h, ne_eq, not_false_eq_true, if_true]

theorem SameNumber.symm (h : SameNumber p q) : SameNumber q p := by
  refine ⟨fun hq => ?_, h.2.symm⟩
  have hsub : subscriber p = [] := h.2.trans (by simp [subscriber, hq])
  unfold subscriber at hsub
  split at hsub
  · next hlong =>
    have hlen := congrArg List.length hsub
    simp only [List.length_drop, List.length_nil] at hlen
    omega
  · exact h.1 hsub

theorem SameNumber.trans {r : String} (h : SameNumber p q) (h' : SameNumber q r) :
    SameNumber p r := ⟨h.1, h.2.trans h'.2⟩

/-- The number in full is that of its subscriber. -/
theorem full_eq (p : String) : full p =
    if (subscriber p).length = 10 then "+91" ++ String.ofList (subscriber p)
    else "+" ++ String.ofList (subscriber p) := by
  by_cases hlong : (digits p).length = 12 ∧ (digits p).take 2 = ['9', '1']
  · have hdrop : ((digits p).drop 2).length = 10 := by
      rw [List.length_drop, hlong.1]
    have hsplit : digits p = '9' :: '1' :: (digits p).drop 2 := by
      conv_lhs => rw [← List.take_append_drop 2 (digits p), hlong.2]
      rfl
    rw [full, subscriber, if_neg (by omega), if_pos hlong, if_pos hdrop]
    conv_lhs => rw [hsplit]
    apply String.toList_inj.1
    simp
  · rw [full, subscriber, if_neg hlong]

theorem SameNumber.full_eq (h : SameNumber p q) : full p = full q := by
  rw [Phones.full_eq p, Phones.full_eq q, h.2]

theorem digits_full (p : String) : digits (full p) =
    if (digits p).length = 10 then '9' :: '1' :: digits p else digits p := by
  have hplus : isdigit '+' = false := by decide
  have hnine : isdigit '9' = true := by decide
  have hone : isdigit '1' = true := by decide
  unfold full
  split_ifs <;> simp [digits, hplus, hnine, hone]

/-- In full, a number is kept as it is written. -/
theorem kept_full (p : String) : Kept (full p) := by
  constructor
  · unfold full
    split_ifs <;> simp
  · rw [digits_full]
    split_ifs with hten
    · simp [hten]
    · exact hten

theorem full_eq_digits (p : String) : full p = "+" ++ String.ofList (digits (full p)) := by
  rw [digits_full]
  apply String.toList_inj.1
  unfold full
  split_ifs <;> simp

/-- A phone that is kept and plain is written in full. -/
theorem full_of_plain (hkept : Kept p) (hplain : Plain p) : full p = p := by
  rw [full, if_neg hkept.2]
  exact (hplain hkept).symm

theorem subscriber_full (p : String) : subscriber (full p) = subscriber p := by
  unfold subscriber
  rw [digits_full]
  split_ifs with hten hlong hlong <;> simp_all

theorem normalizePhone_of_digits_nil (h : digits p = []) : normalizePhone p = p := by
  have hfilter : p.toList.filter isdigit = [] := h
  simp [normalizePhone, hfilter]

/-- The form of a phone denotes what the phone denotes. -/
theorem sameNumber_normalizePhone (h : digits p ≠ []) : SameNumber p (normalizePhone p) := by
  refine ⟨h, ?_⟩
  rw [normalizePhone_eq h]
  split_ifs
  · rfl
  · exact (subscriber_full p).symm

theorem normalizePhone_of_plain (h : digits p ≠ []) (hplain : Plain p) :
    normalizePhone p = full p := by
  rw [normalizePhone_eq h]
  split_ifs with hkept
  · exact (full_of_plain hkept hplain).symm
  · rfl

/-- Where a phone and another spelling of its number get one form, the phone is plain. -/
theorem plain_of_normalizePhone_eq (h : SameNumber p q) (hne : p ≠ q)
    (heq : normalizePhone p = normalizePhone q) : Plain p := by
  intro hkept
  rw [normalizePhone_eq h.1, if_pos hkept, normalizePhone_eq h.symm.1] at heq
  split_ifs at heq
  · exact absurd heq hne
  · rw [heq]
    exact full_eq_digits q

/-- Two spellings of one number get the same form exactly if they are one spelling, or neither
is kept with anything but digits. -/
theorem normalizePhone_eq_iff (h : SameNumber p q) :
    normalizePhone p = normalizePhone q ↔ p = q ∨ Plain p ∧ Plain q := by
  constructor
  · intro heq
    by_cases hpq : p = q
    · exact Or.inl hpq
    · exact Or.inr ⟨plain_of_normalizePhone_eq h hpq heq,
        plain_of_normalizePhone_eq h.symm (Ne.symm hpq) heq.symm⟩
  · rintro (rfl | ⟨hp, hq⟩)
    · rfl
    · rw [normalizePhone_of_plain h.1 hp, normalizePhone_of_plain h.symm.1 hq, h.full_eq]

/-- The form of a phone is its own form. -/
theorem normalizePhone_idem (p : String) :
    normalizePhone (normalizePhone p) = normalizePhone p := by
  by_cases h : digits p = []
  · rw [normalizePhone_of_digits_nil h, normalizePhone_of_digits_nil h]
  · rw [normalizePhone_eq h]
    split_ifs with hkept
    · rw [normalizePhone_eq h, if_pos hkept]
    · have hdigits : digits (full p) ≠ [] := by
        rw [digits_full]
        split_ifs
        · exact List.cons_ne_nil _ _
        · exact h
      rw [normalizePhone_eq hdigits, if_pos (kept_full p)]

theorem auth_normalizePhone_of_digits_nil (h : digits p = []) :
    Auth.normalizePhone p = p ∨ Auth.normalizePhone p = "+" := by
  have hfilter : p.toList.filter isdigit = [] := h
  by_cases hplus : p.toList.head? = some '+'
  · exact Or.inl (by simp [Auth.normalizePhone, hfilter, hplus])
  · exact Or.inr (by simp [Auth.normalizePhone, hfilter, hplus])

theorem auth_normalizePhone_idem (p : String) :
    Auth.normalizePhone (Auth.normalizePhone p) = Auth.normalizePhone p := by
  by_cases h : digits p = []
  · rcases auth_normalizePhone_of_digits_nil h with heq | heq
    · rw [heq, heq]
    · rw [heq]
      decide
  · have hsame : digits (normalizePhone p) ≠ [] := (sameNumber_normalizePhone h).symm.1
    rw [auth_normalizePhone_eq h, auth_normalizePhone_eq hsame, normalizePhone_idem]

end Spellings

end Phones

end SweetCrust
