import SweetCrust.Data.Rows
import SweetCrust.Lib.Session
import SweetCrust.Lib.Text

/-!
# Who may sell: the first lines of `sell.py`

Every request of a shop as a seller starts with `_shop`, `_approved_shop` or
`_selling_shop`.  The last one also notices that a subscription has run out: it commits
the shop as expired, and refuses.

* `MaySell` — what a selling shop is.
* `sellingShop_returns`, `sellingShop_refuses` — the guard lets exactly these shops through,
  and touches at most the profile of another.
-/

namespace SweetCrust

open Tabular Session Text

namespace Sell

/-- A handler of the store-ops service. -/
abbrev Service (α : Type) : Type := Sess AppError Db α

/-- `_shop`: the profile of a shop that is not blocked, with its key. -/
def shop (userId : ℕ) : Service (ℕ × RetailerProfile) := do
  let db ← get
  let r ← orRaise (profileOf db userId) (.notFound "Shop profile not found")
  raiseIf (r.2.isBlocked = true) (.forbidden "Shop is blocked")
  return r

/-- `_approved_shop`. -/
def approvedShop (userId : ℕ) : Service (ℕ × RetailerProfile) := do
  let r ← shop userId
  raiseIf (r.2.approvalStatus ≠ "approved") (.forbidden "Shop must be KYC-approved first")
  return r

/-- `sell_subscription_status or "none"`. -/
def subscriptionStatus (p : RetailerProfile) : String :=
  (truthy (some p.sellSubscriptionStatus)).getD "none"

/-- The subscription has run out, and is not marked so yet. -/
def RunOut (now : ℕ) (p : RetailerProfile) : Prop :=
  subscriptionStatus p = "approved" ∧ ∃ exp ∈ p.sellSubscriptionExpiresAt, exp < now

instance (now : ℕ) (p : RetailerProfile) : Decidable (RunOut now p) :=
  inferInstanceAs (Decidable (_ ∧ ∃ exp ∈ p.sellSubscriptionExpiresAt, exp < now))

/-- A shop whose subscription has run out. -/
def expired (p : RetailerProfile) : RetailerProfile :=
  { p with sellSubscriptionStatus := "expired" }

/-- The database with the shop marked as expired. -/
def withExpired (i : ℕ) (db : Db) : Db := { db with profiles := db.profiles.modify i expired }

/-- What a shop without a subscription is told. -/
def subscriptionRequired : AppError :=
  .forbidden "Active sell subscription required — choose a plan and pay via Razorpay"

/-- `_selling_shop`: KYC approved, and the subscription approved and not expired. -/
def sellingShop (userId now : ℕ) : Service (ℕ × RetailerProfile) := do
  let r ← approvedShop userId
  if RunOut now r.2 then
    modify (withExpired r.1)
    commit
    raise subscriptionRequired
  else
    raiseIf (subscriptionStatus r.2 ≠ "approved") subscriptionRequired
    return r

/-! ## What the guards do -/

section Guards

variable {s : Db} {u now i : ℕ} {p : RetailerProfile}

/-- The shop is known, approved and not blocked. -/
structure Approved (s : Db) (u i : ℕ) (p : RetailerProfile) : Prop where
  found : profileOf s u = some (i, p)
  unblocked : p.isBlocked = false
  approved : p.approvalStatus = "approved"

/-- The shop may sell. -/
structure MaySell (s : Db) (u now i : ℕ) (p : RetailerProfile) : Prop extends Approved s u i p where
  subscribed : subscriptionStatus p = "approved"
  current : ∀ exp ∈ p.sellSubscriptionExpiresAt, now ≤ exp

theorem shop_returns (hp : profileOf s u = some (i, p)) (hopen : p.isBlocked = false) :
    Returns (shop u) s (i, p) s := by
  unfold shop
  refine Returns.get_bind (Returns.orRaise_bind hp ?_)
  exact Returns.raiseIf_bind (by simp [hopen]) (returns_pure _ s)

theorem shop_raises (h : ∀ i p, profileOf s u = some (i, p) → p.isBlocked = true) :
    Raises (shop u) s s := by
  unfold shop
  cases hp : profileOf s u with
  | none => exact Raises.get_bind (raises_orRaise_bind hp _ _ s)
  | some r =>
    refine Raises.get_bind (Raises.orRaise_bind hp ?_)
    exact raises_raiseIf_bind (h r.1 r.2 hp) _ _ s

theorem approvedShop_returns (h : Approved s u i p) : Returns (approvedShop u) s (i, p) s := by
  unfold approvedShop
  refine (shop_returns h.found h.unblocked).bind ?_
  exact Returns.raiseIf_bind (not_not.2 h.approved) (returns_pure _ s)

theorem approvedShop_raises (h : ∀ i p, ¬ Approved s u i p) : Raises (approvedShop u) s s := by
  unfold approvedShop
  by_cases hshop : ∀ i p, profileOf s u = some (i, p) → p.isBlocked = true
  · exact (shop_raises hshop).bind _
  · simp only [not_forall, Bool.not_eq_true] at hshop
    obtain ⟨i, p, hp, hopen⟩ := hshop
    have hrefused : p.approvalStatus ≠ "approved" := fun happroved => h i p ⟨hp, hopen, happroved⟩
    exact (shop_returns hp hopen).bind_raises (raises_raiseIf_bind hrefused _ _ s)

/-- A shop that may sell gets through. -/
theorem sellingShop_returns (h : MaySell s u now i p) : Returns (sellingShop u now) s (i, p) s := by
  unfold sellingShop
  refine (approvedShop_returns h.toApproved).bind ?_
  have hcurrent : ¬ RunOut now p := by
    rintro ⟨_, exp, hexp, hlt⟩
    have hle := h.current exp hexp
    omega
  rw [if_neg hcurrent]
  exact Returns.raiseIf_bind (not_not.2 h.subscribed) (returns_pure _ s)

/-- A shop that may not sell is refused, and marked as expired if its subscription has run out. -/
theorem sellingShop_refuses (h : ∀ i p, ¬ MaySell s u now i p) :
    ∃ t, Raises (sellingShop u now) s t ∧
      (t = s ∨ ∃ i p, profileOf s u = some (i, p) ∧ RunOut now p ∧ t = withExpired i s) := by
  unfold sellingShop
  by_cases happroved : ∃ i p, Approved s u i p
  · obtain ⟨i, p, happroved⟩ := happroved
    have hshop := approvedShop_returns happroved
    by_cases hout : RunOut now p
    · refine ⟨withExpired i s, hshop.bind_raises ?_, Or.inr ⟨i, p, happroved.found, hout, rfl⟩⟩
      rw [if_pos hout]
      exact Raises.modify_commit (raises_raise _ _)
    · refine ⟨s, hshop.bind_raises ?_, Or.inl rfl⟩
      have hrefused : subscriptionStatus p ≠ "approved" := by
        intro hsub
        refine h i p ⟨happroved, hsub, fun exp hexp => ?_⟩
        by_contra hlt
        exact hout ⟨hsub, exp, hexp, not_le.1 hlt⟩
      rw [if_neg hout]
      exact raises_raiseIf_bind hrefused _ _ s
  · simp only [not_exists] at happroved
    exact ⟨s, (approvedShop_raises happroved).bind _, Or.inl rfl⟩

/-- A refused shop is touched at most in its profile. -/
theorem sellingShop_raises (h : ∀ i p, ¬ MaySell s u now i p) :
    ∃ t, Raises (sellingShop u now) s t ∧ ∃ profiles, t = { s with profiles := profiles } := by
  obtain ⟨t, hraises, rfl | ⟨i, p, -, -, rfl⟩⟩ := sellingShop_refuses h
  · exact ⟨t, hraises, t.profiles, rfl⟩
  · exact ⟨_, hraises, _, rfl⟩

/-- What a selling operation does before its own work. -/
theorem sellingShop_cases (s : Db) (u now : ℕ) :
    final (sellingShop u now) s = s ∨
      ∃ i p, profileOf s u = some (i, p) ∧ RunOut now p ∧
        final (sellingShop u now) s = withExpired i s := by
  by_cases hsell : ∃ i p, MaySell s u now i p
  · obtain ⟨i, p, hsell⟩ := hsell
    exact Or.inl (sellingShop_returns hsell).final
  · simp only [not_exists] at hsell
    obtain ⟨t, hraises, ht⟩ := sellingShop_refuses hsell
    rw [hraises.final]
    exact ht

end Guards

end Sell

end SweetCrust
