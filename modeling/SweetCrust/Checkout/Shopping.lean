import SweetCrust.Checkout.Checkout
import SweetCrust.Lib.Runs
import SweetCrust.Orders.Reorder

/-!
# Shopping

Everything that customers do with their carts: fill and change them, put the items of a
past order in again, apply a coupon, and buy.

* `step_cases` — a request touches lines, carts and settings only, or it is a checkout that
  is accepted.
-/

namespace SweetCrust

open Tabular Session Carts Checkout Runs

namespace Promotion

section Effects

variable {s : Db} {u : ℕ}

/-- Applying a coupon is refused, or it marks the customer's cart. -/
theorem applyCoupon_cases (u : ℕ) (code : String) (s : Db) :
    Raises (applyCoupon u code) s s ∨
      ∃ k coupon, activeCoupon s (String.ofList (Text.upper code.toList)) = some (k, coupon) ∧
        final (applyCoupon u code) s =
          prepared u (couponed (cartFor s u).1 coupon.code (withCart u s)) := by
  unfold applyCoupon
  cases hc : activeCoupon s (String.ofList (Text.upper code.toList)) with
  | none => exact Or.inl (Raises.get_bind (raises_orRaise_bind hc _ _ s))
  | some r =>
    right
    refine ⟨r.1, r.2, rfl, ?_⟩
    rw [final_get_bind, hc, final_orRaise_some_bind, (getOrCreateCart_returns u s).final_bind]
    exact (Returns.modify_commit ((cartSummary_returns u _).bind
      (f := fun summary => pure (withoutShop summary)) (returns_pure _ _))).final

theorem frame_applyCoupon (u : ℕ) (code : String) (s : Db) :
    Frame s (final (applyCoupon u code) s) := by
  rcases applyCoupon_cases u code s with h | ⟨k, coupon, _, h⟩
  · rw [h.final]
    exact Frame.refl s
  · rw [h]
    exact (frame_withCart u s).trans (Frame.trans ⟨_, _, _, rfl⟩ (frame_prepared u _))

theorem cartItems_applyCoupon (u : ℕ) (code : String) (s : Db) :
    (final (applyCoupon u code) s).cartItems = s.cartItems := by
  rcases applyCoupon_cases u code s with h | ⟨k, coupon, _, h⟩
  · rw [h.final]
  · rw [h, prepared_cartItems]
    exact withCart_cartItems u s

end Effects

end Promotion

namespace Shopping

/-- A request of a customer. -/
inductive Request
  | cart (r : Carts.Request)
  | reorder (orderId userId : ℕ)
  | coupon (userId : ℕ) (code : String)
  | checkout (userId : ℕ) (data : CheckoutIn) (draws : Draws)

/-- What a request leaves in the database. -/
def step (db : Db) : Request → Db
  | .cart r => act db r
  | .reorder o u => final (Orders.OrderService.reorder o u) db
  | .coupon u code => final (Promotion.applyCoupon u code) db
  | .checkout u data draws => final (checkout u data draws) db

/-- The order that a request creates. -/
def created (db : Db) : Request → Option ℕ
  | .checkout u data draws => (checkout u data draws db).2.toOption.map Prod.fst
  | _ => none

section Steps

variable {s : Db} {r : Request} {o : ℕ}

/-- A request that is not an accepted checkout touches lines, carts and settings only, and one
that is refused no lines. -/
theorem step_cases (s : Db) (r : Request) :
    Frame s (step s r) ∧ (∀ u data draws, r = .checkout u data draws → step s r = prepared u s) ∨
      ∃ u data draws q, r = .checkout u data draws ∧ quoted s u data = some q ∧
        step s r = checkedOut draws q (prepared u s) := by
  cases r with
  | cart r => exact Or.inl ⟨(change_act s r).2, by simp⟩
  | reorder o u => exact Or.inl ⟨Orders.OrderService.frame_reorder o u s, by simp⟩
  | coupon u code => exact Or.inl ⟨Promotion.frame_applyCoupon u code s, by simp⟩
  | checkout u data draws =>
    cases hq : quoted s u data with
    | none =>
      left
      have ht : step s (.checkout u data draws) = prepared u s := (checkout_refused hq draws).1
      refine ⟨ht ▸ frame_prepared u s, ?_⟩
      rintro u' data' draws' ⟨⟩
      exact ht
    | some q => exact Or.inr ⟨u, data, draws, q, rfl, hq, (checkout_returns hq draws).final⟩

/-- Only an accepted checkout creates an order, under the next key. -/
theorem created_eq_some (h : created s r = some o) :
    ∃ u data draws q, r = .checkout u data draws ∧ quoted s u data = some q ∧
      o = s.orders.next ∧ step s r = checkedOut draws q (prepared u s) := by
  cases r with
  | checkout u data draws =>
    cases hq : quoted s u data with
    | none =>
      obtain ⟨e, he⟩ := (checkout_refused hq draws).2
      simp only [created, he, Except.toOption, Option.map_none] at h
      cases h
    | some q =>
      have hreturns := checkout_returns hq draws
      simp only [created, hreturns.outcome, Except.toOption, Option.map_some] at h
      cases h
      exact ⟨u, data, draws, q, rfl, hq, congrArg Table.next (frame_prepared u s).orders,
        hreturns.final⟩
  | _ => cases h

end Steps

end Shopping

end SweetCrust
