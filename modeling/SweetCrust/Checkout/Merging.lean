import SweetCrust.Checkout.SingleShop
import SweetCrust.Lib.Merge

/-!
# What a cart remembers of what was added

`add_to_cart` merges what is added into the line of the same product and variant.  So of
everything else that a line says — the flavor, whether it is eggless, the price — a cart
remembers the first addition only.

* `lines` — the lines of a cart, merged by product and variant.
* `collects_act` — adding products of one shop collects their lines.
* `total_created` — the items of an order are the lines collected, with the flavors and
  prices that came first.
-/

namespace SweetCrust

open Tabular Session Carts Checkout Shopping

namespace Merging

/-- An addition to a cart. -/
structure Choice where
  productId : ℕ
  quantity : Quantity
  variant : Option String
  flavor : Option String
  isEggless : Bool

/-- The request of a customer who adds to the cart. -/
def Choice.request (userId : ℕ) (a : Choice) : Carts.Request :=
  .add userId a.productId a.quantity a.variant a.flavor a.isEggless

/-- The product that is added, if the addition goes through. -/
def accepted (products : Table Product) (a : Choice) : Option Product :=
  (products.get? a.productId).filter fun p =>
    p.isActive = true ∧ (sellerOf p).isSome = true ∧ (a.quantity : ℤ) ≤ p.stockQty

/-- The line that an addition makes in a cart, if it goes through. -/
def choiceLine (c : ℕ) (products : Table Product) (a : Choice) : Option CartItem :=
  (accepted products a).map (newLine c a.productId a.quantity a.variant a.flavor a.isEggless)

/-- What a line says beyond its product, its variant and its quantity. -/
structure Mark where
  flavor : Option String
  isEggless : Bool
  unitPrice : ℚ

/-- The lines of a cart, merged by product and variant. -/
def lines (c : ℕ) : Merge CartItem (ℕ × Option String) Mark where
  live := inCart c
  key i := (i.productId, i.variant)
  mark i := ⟨i.flavor, i.isEggless, i.unitPrice⟩
  quantity := CartItem.quantity
  more := addQuantity
  live_more _ _ := rfl
  key_more _ _ := rfl
  mark_more _ _ := rfl
  quantity_more _ _ := rfl

section Adding

variable {s t : Db} {u c o shop : ℕ} {a : Choice} {l : List CartItem}

theorem accepted_eq_some {product : Product} :
    accepted s.products a = some product ↔ ∃ shop, Addable s a.productId a.quantity product shop := by
  unfold accepted
  rw [Option.filter_eq_some_iff]
  constructor
  · rintro ⟨hget, hok⟩
    simp only [decide_eq_true_eq] at hok
    obtain ⟨shop, hshop⟩ := Option.isSome_iff_exists.1 hok.2.1
    exact ⟨shop, hget, hok.1, hshop, hok.2.2⟩
  · rintro ⟨shop, hget, hactive, hshop, hstock⟩
    exact ⟨hget, by simp [hactive, hshop, hstock]⟩

theorem cartItems_putLine (c : ℕ) (line : CartItem) (s : Db) :
    (putLine c line s).cartItems = (lines c).put line s.cartItems := by
  have hkey : (fun item => decide (inCart c item = true ∧ item.productId = line.productId ∧
      item.variant = line.variant)) = (lines c).hasKey ((lines c).key line) := by
    funext item
    simp [lines, Merge.hasKey]
  unfold putLine Merge.put
  rw [hkey]
  cases s.cartItems.first? _ <;> rfl

/-- Nothing is cleared from a cart of the shop. -/
theorem clearOtherShops_of_collects (h : (lines c).Collects s.cartItems l)
    (hl : ∀ i ∈ l, shopOf s.products i.productId = some shop) : clearOtherShops c shop s = s := by
  have hkept : s.cartItems.remove (fun _ item => inCart c item && ofOtherShop s shop item) =
      s.cartItems := by
    refine Table.remove_of_forall_not fun r hr => ?_
    by_cases hlive : inCart c r.2 = true
    · obtain ⟨i, hi, hkey⟩ := h.exists_of_live (Table.get?_eq_some.2 hr) hlive
      have hproduct : i.productId = r.2.productId := congrArg Prod.fst hkey
      have hshop : (s.products.get? r.2.productId).bind sellerOf = some shop := hproduct ▸ hl i hi
      simp [ofOtherShop, hshop]
    · simp [hlive]
  unfold clearOtherShops
  rw [hkept]

/-- Adding a product of the shop that the cart is of. -/
theorem collects_act (h : (lines c).Collects s.cartItems l) (hc : (cartFor s u).1 = c)
    (hl : ∀ i ∈ l, shopOf s.products i.productId = some shop)
    (ha : shopOf s.products a.productId = some shop) :
    (lines c).Collects (act s (a.request u)).cartItems
        (l ++ (choiceLine c s.products a).toList) ∧
      (cartFor (act s (a.request u)) u).1 = c := by
  cases hp : accepted s.products a with
  | none =>
    have hnot : ∀ product shop, ¬ Addable s a.productId a.quantity product shop := by
      intro product shop hadd
      have hsome := accepted_eq_some.2 ⟨shop, hadd⟩
      rw [hp] at hsome
      cases hsome
    have hsame : act s (a.request u) = s :=
      (addToCart_raises u hnot a.variant a.flavor a.isEggless).final
    rw [hsame]
    simpa [choiceLine, hp] using ⟨h, hc⟩
  | some product =>
    obtain ⟨seller, hadd⟩ := accepted_eq_some.1 hp
    have hseller : seller = shop := by
      have hshop : shopOf s.products a.productId = some seller := by
        simp [shopOf, hadd.found, hadd.shop]
      exact Option.some.inj (hshop.symm.trans ha)
    subst hseller
    have hact : act s (a.request u) = prepared u (added u a.productId a.quantity a.variant a.flavor
        a.isEggless product seller s) :=
      (addToCart_returns u hadd a.variant a.flavor a.isEggless).final
    rw [hact]
    refine ⟨?_, ?_⟩
    · have hcart : (lines c).Collects (withCart u s).cartItems l := by
        rw [withCart_cartItems]
        exact h
      have hclear : clearOtherShops c seller (withCart u s) = withCart u s := by
        refine clearOtherShops_of_collects hcart ?_
        rw [(frame_withCart u s).products]
        exact hl
      rw [prepared_cartItems, added, hc, hclear, cartItems_putLine]
      simp only [choiceLine, hp, Option.map_some, Option.toList_some]
      exact Merge.collects_put hcart (by simp [lines, inCart, newLine])
    · rw [cartFor_of_carts (s := s), hc]
      rw [prepared_carts_of (added_carts _ _ _ _ _ _ _ _ s)]

/-- The items of an order, as the lines that were collected. -/
theorem total_created {A : Type} [AddCommGroup A]
    (hrefs : s.orderItems.All fun i => i.orderId < s.orders.next)
    (h : (lines (cartFor s u).1).Collects s.cartItems l) {data : CheckoutIn} {draws : Draws}
    (hout : (checkout u data draws s).2 = .ok (o, t))
    (f : OrderItem → A) (g : ℕ × Option String → Mark → ℤ →+ A)
    (hfg : ∀ r, f (orderItem o s.products (lineOf s r)) =
      g (r.2.productId, r.2.variant) ⟨r.2.flavor, r.2.isEggless, r.2.unitPrice⟩ r.2.quantity) :
    t.orderItems.total (fun i => if i.orderId = o then f i else 0) =
      (l.map fun i => g (i.productId, i.variant) ((lines (cartFor s u).1).firstMark l i)
        i.quantity).sum := by
  obtain ⟨q, hq, rfl, rfl⟩ := checkout_eq_ok hout
  have hprepared := frame_prepared u s
  have hrefs' : (prepared u s).orderItems.All fun i => i.orderId < (prepared u s).orders.next := by
    rw [hprepared.orderItems, hprepared.orders]
    exact hrefs
  rw [total_checkedOut hrefs', (items_of_quoted hq).1, hprepared.products, List.map_map]
  have hsum := h.sums g
  rw [← Table.sum_select] at hsum
  refine Eq.trans ?_ hsum
  refine congrArg List.sum (List.map_congr_left fun r _ => ?_)
  exact hfg r

end Adding

end Merging

end SweetCrust
