import SweetCrust.Cart.Carts

/-!
# Requests on carts

The requests that the cart service answers, and one lemma that says what any of them can
do to the lines and to the carts (`change_act`).  Apart from these a request touches at
most the bakery's settings (`Frame`).
-/

namespace SweetCrust

open Tabular Session

namespace Carts

/-- A quantity as the request schemas admit it: at least one. -/
abbrev Quantity : Type := {q : ℤ // 1 ≤ q}

/-- The least quantity. -/
def Quantity.one : Quantity := ⟨1, le_rfl⟩

/-- A request on a customer's cart. -/
inductive Request
  | add (userId productId : ℕ) (quantity : Quantity) (variant flavor : Option String)
      (isEggless : Bool)
  | patch (userId itemId : ℕ) (quantity : Option Quantity) (savedForLater : Option Bool)
  | remove (userId itemId : ℕ)

/-- What a request leaves in the database. -/
def act (db : Db) : Request → Db
  | .add u y quantity variant flavor isEggless =>
    final (addToCart u y quantity variant flavor isEggless) db
  | .patch u k quantity savedForLater =>
    final (patchCartItem u k (quantity.map Subtype.val) savedForLater) db
  | .remove u k => final (removeCartItem u k) db

/-- The customer who makes a request. -/
def Request.user : Request → ℕ
  | .add u .. => u
  | .patch u .. => u
  | .remove u _ => u

/-- What a request can do to the lines and to the carts. -/
inductive Change (s : Db) : Request → Table CartItem → Table Cart → Prop
  | keep (r : Request) : Change s r s.cartItems s.carts
  | cart (r : Request) : Change s r s.cartItems (withCart r.user s).carts
  | put (u y : ℕ) (quantity : Quantity) (variant flavor : Option String) (isEggless : Bool)
      (product : Product) (shopId : ℕ) (h : Addable s y quantity product shopId) :
      Change s (.add u y quantity variant flavor isEggless)
        (added u y quantity variant flavor isEggless product shopId s).cartItems
        (withCart u s).carts
  | patch (u k : ℕ) (quantity : Option Quantity) (savedForLater : Option Bool) (item : CartItem)
      (hk : s.cartItems.get? k = some item) (hown : item.cartId = (cartFor s u).1) :
      Change s (.patch u k quantity savedForLater)
        (s.cartItems.modify k (patchItem (quantity.map Subtype.val) savedForLater))
        (withCart u s).carts
  | remove (u k : ℕ) (item : CartItem) (hk : s.cartItems.get? k = some item)
      (hown : item.cartId = (cartFor s u).1) :
      Change s (.remove u k) (s.cartItems.remove fun j _ => j = k) (withCart u s).carts

/-- Nothing differs but lines, carts and settings. -/
def Frame (s t : Db) : Prop :=
  ∃ items carts settings, t = { s with cartItems := items, carts := carts, settings := settings }

section Frames

variable {s t v : Db} {u : ℕ}

theorem Frame.refl (s : Db) : Frame s s := ⟨_, _, _, rfl⟩

theorem Frame.trans (h : Frame s t) (h' : Frame t v) : Frame s v := by
  obtain ⟨_, _, _, rfl⟩ := h
  obtain ⟨_, _, _, rfl⟩ := h'
  exact ⟨_, _, _, rfl⟩

theorem Frame.products (h : Frame s t) : t.products = s.products := by
  obtain ⟨_, _, _, rfl⟩ := h
  rfl

theorem Frame.orders (h : Frame s t) : t.orders = s.orders := by
  obtain ⟨_, _, _, rfl⟩ := h
  rfl

theorem Frame.orderItems (h : Frame s t) : t.orderItems = s.orderItems := by
  obtain ⟨_, _, _, rfl⟩ := h
  rfl

theorem Frame.coupons (h : Frame s t) : t.coupons = s.coupons := by
  obtain ⟨_, _, _, rfl⟩ := h
  rfl

theorem frame_withSettings (s : Db) : Frame s (withSettings s) := by
  unfold withSettings
  cases s.settings.first? fun _ => true
  · exact ⟨_, _, _, rfl⟩
  · exact Frame.refl s

theorem frame_withCart (u : ℕ) (s : Db) : Frame s (withCart u s) := by
  unfold withCart
  cases cartOf s u
  · exact ⟨_, _, _, rfl⟩
  · exact Frame.refl s

theorem frame_prepared (u : ℕ) (s : Db) : Frame s (prepared u s) :=
  (frame_withCart u s).trans (frame_withSettings _)

theorem frame_putLine (c : ℕ) (line : CartItem) (s : Db) : Frame s (putLine c line s) := by
  unfold putLine
  cases s.cartItems.first? _ <;> exact ⟨_, _, _, rfl⟩

theorem frame_added (u y : ℕ) (quantity : ℤ) (variant flavor : Option String) (isEggless : Bool)
    (product : Product) (shopId : ℕ) (s : Db) :
    Frame s (added u y quantity variant flavor isEggless product shopId s) :=
  (frame_withCart u s).trans (Frame.trans ⟨_, _, _, rfl⟩ (frame_putLine _ _ _))

@[simp] theorem withCart_cartItems (u : ℕ) (s : Db) : (withCart u s).cartItems = s.cartItems := by
  unfold withCart
  cases cartOf s u <;> rfl

@[simp] theorem withSettings_cartItems (s : Db) : (withSettings s).cartItems = s.cartItems := by
  unfold withSettings
  cases s.settings.first? fun _ => true <;> rfl

@[simp] theorem withSettings_carts (s : Db) : (withSettings s).carts = s.carts := by
  unfold withSettings
  cases s.settings.first? fun _ => true <;> rfl

@[simp] theorem prepared_cartItems (u : ℕ) (s : Db) : (prepared u s).cartItems = s.cartItems := by
  simp [prepared]

@[simp] theorem prepared_carts (u : ℕ) (s : Db) : (prepared u s).carts = (withCart u s).carts := by
  simp [prepared]

theorem items_summaryFor (s : Db) (u : ℕ) :
    (summaryFor s u).items = (activeItems s (cartFor s u).1).map (lineOf (prepared u s)) := by
  unfold summaryFor summaryOf activeItems
  rw [prepared_cartItems]

@[simp] theorem putLine_carts (c : ℕ) (line : CartItem) (s : Db) :
    (putLine c line s).carts = s.carts := by
  unfold putLine
  cases s.cartItems.first? _ <;> rfl

@[simp] theorem added_carts (u y : ℕ) (quantity : ℤ) (variant flavor : Option String)
    (isEggless : Bool) (product : Product) (shopId : ℕ) (s : Db) :
    (added u y quantity variant flavor isEggless product shopId s).carts = (withCart u s).carts := by
  unfold added
  rw [putLine_carts]
  rfl

/-- A cart that is there is not created again. -/
theorem withCart_carts_of (h : t.carts = (withCart u s).carts) : (withCart u t).carts = t.carts := by
  have hcart : cartOf t u = some (cartFor s u) := by
    rw [← cartOf_withCart u s]
    unfold cartOf
    rw [h]
  simp only [withCart, hcart]

theorem cartFor_of_carts (h : t.carts = (withCart u s).carts) : cartFor t u = cartFor s u := by
  have hcart : cartOf t u = some (cartFor s u) := by
    rw [← cartOf_withCart u s]
    unfold cartOf
    rw [h]
  simp [cartFor, hcart]

theorem prepared_carts_of (h : t.carts = (withCart u s).carts) :
    (prepared u t).carts = (withCart u s).carts := by
  rw [prepared_carts, withCart_carts_of h, h]

end Frames

/-- A property of every line is kept when a line that has it is put into a cart, and merging
keeps it. -/
theorem all_putLine {p : CartItem → Prop} {s : Db} {line : CartItem} (h : s.cartItems.All p)
    (hline : p line) (hmore : ∀ item, p item → p (addQuantity line.quantity item)) (c : ℕ) :
    (putLine c line s).cartItems.All p := by
  unfold putLine
  split
  · exact h.modify fun item hitem => hmore item hitem
  · exact h.insert hline

section Changes

variable {s : Db} {r : Request} {items : Table CartItem} {carts : Table Cart}

/-- A request changes lines and carts in one of these ways, and leaves the rest. -/
theorem change_act (s : Db) (r : Request) :
    Change s r (act s r).cartItems (act s r).carts ∧ Frame s (act s r) := by
  cases r with
  | add u y quantity variant flavor isEggless =>
    rcases addToCart_cases u y quantity variant flavor isEggless s with
      hraise | ⟨product, shopId, hadd, hreturn⟩
    · simp only [act, hraise.final]
      exact ⟨.keep _, Frame.refl s⟩
    · simp only [act, hreturn.final, prepared_cartItems]
      rw [prepared_carts_of (added_carts _ _ _ _ _ _ _ _ s)]
      exact ⟨.put u y quantity variant flavor isEggless product shopId hadd,
        (frame_added _ _ _ _ _ _ _ _ s).trans (frame_prepared u _)⟩
  | patch u k quantity savedForLater =>
    rcases final_patchCartItem u k (quantity.map Subtype.val) savedForLater s with
      h | h | ⟨item, hk, hown, h⟩
    · simp only [act, h]
      exact ⟨.keep _, Frame.refl s⟩
    · simp only [act, h, withCart_cartItems]
      exact ⟨.cart (.patch u k quantity savedForLater), frame_withCart u s⟩
    · simp only [act, h, prepared_cartItems, withCart_cartItems]
      rw [prepared_carts_of (s := s)]
      · exact ⟨.patch u k quantity savedForLater item hk hown,
          (frame_withCart u s).trans (Frame.trans ⟨_, _, _, rfl⟩ (frame_prepared u _))⟩
      · rfl
  | remove u k =>
    rcases final_removeCartItem u k s with h | ⟨item, hk, hown, h⟩
    · simp only [act, h, prepared_cartItems, prepared_carts]
      exact ⟨.cart (.remove u k), frame_prepared u s⟩
    · simp only [act, h, prepared_cartItems, withCart_cartItems]
      rw [prepared_carts_of (s := s)]
      · exact ⟨.remove u k item hk hown,
          (frame_withCart u s).trans (Frame.trans ⟨_, _, _, rfl⟩ (frame_prepared u _))⟩
      · rfl

theorem cartFor_lt (s : Db) (u : ℕ) : (cartFor s u).1 < (withCart u s).carts.next :=
  Table.lt_next_of_get? (Table.get?_of_first? (cartOf_withCart u s)).1

theorem next_le_withCart (s : Db) (u : ℕ) : s.carts.next ≤ (withCart u s).carts.next := by
  unfold withCart
  cases cartOf s u
  · exact Nat.le_succ _
  · exact le_rfl

theorem Change.next_le (h : Change s r items carts) : s.carts.next ≤ carts.next := by
  cases h with
  | keep => exact le_rfl
  | cart => exact next_le_withCart s _
  | put u => exact next_le_withCart s u
  | patch u => exact next_le_withCart s u
  | remove u => exact next_le_withCart s u

/-- A property of every line is kept, when lines added in the customer's cart have it, and
adding to a line and changing it keep it. -/
theorem Change.all {p : CartItem → Prop} (h : Change s r items carts) (hs : s.cartItems.All p)
    (hnew : ∀ line, line.cartId < carts.next → 1 ≤ line.quantity → p line)
    (hmore : ∀ line q, 1 ≤ q → p line → p (addQuantity q line))
    (hpatch : ∀ line (q : Option Quantity) b, p line →
      p (patchItem (q.map Subtype.val) b line)) : items.All p := by
  cases h with
  | keep => exact hs
  | cart => exact hs
  | put u y quantity variant flavor isEggless product shopId hadd =>
    have hcleared : (clearOtherShops (cartFor s u).1 shopId (withCart u s)).cartItems.All p := by
      refine Table.All.remove ?_ _
      rw [withCart_cartItems]
      exact hs
    exact all_putLine hcleared (hnew _ (cartFor_lt s u) quantity.2)
      (fun line hline => hmore line _ quantity.2 hline) _
  | patch u k quantity savedForLater item hk hown =>
    exact hs.modify fun line hline => hpatch line quantity savedForLater hline
  | remove u k item hk hown => exact hs.remove _

end Changes

end Carts

end SweetCrust
