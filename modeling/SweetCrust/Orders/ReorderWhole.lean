import SweetCrust.Checkout.Choices
import SweetCrust.Orders.Reorder

/-!
# Is ordering again all or nothing?

`reorder` adds the items of a past order one by one and commits each of them, so an item that is
refused leaves those before it in the cart.  An item whose product and variant the cart has already
is merged into that line, and takes over its flavor and its eggless mark.

* `AllOrNone` — a call that raises leaves the cart alone, and one that answers adds every
  combination in the quantity ordered, within the stock.
* `Orderable`, `allOrNone_iff` — exactly when that is so.
* `first_kept` — the item before a refused one stays in the cart.
-/

namespace SweetCrust

open Tabular Session Carts Merging Choices

namespace Orders

namespace OrderService

/-- How much of a combination the customer's cart holds. -/
def quantityOf (db : Db) (u : ℕ) (x : Combination) : ℤ :=
  db.cartItems.total fun i =>
    if inCart (cartFor db u).1 i then (if lineChoice i = x then i.quantity else 0) else 0

/-- How much of a combination the customer's past order holds. -/
def ordered (db : Db) (o u : ℕ) (x : Combination) : ℤ :=
  ((pastItems db o u).map fun i => if itemOf i = x then i.quantity else 0).sum

/-- The cart holds the order besides what it held, within the stock. -/
def HoldsOrder (s : Db) (o u : ℕ) (t : Db) : Prop :=
  ∀ x, quantityOf t u x = quantityOf s u x + ordered s o u x ∧
    ∀ p, t.products.get? x.productId = some p → quantityOf t u x ≤ p.stockQty

/-- A call that raises leaves the cart as it was, and one that answers adds the whole order. -/
def AllOrNone (o u : ℕ) (s : Db) : Prop :=
  match (reorder o u s).2 with
  | .error _ => (final (reorder o u) s).cartItems = s.cartItems
  | .ok _ => HoldsOrder s o u (final (reorder o u) s)

/-- What an item is held as: as the first line of the cart with its product and variant, or else as
the first of the items with them. -/
def heldAs (db : Db) (u : ℕ) (items : List OrderItem) (i : OrderItem) : Combination :=
  match db.cartItems.first? fun line => inCart (cartFor db u).1 line ∧
      line.productId = i.productId ∧ line.variant = i.variant with
  | some (_, line) => lineChoice line
  | none =>
    ((items.find? fun j => j.productId = i.productId ∧ j.variant = i.variant).map itemOf).getD
      (itemOf i)

/-- No item is refused, each is held as it was ordered, and the stock suffices. -/
structure Fits (s : Db) (o u : ℕ) : Prop where
  offered : ∀ i ∈ pastItems s o u, (offered s.products i).isSome
  held : ∀ i ∈ pastItems s o u, heldAs s u (pastItems s o u) i = itemOf i
  stock : ∀ x p, s.products.get? x.productId = some p →
    quantityOf s u x + ordered s o u x ≤ p.stockQty

/-- The order is another's, or its first item is refused, or all of it fits. -/
def Orderable (s : Db) (o u : ℕ) : Prop :=
  (∀ order, s.orders.get? o = some order → order.userId ≠ u) ∨
    (∃ i rest, pastItems s o u = i :: rest ∧ offered s.products i = none) ∨ Fits s o u

/-! ## The lines that are put in -/

/-- The line that an item makes in a cart, if it is not refused. -/
def itemLine (c : ℕ) (products : Table Product) (i : OrderItem) : Option CartItem :=
  (offered products i).map (newLine c i.productId i.quantity i.variant i.flavor i.isEggless)

/-- The lines of the items before the first that is refused. -/
def linesBefore (c : ℕ) (products : Table Product) : List OrderItem → List CartItem
  | [] => []
  | i :: rest =>
    match itemLine c products i with
    | some line => line :: linesBefore c products rest
    | none => []

section Lines

variable {s : Db} {o u c : ℕ} {products : Table Product} {items : List OrderItem} {i : OrderItem}
  {line : CartItem} {x : Combination}

theorem itemLine_eq_some : itemLine c products i = some line ↔ ∃ p, offered products i = some p ∧
    newLine c i.productId i.quantity i.variant i.flavor i.isEggless p = line :=
  Option.map_eq_some_iff

theorem exists_itemLine (h : (offered products i).isSome) (c : ℕ) :
    ∃ line, itemLine c products i = some line := by
  obtain ⟨p, hp⟩ := Option.isSome_iff_exists.1 h
  exact ⟨_, itemLine_eq_some.2 ⟨p, hp, rfl⟩⟩

theorem key_of_itemLine (h : itemLine c products i = some line) :
    (lines c).key line = (i.productId, i.variant) := by
  obtain ⟨p, _, rfl⟩ := itemLine_eq_some.1 h
  rfl

theorem mark_of_itemLine (h : itemLine c products i = some line) :
    ((lines c).mark line).flavor = i.flavor ∧ ((lines c).mark line).isEggless = i.isEggless := by
  obtain ⟨p, _, rfl⟩ := itemLine_eq_some.1 h
  exact ⟨rfl, rfl⟩

theorem lineChoice_of_itemLine (h : itemLine c products i = some line) :
    lineChoice line = itemOf i := by
  obtain ⟨p, _, rfl⟩ := itemLine_eq_some.1 h
  rfl

theorem quantity_of_itemLine (h : itemLine c products i = some line) :
    line.quantity = i.quantity := by
  obtain ⟨p, _, rfl⟩ := itemLine_eq_some.1 h
  rfl

theorem live_of_itemLine (h : itemLine c products i = some line) :
    (lines c).live line = true := by
  obtain ⟨p, _, rfl⟩ := itemLine_eq_some.1 h
  simp [lines, inCart, newLine]

/-- A line that is put in is that of an item. -/
theorem mem_linesBefore (h : line ∈ linesBefore c products items) :
    ∃ i ∈ items, itemLine c products i = some line := by
  induction items with
  | nil => cases h
  | cons i rest ih =>
    unfold linesBefore at h
    cases hline : itemLine c products i with
    | none =>
      rw [hline] at h
      cases h
    | some line' =>
      rw [hline] at h
      rcases List.mem_cons.1 h with rfl | hmem
      · exact ⟨i, List.mem_cons_self, hline⟩
      · obtain ⟨j, hj, hjline⟩ := ih hmem
        exact ⟨j, List.mem_cons_of_mem _ hj, hjline⟩

/-- The cart once items are added, up to the first that is refused. -/
theorem cartItems_reordered (u : ℕ) (items : List OrderItem) (s : Db) :
    (reordered u items s).cartItems = (lines (cartFor s u).1).putAll
      (linesBefore (cartFor s u).1 s.products items) s.cartItems := by
  induction items generalizing s with
  | nil => rfl
  | cons item rest ih =>
    unfold reordered linesBefore
    cases h : offered s.products item with
    | none =>
      have hline : itemLine (cartFor s u).1 s.products item = none := by rw [itemLine, h]; rfl
      simp only [hline]
      rfl
    | some product =>
      have hline : itemLine (cartFor s u).1 s.products item = some (newLine (cartFor s u).1
          item.productId item.quantity item.variant item.flavor item.isEggless product) := by
        rw [itemLine, h]
        rfl
      have hcart : cartFor (itemAdded u item product s) u = cartFor s u :=
        cartFor_of_carts (itemAdded_carts u item product s)
      have hadded : (itemAdded u item product s).cartItems = (lines (cartFor s u).1).put
          (newLine (cartFor s u).1 item.productId item.quantity item.variant item.flavor
            item.isEggless product) s.cartItems := by
        rw [itemAdded, prepared_cartItems, itemPut, cartItems_putLine, withCart_cartItems]
      simp only [hline]
      rw [ih, hcart, (frame_itemAdded u item product s).products, hadded, Merge.putAll_cons]

/-- Once all items are added, their lines are in. -/
theorem linesBefore_of_offered (h : ∀ i ∈ items, (offered products i).isSome) :
    linesBefore c products items = items.filterMap (itemLine c products) := by
  induction items with
  | nil => rfl
  | cons i rest ih =>
    obtain ⟨line, hline⟩ := exists_itemLine (h i List.mem_cons_self) c
    rw [List.filterMap_cons_some hline, ← ih fun j hj => h j (List.mem_cons_of_mem _ hj)]
    simp only [linesBefore, hline]

end Lines

/-! ## What the cart holds then -/

section Counting

variable {s : Db} {o u c : ℕ} {items : List OrderItem} {i : OrderItem} {line : CartItem}
  {x : Combination}

/-- What a line counts under a combination. -/
def countOf (x : Combination) : ℕ × Option String → Mark → ℤ →+ ℤ := fun k m =>
  if (⟨k.1, k.2, m.flavor, m.isEggless⟩ : Combination) = x then .id ℤ else 0

theorem quantityOf_eq_sum (db : Db) (u : ℕ) (x : Combination) :
    quantityOf db u x = (lines (cartFor db u).1).sum (countOf x) db.cartItems := by
  unfold quantityOf Merge.sum countOf
  congr 1
  funext i
  show _ = if inCart (cartFor db u).1 i then
    (if lineChoice i = x then AddMonoidHom.id ℤ else 0) i.quantity else 0
  by_cases hx : lineChoice i = x
  · rw [if_pos hx, if_pos hx]
    rfl
  · rw [if_neg hx, if_neg hx]
    rfl

/-- What a line is kept as when it is put in with others. -/
def keptAs (s : Db) (u : ℕ) (l : List CartItem) (line : CartItem) : Combination :=
  ⟨line.productId, line.variant, ((lines (cartFor s u).1).keptMark s.cartItems l line).flavor,
    ((lines (cartFor s u).1).keptMark s.cartItems l line).isEggless⟩

theorem cartFor_reordered (u : ℕ) (items : List OrderItem) (s : Db) :
    cartFor (reordered u items s) u = cartFor s u := by
  induction items generalizing s with
  | nil => rfl
  | cons item rest ih =>
    unfold reordered
    cases offered s.products item with
    | none => rfl
    | some product => exact (ih _).trans (cartFor_of_carts (itemAdded_carts u item product s))

theorem live_linesBefore {products : Table Product} :
    ∀ line ∈ linesBefore c products items, (lines c).live line = true := by
  intro line hline
  obtain ⟨i, _, hi⟩ := mem_linesBefore hline
  exact live_of_itemLine hi

/-- The items that go in count under what they are kept as. -/
theorem quantityOf_reordered (u : ℕ) (items : List OrderItem) (s : Db) (x : Combination) :
    quantityOf (reordered u items s) u x = quantityOf s u x +
      weight (linesBefore (cartFor s u).1 s.products items)
        (keptAs s u (linesBefore (cartFor s u).1 s.products items)) x := by
  rw [quantityOf_eq_sum, quantityOf_eq_sum, cartFor_reordered, cartItems_reordered,
    Merge.sum_putAll (countOf x) live_linesBefore]
  congr 1
  unfold weight
  refine congrArg List.sum (List.map_congr_left fun line _ => ?_)
  show (if keptAs s u _ line = x then AddMonoidHom.id ℤ else 0) line.quantity = _
  by_cases hx : keptAs s u (linesBefore (cartFor s u).1 s.products items) line = x
  · rw [if_pos hx, if_pos hx]
    rfl
  · rw [if_neg hx, if_neg hx]
    rfl

/-- The cart is left as it was only if no item goes in. -/
theorem cartItems_reordered_eq_iff (hq : ∀ i ∈ items, 1 ≤ i.quantity) :
    (reordered u items s).cartItems = s.cartItems ↔
      linesBefore (cartFor s u).1 s.products items = [] := by
  constructor
  · intro h
    have hsum := Merge.sum_putAll (M := lines (cartFor s u).1) (fun _ _ => AddMonoidHom.id ℤ)
      live_linesBefore s.cartItems (l := linesBefore (cartFor s u).1 s.products items)
    rw [← cartItems_reordered, h, left_eq_add] at hsum
    -- the quantities add up to more than nothing
    by_contra hne
    refine absurd hsum (ne_of_gt (List.sum_pos _ (fun q hmem => ?_) ?_))
    · obtain ⟨line, hline, rfl⟩ := List.mem_map.1 hmem
      obtain ⟨i, hi, hitem⟩ := mem_linesBefore hline
      show 0 < line.quantity
      have hone := hq i hi
      rw [quantity_of_itemLine hitem]
      omega
    · simpa using hne
  · intro h
    rw [cartItems_reordered, h]
    rfl

/-- The first item of a product and variant makes the first line of them. -/
theorem first_filterMap {products : Table Product}
    (h : ∀ i ∈ items, (offered products i).isSome) (k : ℕ × Option String) :
    (lines c).first (items.filterMap (itemLine c products)) k =
      (items.find? fun j => j.productId = k.1 ∧ j.variant = k.2).bind (itemLine c products) := by
  induction items with
  | nil => rfl
  | cons j rest ih =>
    obtain ⟨line, hline⟩ := exists_itemLine (h j List.mem_cons_self) c
    have hkey := key_of_itemLine hline
    rw [List.filterMap_cons_some hline]
    unfold Merge.first at ih ⊢
    by_cases hk : j.productId = k.1 ∧ j.variant = k.2
    · have hsame : (lines c).key line = k := hkey.trans (Prod.ext hk.1 hk.2)
      rw [List.find?_cons_of_pos (by simpa using hsame), List.find?_cons_of_pos (by simpa using hk),
        Option.bind_some, hline]
    · have hdiffer : (lines c).key line ≠ k := by
        rintro rfl
        rw [hkey] at hk
        exact hk ⟨rfl, rfl⟩
      rw [List.find?_cons_of_neg (by simpa using hdiffer),
        List.find?_cons_of_neg (by simpa using hk)]
      exact ih fun i hi => h i (List.mem_cons_of_mem _ hi)

/-- What an item is held as is what its line is kept as. -/
theorem heldAs_eq_keptAs (h : ∀ i ∈ items, (offered s.products i).isSome)
    (hline : itemLine (cartFor s u).1 s.products i = some line) :
    keptAs s u (items.filterMap (itemLine (cartFor s u).1 s.products)) line =
      heldAs s u items i := by
  have hkey : (lines (cartFor s u).1).hasKey (i.productId, i.variant) = fun line =>
      decide (inCart (cartFor s u).1 line ∧ line.productId = i.productId ∧
        line.variant = i.variant) := by
    funext line
    simp [lines, Merge.hasKey]
  have hproduct : line.productId = i.productId := congrArg Prod.fst (key_of_itemLine hline)
  have hvariant : line.variant = i.variant := congrArg Prod.snd (key_of_itemLine hline)
  unfold keptAs heldAs Merge.keptMark
  rw [key_of_itemLine hline, hkey, first_filterMap h, hproduct, hvariant]
  cases hfirst : s.cartItems.first? fun line => inCart (cartFor s u).1 line ∧
      line.productId = i.productId ∧ line.variant = i.variant with
  | some found =>
    obtain ⟨_, hfound⟩ := Table.get?_of_first? hfirst
    obtain ⟨_, hproduct', hvariant'⟩ := of_decide_eq_true hfound
    rw [← hproduct', ← hvariant']
    rfl
  | none =>
    cases hitem : items.find? fun j => j.productId = i.productId ∧ j.variant = i.variant with
    | none =>
      obtain ⟨hflavor, heggless⟩ := mark_of_itemLine hline
      simp only [Option.bind_none, Option.map_none, Option.or_none, Option.getD_none, hflavor,
        heggless]
      rfl
    | some j =>
      obtain ⟨line', hline'⟩ := exists_itemLine (h j (List.mem_of_find?_eq_some hitem))
        (cartFor s u).1
      obtain ⟨hflavor, heggless⟩ := mark_of_itemLine hline'
      have hsame := List.find?_some hitem
      obtain ⟨hproduct', hvariant'⟩ := of_decide_eq_true hsame
      simp only [Option.bind_some, hline', Option.map_some, Option.map_none, Option.none_or,
        Option.getD_some, hflavor, heggless]
      rw [← hproduct', ← hvariant']
      rfl

/-- What was ordered, as the lines of the items. -/
theorem ordered_eq_weight (h : ∀ i ∈ items, (offered s.products i).isSome) (c : ℕ)
    (x : Combination) : (items.map fun i => if itemOf i = x then i.quantity else 0).sum =
      weight (items.filterMap (itemLine c s.products)) lineChoice x := by
  unfold weight
  induction items with
  | nil => rfl
  | cons i rest ih =>
    obtain ⟨line, hline⟩ := exists_itemLine (h i List.mem_cons_self) c
    rw [List.filterMap_cons_some hline, List.map_cons, List.sum_cons, List.map_cons,
      List.sum_cons, ih fun j hj => h j (List.mem_cons_of_mem _ hj), lineChoice_of_itemLine hline,
      quantity_of_itemLine hline]

/-- Every item is held as it was ordered exactly if every combination is. -/
theorem held_iff (h : ∀ i ∈ items, (offered s.products i).isSome)
    (hq : ∀ i ∈ items, 1 ≤ i.quantity) :
    (∀ x, quantityOf (reordered u items s) u x = quantityOf s u x +
        (items.map fun i => if itemOf i = x then i.quantity else 0).sum) ↔
      ∀ i ∈ items, heldAs s u items i = itemOf i := by
  set c := (cartFor s u).1 with hc
  set l := items.filterMap (itemLine c s.products) with hl
  have hmem : ∀ line ∈ l, ∃ i ∈ items, itemLine c s.products i = some line := fun line hline =>
    List.mem_filterMap.1 hline
  have hweights : (∀ x, weight l (keptAs s u l) x = weight l lineChoice x) ↔
      ∀ line ∈ l, keptAs s u l line = lineChoice line := by
    refine weights_eq_iff_labels (lines c).key ?_ ?_ ?_
    · intro i hi j _ hkey
      have hsame : (lines c).keptMark s.cartItems l i = (lines c).keptMark s.cartItems l j :=
        Merge.keptMark_eq_of_key_eq s.cartItems hi hkey
      rw [keptAs, keptAs, ← hc, hsame, show i.productId = j.productId from congrArg Prod.fst hkey,
        show i.variant = j.variant from congrArg Prod.snd hkey]
    · intro i _ j _ hsame
      simp only [keptAs, lineChoice, Combination.mk.injEq] at hsame
      exact Prod.ext hsame.1 hsame.2.1
    · intro line hline
      obtain ⟨i, hi, hitem⟩ := hmem line hline
      rw [quantity_of_itemLine hitem]
      exact hq i hi
  calc (∀ x, quantityOf (reordered u items s) u x = quantityOf s u x +
        (items.map fun i => if itemOf i = x then i.quantity else 0).sum)
      ↔ ∀ x, weight l (keptAs s u l) x = weight l lineChoice x := by
        refine forall_congr' fun x => ?_
        rw [quantityOf_reordered, linesBefore_of_offered h, ordered_eq_weight h c, ← hc, ← hl,
          add_right_inj]
    _ ↔ ∀ line ∈ l, keptAs s u l line = lineChoice line := hweights
    _ ↔ ∀ i ∈ items, heldAs s u items i = itemOf i := by
        constructor
        · intro hkept i hi
          obtain ⟨line, hline⟩ := exists_itemLine (h i hi) c
          rw [← heldAs_eq_keptAs h hline, ← lineChoice_of_itemLine hline]
          exact hkept _ (List.mem_filterMap.2 ⟨i, hi, hline⟩)
        · intro hheld line hline
          obtain ⟨i, hi, hitem⟩ := hmem line hline
          rw [heldAs_eq_keptAs h hitem, lineChoice_of_itemLine hitem]
          exact hheld i hi

end Counting

/-! ## All or none -/

section Whole

variable {s : Db} {o u : ℕ}

theorem quantityOf_prepared (u : ℕ) (t : Db) (x : Combination) :
    quantityOf (prepared u t) u x = quantityOf t u x := by
  unfold quantityOf
  rw [prepared_cartItems, cartFor_of_carts (prepared_carts u t)]

/-- No line goes in exactly if the first item is refused. -/
theorem linesBefore_eq_nil_iff {c : ℕ} {products : Table Product} {items : List OrderItem}
    (h : ∃ i ∈ items, offered products i = none) :
    linesBefore c products items = [] ↔
      ∃ i rest, items = i :: rest ∧ offered products i = none := by
  cases items with
  | nil => simp at h
  | cons i rest =>
    unfold linesBefore itemLine
    cases hi : offered products i with
    | none => simp [hi]
    | some p => simp [hi]

/-- The customer's own order is added as a whole or not at all. -/
theorem allOrNone_own {order : Order} (hord : s.orders.get? o = some order)
    (hown : order.userId = u) (hq : ∀ i ∈ pastItems s o u, 1 ≤ i.quantity) :
    AllOrNone o u s ↔
      (∃ i rest, pastItems s o u = i :: rest ∧ offered s.products i = none) ∨ Fits s o u := by
  rcases reorder_own hord hown with ⟨hall, summary, hreturns⟩ | ⟨hnone, hraises⟩
  · have hfirst : ¬ ∃ i rest, pastItems s o u = i :: rest ∧ offered s.products i = none := by
      rintro ⟨i, rest, hitems, hi⟩
      have hsome := hall i (hitems ▸ List.mem_cons_self)
      rw [hi] at hsome
      cases hsome
    have hproducts : (prepared u (reordered u (pastItems s o u) s)).products = s.products :=
      ((frame_reordered u _ s).trans (frame_prepared u _)).products
    have hsums := held_iff (u := u) hall hq
    unfold AllOrNone HoldsOrder
    simp only [hreturns.outcome, hreturns.final, quantityOf_prepared, hproducts,
      or_iff_right hfirst]
    constructor
    · intro h
      have hholds : ∀ x, quantityOf (reordered u (pastItems s o u) s) u x =
          quantityOf s u x + ordered s o u x := fun x => (h x).1
      refine ⟨hall, hsums.1 hholds, fun x p hp => ?_⟩
      rw [← hholds x]
      exact (h x).2 p hp
    · intro hfits x
      have hholds : quantityOf (reordered u (pastItems s o u) s) u x =
          quantityOf s u x + ordered s o u x := hsums.2 hfits.held x
      refine ⟨hholds, fun p hp => ?_⟩
      rw [hholds]
      exact hfits.stock x p hp
  · have hfits : ¬ Fits s o u := by
      intro hfits
      obtain ⟨i, hi, hnone⟩ := hnone
      have hsome := hfits.offered i hi
      rw [hnone] at hsome
      cases hsome
    obtain ⟨e, he⟩ := hraises.outcome
    unfold AllOrNone
    simp only [he, hraises.final, or_iff_left hfits]
    rw [cartItems_reordered_eq_iff hq, linesBefore_eq_nil_iff hnone]

/-- Ordering again is all or nothing exactly if the order is another's, or its first item is
refused, or all of it fits. -/
theorem allOrNone_iff (h : ∀ i ∈ pastItems s o u, 1 ≤ i.quantity) :
    AllOrNone o u s ↔ Orderable s o u := by
  unfold Orderable
  by_cases hown : ∀ order, s.orders.get? o = some order → order.userId ≠ u
  · have hraises := reorder_raises hown
    obtain ⟨e, he⟩ := hraises.outcome
    refine iff_of_true ?_ (Or.inl hown)
    unfold AllOrNone
    simp only [he, hraises.final]
  · rw [or_iff_right hown]
    simp only [not_forall, not_not] at hown
    obtain ⟨order, hord, hown⟩ := hown
    exact allOrNone_own hord hown h

/-! ## Two cakes, one of them gone -/

/-- A customer, user 2, who has ordered two cakes; the first of them is on sale still. -/
def cakesOrdered (second : Product) : Db :=
  { Db.empty with
    users := .ofList [{ (default : User) with role := .retailer }, default]
    products := .ofList
      [{ (default : Product) with supplierUserId := some 1, stockQty := 5, isActive := true },
        second]
    orders := .ofList [{ (default : Order) with userId := 2 }]
    orderItems := .ofList
      [{ (default : OrderItem) with orderId := 1, productId := 1, quantity := 1 },
        { (default : OrderItem) with orderId := 1, productId := 2, quantity := 1 }] }

/-- The second cake on sale. -/
def onSale : Product :=
  { (default : Product) with supplierUserId := some 1, stockQty := 5, isActive := true }

theorem onSale_allOrNone : (∀ i ∈ pastItems (cakesOrdered onSale) 1 2, 1 ≤ i.quantity) ∧
    AllOrNone 1 2 (cakesOrdered onSale) := by
  have hwhole : ∀ i ∈ pastItems (cakesOrdered onSale) 1 2, 1 ≤ i.quantity := by decide +kernel
  have hstock : (cakesOrdered onSale).products.All fun p => p.stockQty = 5 := by decide +kernel
  have hfits : Fits (cakesOrdered onSale) 1 2 := by
    refine ⟨by decide +kernel, by decide +kernel, fun x p hp => ?_⟩
    have hcart : quantityOf (cakesOrdered onSale) 2 x = 0 := rfl
    have hordered : ordered (cakesOrdered onSale) 1 2 x ≤ 2 := by
      show (if (⟨1, none, none, false⟩ : Combination) = x then (1 : ℤ) else 0) +
        ((if (⟨2, none, none, false⟩ : Combination) = x then 1 else 0) + 0) ≤ 2
      split_ifs <;> norm_num
    have hfive : p.stockQty = 5 := hstock.get? hp
    omega
  exact ⟨hwhole, (allOrNone_iff hwhole).2 (Or.inr (Or.inr hfits))⟩

/-- The second cake is gone, and the first stays in the cart. -/
theorem first_kept : (∀ i ∈ pastItems (cakesOrdered default) 1 2, 1 ≤ i.quantity) ∧
    ¬ AllOrNone 1 2 (cakesOrdered default) := by
  refine ⟨by decide +kernel, ?_⟩
  have hraised : (reorder 1 2 (cakesOrdered default)).2.toOption.isSome = false := by
    decide +kernel
  have hkept : (final (reorder 1 2) (cakesOrdered default)).cartItems.rows.length = 1 := by
    decide +kernel
  unfold AllOrNone
  cases hout : (reorder 1 2 (cakesOrdered default)).2 with
  | ok r =>
    rw [hout] at hraised
    cases hraised
  | error e =>
    intro hsame
    rw [hsame] at hkept
    cases hkept

end Whole

end OrderService

end Orders

end SweetCrust
