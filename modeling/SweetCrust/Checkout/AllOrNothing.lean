import SweetCrust.Checkout.Stock

/-!
# Is a checkout all or nothing?

A request that fails, by an exception or because the process stops, leaves the database as
its last commit left it.  A checkout commits twice: the order, and then everything else.

* `keeps_quote` — until the order is committed, nothing of the customer's has changed.
* `complete_checkedOut` — after the second commit everything is there.
* `allOrNothing_iff` — a failure leaves all or nothing exactly if it does not strike between
  the two.
* `order_alone` — what is left if it does.
-/

namespace SweetCrust

open Tabular Session Carts

namespace Checkout

/-! ## All, and nothing -/

/-- Nothing has come of a checkout: there is no new order, and the cart, the stock, the
coupons and the users are as they were. -/
structure Untouched (s : Db) (u : ℕ) (t : Db) : Prop where
  orders : t.orders = s.orders
  lines : t.cartItems = s.cartItems
  cart : cartFor t u = cartFor s u
  products : t.products = s.products
  coupons : t.coupons = s.coupons
  users : t.users = s.users

/-- The checkout is complete: the order is there under the next key, with an item for each
line of the cart, one payment and its first entry in the history; the stock is taken, and the
cart is empty. -/
structure Complete (s : Db) (u : ℕ) (t : Db) : Prop where
  order : (t.orders.get? s.orders.next).isSome
  items : (t.orderItems.select fun i => i.orderId = s.orders.next).map Prod.snd =
    (activeItems s (cartFor s u).1).map fun r => orderItem s.orders.next s.products (lineOf s r)
  payment : (t.payments.select fun p => p.orderId = s.orders.next).length = 1
  history : (t.history.select fun h => h.orderId = s.orders.next).map (fun r => r.2.status) =
    [.placed]
  stock : ∀ y, (t.products.get? y).map Product.stockQty =
    ((sellLines ((activeItems s (cartFor s u).1).map (lineOf s)) s.products).get? y).map
      Product.stockQty
  emptied : activeItems t (cartFor t u).1 = []

/-- What a checkout leaves is all or nothing. -/
def AllOrNothing (s : Db) (u : ℕ) (t : Db) : Prop := Untouched s u t ∨ Complete s u t

/-- The database that a handler leaves when it fails after its first `k` commits. -/
def leftAfter (m : Service ℕ) (s : Db) (k : ℕ) : Option Db := (s :: commits m s)[k]?

/-- The failure strikes after the order is committed, and before the rest is. -/
def BetweenCommits (u : ℕ) (data : CheckoutIn) (draws : Draws) (s : Db) (k : ℕ) : Prop :=
  (quoted s u data).isSome ∧ k + 1 = (commits (checkout u data draws) s).length

/-- Items, payments and history entries belong to orders that there are. -/
structure Referenced (db : Db) : Prop where
  items : db.orderItems.All fun i => i.orderId < db.orders.next
  payments : db.payments.All fun p => p.orderId < db.orders.next
  history : db.history.All fun h => h.orderId < db.orders.next

/-! ## Until the order is committed -/

section Before

variable {s t : Db} {u : ℕ}

theorem Untouched.refl (s : Db) (u : ℕ) : Untouched s u s := ⟨rfl, rfl, rfl, rfl, rfl, rfl⟩

theorem cartFor_withSettings (s : Db) (u : ℕ) : cartFor (withSettings s) u = cartFor s u := by
  unfold cartFor cartOf
  rw [withSettings_carts]

theorem Untouched.withCart (h : Untouched s u t) : Untouched s u (withCart u t) := by
  have hframe := frame_withCart u t
  obtain ⟨items, carts, rows, ht⟩ := hframe
  have hcart : cartFor (Carts.withCart u t) u = cartFor t u := by
    unfold cartFor
    rw [cartOf_withCart]
    rfl
  refine ⟨?_, (withCart_cartItems u t).trans h.lines, hcart.trans h.cart, ?_, ?_, ?_⟩
  · rw [ht]; exact h.orders
  · rw [ht]; exact h.products
  · rw [ht]; exact h.coupons
  · rw [ht]; exact h.users

theorem Untouched.withSettings (h : Untouched s u t) : Untouched s u (withSettings t) := by
  obtain ⟨items, carts, rows, ht⟩ := frame_withSettings t
  refine ⟨?_, (withSettings_cartItems t).trans h.lines,
    (cartFor_withSettings t u).trans h.cart, ?_, ?_, ?_⟩
  · rw [ht]; exact h.orders
  · rw [ht]; exact h.products
  · rw [ht]; exact h.coupons
  · rw [ht]; exact h.users

theorem keeps_settings : Keeps (Untouched s u) settings := by
  refine keeps_get_bind fun db => ?_
  cases db.settings.first? fun _ => true with
  | some r => exact keeps_pure _
  | none =>
    refine (keeps_modify fun t ht => ht.withSettings).bind fun _ => ?_
    exact keeps_commit.bind fun _ => keeps_pure _

theorem keeps_getOrCreateCart : Keeps (Untouched s u) (getOrCreateCart u) := by
  refine keeps_get_bind fun db => ?_
  cases cartOf db u with
  | some cart => exact keeps_pure _
  | none =>
    refine (keeps_modify fun t ht => ht.withCart).bind fun _ => ?_
    exact keeps_commit.bind fun _ => keeps_pure _

/-- Validating a request changes nothing of the customer's. -/
theorem keeps_quote (data : CheckoutIn) : Keeps (Untouched s u) (quote u data) := by
  refine (keeps_getOrCreateCart.bind fun _ => keeps_settings.bind fun _ =>
    keeps_get_bind fun _ => keeps_pure _).bind fun summary => ?_
  refine (keeps_raiseIf _ _).bind fun _ => keeps_settings.bind fun _ => ?_
  refine (keeps_raiseIf _ _).bind fun _ => keeps_get_bind fun _ => ?_
  refine (keeps_orRaise _ _).bind fun _ => (keeps_raiseIf _ _).bind fun _ => ?_
  refine (keeps_orRaise _ _).bind fun _ => (keeps_raiseIf _ _).bind fun _ => ?_
  exact (keeps_orRaise _ _).bind fun _ => keeps_pure _

end Before

/-! ## The two commits -/

section Commits

variable {s t : Db} {u k : ℕ} {data : CheckoutIn} {draws : Draws} {q : Quote}

/-- An accepted checkout commits the order, and then the rest. -/
theorem commits_checkout (hq : quoted s u data = some q) (draws : Draws) :
    commits (checkout u data draws) s =
      commits (quote u data) s ++
        [place draws q (prepared u s), checkedOut draws q (prepared u s)] := by
  have hrun : checkout u data draws s = _ := bind_run_of_ok (quoted_eq_some hq).outcome
  exact congrArg Prod.fst hrun

theorem commits_checkout_of_refused (hq : quoted s u data = none) (draws : Draws) :
    commits (checkout u data draws) s = commits (quote u data) s := by
  obtain ⟨e, he⟩ := quoted_eq_none hq
  have hrun : checkout u data draws s = _ := bind_run_of_error he
  exact congrArg Prod.fst hrun

/-- Rows of an order that is not there yet. -/
theorem select_eq_nil {α : Type} {rows : Table α} {f : α → ℕ} {o : ℕ}
    (h : rows.All fun a => f a < o) : rows.select (fun a => f a = o) = [] := by
  refine List.filter_eq_nil_iff.2 fun r hr => ?_
  have hlt := h r hr
  simp only [decide_eq_true_eq]
  omega

theorem Referenced.prepared (h : Referenced s) (u : ℕ) : Referenced (prepared u s) := by
  obtain ⟨items, carts, rows, ht⟩ := frame_prepared u s
  rw [ht]
  exact ⟨h.items, h.payments, h.history⟩

/-- An order alone is neither all nor nothing. -/
theorem not_allOrNothing_place (h : Referenced s) (hq : quoted s u data = some q) (draws : Draws) :
    ¬ AllOrNothing s u (place draws q (prepared u s)) := by
  have hprepared := frame_prepared u s
  rintro (hnone | hall)
  · have hnext := congrArg Table.next hnone.orders
    rw [show (place draws q (prepared u s)).orders.next = (prepared u s).orders.next + 1 from rfl,
      hprepared.orders] at hnext
    omega
  · obtain ⟨hlines, hne⟩ := items_of_quoted hq
    have hitems := hall.items
    rw [show (place draws q (prepared u s)).orderItems = s.orderItems from hprepared.orderItems,
      select_eq_nil h.items, List.map_nil, eq_comm, List.map_eq_nil_iff] at hitems
    rw [hlines, hitems] at hne
    exact hne rfl

/-- A product that no line is of is not sold. -/
theorem get?_sellLines_of_not_buys {lines : List Line} {products : Table Product} {y : ℕ}
    (hy : ¬ buys lines y) : (sellLines lines products).get? y = products.get? y := by
  induction lines generalizing products with
  | nil => rfl
  | cons line lines ih =>
    simp only [buys, List.mem_cons, exists_eq_or_imp, not_or] at hy
    show (sellLines lines (products.modify line.productId (sell line.quantity))).get? y = _
    rw [ih hy.2, Table.get?_modify_of_ne _ _ fun heq => hy.1 heq.symm]

/-- A checkout writes the stock that it computed. -/
theorem stockQty_writeStock (lines : List Line) (products : Table Product) (y : ℕ) :
    ((writeStock lines products products).get? y).map Product.stockQty =
      ((sellLines lines products).get? y).map Product.stockQty := by
  have hsome := get?_sellLines_isSome lines products y
  simp only [writeStock, Table.get?_mapRows]
  cases hp : products.get? y with
  | none =>
    rw [hp, Option.isSome_none, Option.isSome_eq_false_iff, Option.isNone_iff_eq_none] at hsome
    rw [hsome]
    rfl
  | some p =>
    rw [hp, Option.isSome_some] at hsome
    obtain ⟨after, hafter⟩ := Option.isSome_iff_exists.1 hsome
    by_cases hbuys : buys lines y
    · simp [hbuys, hafter, copyStock]
    · rw [get?_sellLines_of_not_buys hbuys, hp]
      simp [hbuys]

/-- The cart that a checkout empties is the customer's. -/
theorem cartOf_place (draws : Draws) (q : Quote) (s : Db) (u : ℕ) :
    cartOf (place draws q (prepared u s)) u = some (cartFor s u) := by
  show (prepared u s).carts.first? _ = _
  rw [prepared_carts]
  exact cartOf_withCart u s

/-- Emptying a cart leaves it without active lines. -/
theorem emptied_checkedOut (draws : Draws) (hu : q.userId = u) (s : Db) :
    activeItems (checkedOut draws q (prepared u s))
      (cartFor (checkedOut draws q (prepared u s)) u).1 = [] := by
  have hplace := cartOf_place draws q s u
  have hcarts : (checkedOut draws q (prepared u s)).carts =
      (prepared u s).carts.modify (cartFor s u).1 fun c => { c with couponCode := none } := by
    show clearCoupon (place draws q (prepared u s)) q.userId (prepared u s).carts = _
    unfold clearCoupon
    rw [hu, hplace]
  have hcart : cartOf (checkedOut draws q (prepared u s)) u =
      some ((cartFor s u).1, { (cartFor s u).2 with couponCode := none }) := by
    unfold cartOf
    rw [hcarts]
    exact Table.first?_modify_self hplace fun _ => rfl
  have hitems : (checkedOut draws q (prepared u s)).cartItems =
      (prepared u s).cartItems.remove fun k _ =>
        k ∈ (activeItems (prepared u s) (cartFor s u).1).map Prod.fst := by
    show (prepared u s).cartItems.remove (fun k _ => k ∈ emptied _ q.userId) = _
    unfold emptied
    rw [hu, hplace]
    rfl
  unfold activeItems cartFor
  rw [hcart, hitems]
  exact Table.select_remove_select _ _

/-- After the second commit everything is there. -/
theorem complete_checkedOut (h : Referenced s) (hq : quoted s u data = some q) (draws : Draws) :
    Complete s u (checkedOut draws q (prepared u s)) := by
  have hprepared := frame_prepared u s
  obtain ⟨items, payments, history⟩ := h.prepared u
  obtain ⟨_, hu, _, _⟩ := quote_eq_ok (quoted_eq_some hq).outcome
  obtain ⟨hlines, _⟩ := items_of_quoted hq
  have hnext : s.orders.next = (prepared u s).orders.next := congrArg Table.next hprepared.orders.symm
  refine ⟨?_, ?_, ?_, ?_, ?_, emptied_checkedOut draws hu s⟩
  · rw [hnext, order_checkedOut]
    rfl
  · rw [hnext, ← hprepared.products]
    show (((prepared u s).orderItems.insertAll _).select _).map Prod.snd = _
    rw [Table.map_select_insertAll, select_eq_nil items, List.map_nil, List.nil_append,
      List.filter_eq_self.2, hlines, List.map_map]
    · rfl
    · intro i hi
      obtain ⟨line, _, rfl⟩ := List.mem_map.1 hi
      exact decide_eq_true rfl
  · rw [hnext]
    show (((prepared u s).payments.insert _).select _).length = 1
    rw [Table.select_insert, select_eq_nil payments]
    simp [paymentOf]
  · rw [hnext]
    show (((prepared u s).history.insert _).select _).map _ = _
    rw [Table.select_insert, select_eq_nil history]
    simp [placedHistory]
  · intro y
    rw [← hlines, ← hprepared.products]
    exact stockQty_writeStock _ _ y

/-- A failure of a checkout leaves all or nothing exactly if it does not strike between its two
commits. -/
theorem allOrNothing_iff (h : Referenced s)
    (hk : leftAfter (checkout u data draws) s k = some t) :
    AllOrNothing s u t ↔ ¬ BetweenCommits u data draws s k := by
  have huntouched : ∀ v ∈ s :: commits (quote u data) s, Untouched s u v := by
    intro v hv
    rcases List.mem_cons.1 hv with rfl | hv
    · exact Untouched.refl v u
    · exact (keeps_quote data s (Untouched.refl s u)).1 v hv
  unfold leftAfter at hk
  cases hq : quoted s u data with
  | none =>
    rw [commits_checkout_of_refused hq draws] at hk
    refine iff_of_true (Or.inl (huntouched t (List.mem_of_getElem? hk))) ?_
    rintro ⟨hsome, _⟩
    rw [hq] at hsome
    cases hsome
  | some q =>
    set before := s :: commits (quote u data) s with hbefore
    have hall : s :: commits (checkout u data draws) s =
        before ++ [place draws q (prepared u s), checkedOut draws q (prepared u s)] := by
      rw [commits_checkout hq draws]
      rfl
    have hbetween : BetweenCommits u data draws s k ↔ k = before.length := by
      have hlength := congrArg List.length hall
      simp only [List.length_cons, List.length_append, List.length_nil] at hlength
      unfold BetweenCommits
      simp only [hq, Option.isSome_some, true_and]
      omega
    rw [hall] at hk
    rw [hbetween]
    rcases lt_trichotomy k before.length with hlt | rfl | hgt
    · rw [List.getElem?_append_left hlt] at hk
      exact iff_of_true (Or.inl (huntouched t (List.mem_of_getElem? hk))) (by omega)
    · rw [List.getElem?_append_right le_rfl, Nat.sub_self] at hk
      cases hk
      exact iff_of_false (not_allOrNothing_place h hq draws) (by simp)
    · have hlast : k = before.length + 1 := by
        have hlt := (List.getElem?_eq_some_iff.1 hk).1
        simp only [List.length_append, List.length_cons, List.length_nil] at hlt
        omega
      subst hlast
      rw [List.getElem?_append_right (by omega), Nat.add_sub_cancel_left] at hk
      cases hk
      exact iff_of_true (Or.inr (complete_checkedOut h hq draws)) (by omega)

end Commits

/-! ## A checkout that fails -/

/-- The bakery, with three cakes in the customer's cart. -/
def filledBakery : Db := step bakery (addCakes ⟨3, by decide⟩)

/-- The customer's checkout. -/
def buyThree : Service ℕ := checkout 2 ⟨1, "upi", ""⟩ ⟨"ORD1", "TXN1", 0⟩

theorem filledBakery_referenced : Referenced filledBakery := by
  refine ⟨?_, ?_, ?_⟩ <;> decide +kernel

/-- A failure after both commits leaves all. -/
theorem buyThree_complete : ∃ t, leftAfter buyThree filledBakery 2 = some t ∧
    AllOrNothing filledBakery 2 t := by
  have hsome : (leftAfter buyThree filledBakery 2).isSome = true := by decide +kernel
  obtain ⟨t, ht⟩ := Option.isSome_iff_exists.1 hsome
  refine ⟨t, ht, (allOrNothing_iff filledBakery_referenced ht).2 ?_⟩
  rintro ⟨_, hlength⟩
  revert hlength
  decide +kernel

/-- A failure after the first commit leaves an order without items, payment and history, and the
cart as it was. -/
theorem order_alone : ∃ t, leftAfter buyThree filledBakery 1 = some t ∧
    ¬ AllOrNothing filledBakery 2 t := by
  have hsome : (quoted filledBakery 2 ⟨1, "upi", ""⟩).isSome = true := by decide +kernel
  obtain ⟨q, hq⟩ := Option.isSome_iff_exists.1 hsome
  have hquiet : commits (quote 2 ⟨1, "upi", ""⟩) filledBakery = [] := by
    rw [← List.length_eq_zero_iff]
    decide +kernel
  refine ⟨_, ?_, not_allOrNothing_place filledBakery_referenced hq ⟨"ORD1", "TXN1", 0⟩⟩
  unfold leftAfter buyThree
  rw [commits_checkout hq, hquiet]
  rfl

end Checkout

end SweetCrust
