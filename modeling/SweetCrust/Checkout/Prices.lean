import SweetCrust.Catalog.Requests
import SweetCrust.Checkout.Merging

/-!
# Is every unit charged the price it was added at?

A line of a cart keeps the price of the first addition that went into it; later additions of
the same product and variant are merged into the line, whatever the product costs by then.

* `charged_add_drift` — what an order charges for a product differs from what its additions
  were worth by the drift: the price changes since the first addition of the variant.
* `charged_eq_worth_iff` — every product is charged at its worth exactly if no drift is left.
* `drift_lost` — two cakes, the second added after the price went up.
-/

namespace SweetCrust

open Tabular Session Carts Checkout Shopping Merging Runs

namespace Prices

/-! ## Additions and price changes -/

/-- What happens before the checkout: the customer adds to the cart, and prices change. -/
inductive Event
  | add (a : Choice)
  | reprice (r : Catalog.Request)

def next (userId : ℕ) (db : Db) : Event → Db
  | .add a => Carts.act db (a.request userId)
  | .reprice r => Catalog.serve db r

/-- An addition that goes through, with the price of the product at that time. -/
def addition (db : Db) : Event → Option (Choice × ℚ)
  | .add a => (accepted db.products a).map fun p => (a, customerUnitPrice p)
  | .reprice _ => none

/-- The additions that go through, oldest first. -/
def additions (userId : ℕ) (db : Db) : List Event → List (Choice × ℚ)
  | [] => []
  | e :: es => (addition db e).toList ++ additions userId (next userId db e) es

/-- What the additions of a product were worth. -/
def worth (l : List (Choice × ℚ)) (y : ℕ) : ℚ :=
  (l.map fun x => if x.1.productId = y then ((x.1.quantity : ℤ) : ℚ) * x.2 else 0).sum

/-- The price at the first addition of the same product and variant. -/
def firstPrice (l : List (Choice × ℚ)) (x : Choice × ℚ) : ℚ :=
  ((l.find? fun z => z.1.productId = x.1.productId ∧ z.1.variant = x.1.variant).map
    Prod.snd).getD x.2

/-- How far the price of a product had moved at its additions, since the first of the same
variant. -/
def drift (l : List (Choice × ℚ)) (y : ℕ) : ℚ :=
  (l.map fun x =>
    if x.1.productId = y then ((x.1.quantity : ℤ) : ℚ) * (x.2 - firstPrice l x) else 0).sum

/-- What an order charges for a product. -/
def charged (db : Db) (o y : ℕ) : ℚ :=
  db.orderItems.total fun i =>
    if i.orderId = o then (if i.productId = y then i.totalPrice else 0) else 0

/-- The line that an addition makes. -/
def pricedLine (c : ℕ) (x : Choice × ℚ) : CartItem where
  cartId := c
  productId := x.1.productId
  quantity := x.1.quantity
  variant := x.1.variant
  flavor := x.1.flavor
  isEggless := x.1.isEggless
  unitPrice := x.2
  savedForLater := false

section Collecting

variable {s t : Db} {u c o shop y : ℕ} {l : List CartItem} {xs : List (Choice × ℚ)}
  {es : List Event}

theorem choiceLine_eq (c : ℕ) (db : Db) (a : Choice) :
    choiceLine c db.products a = (addition db (.add a)).map (pricedLine c) := by
  simp only [choiceLine, addition, Option.map_map]
  rfl

/-- A price change leaves every product with its shop. -/
theorem shopOf_serve {r : Catalog.Request} (hr : r.Reprices) (s : Db) (y : ℕ) :
    shopOf (Catalog.serve s r).products y = shopOf s.products y := by
  rw [(Catalog.serve_eq s r).products]
  cases hplan : Catalog.planned s r with
  | none => rfl
  | some change =>
    obtain ⟨k, p, f, rfl, hp, hsupplier⟩ := Catalog.supplier_of_planned hr hplan
    show shopOf (s.products.modify k f) y = _
    unfold shopOf
    rw [Table.get?_modify]
    by_cases hk : y = k
    · subst hk
      simp [hp, sellerOf, hsupplier]
    · rw [if_neg hk]

/-- Neither additions nor price changes touch the orders. -/
theorem orders_run (s : Db) (es : List Event) :
    (run (next u) s es).orderItems = s.orderItems ∧ (run (next u) s es).orders = s.orders := by
  induction es generalizing s with
  | nil => exact ⟨rfl, rfl⟩
  | cons e es ih =>
    obtain ⟨hitems, horders⟩ := ih (next u s e)
    rw [run_cons, hitems, horders]
    cases e with
    | add a =>
      have hframe := (change_act s (a.request u)).2
      exact ⟨hframe.orderItems, hframe.orders⟩
    | reprice r => exact (Catalog.carts_serve s r).2.2

/-- A cart collects the lines of the additions that go through, whatever prices do. -/
theorem collects_run (h : (lines c).Collects s.cartItems l) (hc : (cartFor s u).1 = c)
    (hl : ∀ i ∈ l, shopOf s.products i.productId = some shop)
    (hshop : ∀ a, .add a ∈ es → shopOf s.products a.productId = some shop)
    (hreprice : ∀ r, .reprice r ∈ es → r.Reprices) :
    (lines c).Collects (run (next u) s es).cartItems (l ++ (additions u s es).map (pricedLine c)) ∧
      (cartFor (run (next u) s es) u).1 = c := by
  induction es generalizing s l with
  | nil => simpa [additions] using ⟨h, hc⟩
  | cons e es ih =>
    rw [run_cons, additions, List.map_append, ← List.append_assoc]
    cases e with
    | add a =>
      have ha := hshop a (by simp)
      obtain ⟨hnext, hcart⟩ := collects_act h hc hl ha
      have hproducts : (next u s (.add a)).products = s.products :=
        (change_act s (a.request u)).2.products
      rw [choiceLine_eq, Option.toList_map] at hnext
      refine ih hnext hcart ?_ ?_ fun r hr => hreprice r (by simp [hr])
      · rw [hproducts]
        intro i hi
        rcases List.mem_append.1 hi with hi | hi
        · exact hl i hi
        · obtain ⟨x, hx, rfl⟩ := List.mem_map.1 hi
          obtain ⟨product, _, rfl⟩ := Option.map_eq_some_iff.1 (Option.mem_toList.1 hx)
          exact ha
      · rw [hproducts]
        exact fun b hb => hshop b (by simp [hb])
    | reprice r =>
      have hr := hreprice r (by simp)
      obtain ⟨hcarts, hitems, _⟩ := Catalog.carts_serve s r
      have hnone : (addition s (.reprice r)).toList.map (pricedLine c) = [] := rfl
      rw [hnone, List.append_nil]
      refine ih ?_ ?_ ?_ ?_ fun r' hr' => hreprice r' (by simp [hr'])
      · rw [show (next u s (.reprice r)).cartItems = s.cartItems from hitems]
        exact h
      · rw [← hc]
        unfold cartFor cartOf
        rw [show (next u s (.reprice r)).carts = s.carts from hcarts]
      · exact fun i hi => (shopOf_serve hr s _).trans (hl i hi)
      · exact fun a ha => (shopOf_serve hr s _).trans (hshop a (by simp [ha]))

/-- The first line with the product and variant of an addition has its first price. -/
theorem firstMark_pricedLine (c : ℕ) (xs : List (Choice × ℚ)) (x : Choice × ℚ) :
    ((lines c).firstMark (xs.map (pricedLine c)) (pricedLine c x)).unitPrice = firstPrice xs x := by
  have hkey : (fun i => decide ((lines c).key i = (lines c).key (pricedLine c x))) ∘ pricedLine c =
      fun z : Choice × ℚ =>
        decide (z.1.productId = x.1.productId ∧ z.1.variant = x.1.variant) := by
    funext z
    rw [Function.comp_apply, decide_eq_decide]
    exact Prod.mk.injEq _ _ _ _ ▸ Iff.rfl
  unfold Merge.firstMark Merge.first firstPrice
  rw [List.find?_map, hkey]
  cases xs.find? _ <;> rfl

/-- Without a price change between the additions of a variant, there is no drift. -/
theorem drift_eq_zero (h : ∀ x ∈ xs, ∀ z ∈ xs, z.1.productId = x.1.productId →
    z.1.variant = x.1.variant → z.2 = x.2) (y : ℕ) : drift xs y = 0 := by
  refine List.sum_eq_zero fun d hd => ?_
  obtain ⟨x, hx, rfl⟩ := List.mem_map.1 hd
  have hfirst : firstPrice xs x = x.2 := by
    unfold firstPrice
    cases hfound : xs.find? _ with
    | none => rfl
    | some z =>
      have hkey := List.find?_some hfound
      simp only [decide_eq_true_eq] at hkey
      exact h x hx z (List.mem_of_find?_eq_some hfound) hkey.1 hkey.2
  rw [hfirst, sub_self, mul_zero, ite_self]

end Collecting

/-! ## What is charged -/

section Charging

variable {s t : Db} {u o shop : ℕ} {es : List Event} {data : CheckoutIn} {draws : Draws}

/-- An order charges for a product what its additions were worth, but for the drift. -/
theorem charged_add_drift (hrefs : s.orderItems.All fun i => i.orderId < s.orders.next)
    (hempty : activeItems s (cartFor s u).1 = [])
    (hshop : ∀ a, .add a ∈ es → shopOf s.products a.productId = some shop)
    (hreprice : ∀ r, .reprice r ∈ es → r.Reprices)
    (hout : (checkout u data draws (run (next u) s es)).2 = .ok (o, t)) (y : ℕ) :
    charged t o y + drift (additions u s es) y = worth (additions u s es) y := by
  set c := (cartFor s u).1 with hc
  set xs := additions u s es
  have hnil : (lines c).Collects s.cartItems [] := by
    refine Merge.collects_nil fun r hr => ?_
    have hnot := List.filter_eq_nil_iff.1 hempty r hr
    simpa [lines] using hnot
  obtain ⟨hcollects, hcart⟩ := collects_run hnil hc.symm (by simp) hshop hreprice
  rw [List.nil_append, ← hcart] at hcollects
  have hrefs' : (run (next u) s es).orderItems.All
      fun i => i.orderId < (run (next u) s es).orders.next := by
    obtain ⟨hitems, horders⟩ := orders_run (u := u) s es
    rw [hitems, horders]
    exact hrefs
  have hcharged : charged t o y =
      (xs.map fun x =>
        if x.1.productId = y then firstPrice xs x * ((x.1.quantity : ℤ) : ℚ) else 0).sum := by
    unfold charged
    rw [total_created hrefs' hcollects hout (fun i => if i.productId = y then i.totalPrice else 0)
      fun k m => if k.1 = y then (AddMonoidHom.mulLeft m.unitPrice).comp (Int.castAddHom ℚ) else 0]
    · rw [List.map_map]
      refine congrArg List.sum (List.map_congr_left fun x _ => ?_)
      simp only [Function.comp_apply, firstMark_pricedLine]
      show (if x.1.productId = y then _ else _ : ℤ →+ ℚ) _ = _
      split_ifs <;> rfl
    · intro r
      show (if r.2.productId = y then r.2.unitPrice * r.2.quantity else 0) =
        (if r.2.productId = y then _ else _ : ℤ →+ ℚ) _
      split_ifs <;> rfl
  rw [hcharged]
  unfold drift worth
  rw [← List.sum_map_add]
  refine congrArg List.sum (List.map_congr_left fun x _ => ?_)
  split_ifs
  · ring
  · exact add_zero 0

/-- Every product is charged at what its additions were worth, exactly if the price changes
between the additions of a variant cancel. -/
theorem charged_eq_worth_iff (hrefs : s.orderItems.All fun i => i.orderId < s.orders.next)
    (hempty : activeItems s (cartFor s u).1 = [])
    (hshop : ∀ a, .add a ∈ es → shopOf s.products a.productId = some shop)
    (hreprice : ∀ r, .reprice r ∈ es → r.Reprices)
    (hout : (checkout u data draws (run (next u) s es)).2 = .ok (o, t)) :
    (∀ y, charged t o y = worth (additions u s es) y) ↔ ∀ y, drift (additions u s es) y = 0 := by
  refine forall_congr' fun y => ?_
  have hsum := charged_add_drift hrefs hempty hshop hreprice hout y
  constructor
  · intro h
    linarith
  · intro h
    linarith

end Charging

/-! ## Two cakes, the second dearer -/

/-- A cake of a shop, user 1, and a customer, user 2. -/
def shopAtStart : Db :=
  { Db.empty with
    users := .ofList [{ (default : User) with role := .retailer }, default]
    products := .ofList
      [{ (default : Product) with
          supplierUserId := some 1, sellingPrice := 400, stockQty := 5, isActive := true }]
    addresses := .ofList
      [{ (default : Address) with userId := 2, latitude := some 20, longitude := some 85 }] }

/-- One cake. -/
def cake (variant : Option String) : Event := .add ⟨1, Quantity.one, variant, none, false⟩

/-- The price goes up. -/
def dearer : Event := .reprice (.prices 1 { sellingPrice := some (some 450) })

/-- The customer's checkout. -/
def buyCakes : Service ℕ := checkout 2 ⟨1, "upi", ""⟩ ⟨"ORD1", "TXN1", 0⟩

/-- Cakes of two variants are charged at their prices, though the price changes between. -/
theorem cakes_charged : ∃ o t,
    (buyCakes (run (next 2) shopAtStart [cake none, dearer, cake (some "large")])).2 = .ok (o, t) ∧
      ∀ y, charged t o y =
        worth (additions 2 shopAtStart [cake none, dearer, cake (some "large")]) y := by
  have hsome : (buyCakes
      (run (next 2) shopAtStart [cake none, dearer, cake (some "large")])).2.toOption.isSome =
      true := by decide +kernel
  cases hout : (buyCakes (run (next 2) shopAtStart [cake none, dearer, cake (some "large")])).2 with
  | error e =>
    rw [hout] at hsome
    cases hsome
  | ok r =>
    have hshop : ∀ a, .add a ∈ [cake none, dearer, cake (some "large")] →
        shopOf shopAtStart.products a.productId = some 1 := by
      simp only [cake, dearer, List.mem_cons, List.not_mem_nil, or_false, reduceCtorEq, false_or,
        Event.add.injEq]
      rintro a (rfl | rfl) <;> decide +kernel
    refine ⟨r.1, r.2, rfl, (charged_eq_worth_iff (by decide) (by decide) hshop ?_ hout).2 ?_⟩
    · simp only [cake, dearer, List.mem_cons, List.not_mem_nil, or_false, reduceCtorEq, false_or,
        Event.reprice.injEq]
      rintro r rfl
      exact trivial
    · exact drift_eq_zero (by decide +kernel)

/-- The second cake is charged at the price of the first. -/
theorem drift_lost :
    ¬ ∀ (s t : Db) (u o shop : ℕ) (es : List Event) (data : CheckoutIn) (draws : Draws),
      (s.orderItems.All fun i => i.orderId < s.orders.next) →
      activeItems s (cartFor s u).1 = [] →
      (∀ a, .add a ∈ es → shopOf s.products a.productId = some shop) →
      (∀ r, .reprice r ∈ es → r.Reprices) →
      (checkout u data draws (run (next u) s es)).2 = .ok (o, t) →
      ∀ y, charged t o y = worth (additions u s es) y := by
  intro h
  have hcharged : (buyCakes (run (next 2) shopAtStart [cake none, dearer, cake none])).2.toOption.map
      (fun r => charged r.2 r.1 1) = some 800 := by decide +kernel
  have hworth : worth (additions 2 shopAtStart [cake none, dearer, cake none]) 1 = 850 := by
    decide +kernel
  cases hout : (buyCakes (run (next 2) shopAtStart [cake none, dearer, cake none])).2 with
  | error e =>
    rw [hout] at hcharged
    cases hcharged
  | ok r =>
    have hshop : ∀ a, .add a ∈ [cake none, dearer, cake none] →
        shopOf shopAtStart.products a.productId = some 1 := by
      simp only [cake, dearer, List.mem_cons, List.not_mem_nil, or_false, reduceCtorEq, false_or,
        Event.add.injEq, or_self]
      rintro a rfl
      decide +kernel
    have hreprice : ∀ r, .reprice r ∈ [cake none, dearer, cake none] → r.Reprices := by
      simp only [cake, dearer, List.mem_cons, List.not_mem_nil, or_false, reduceCtorEq, false_or,
        Event.reprice.injEq]
      rintro r rfl
      exact trivial
    have hone := h shopAtStart r.2 2 r.1 1 _ _ _ (by decide) (by decide) hshop hreprice hout 1
    rw [hout] at hcharged
    rw [show charged r.2 r.1 1 = 800 from Option.some.inj hcharged, hworth] at hone
    norm_num at hone

end Prices

end SweetCrust
