import SweetCrust.Checkout.Merging

/-!
# Does an order ship what was chosen?

A customer fills an empty cart with products of one shop and checks out.  The lines of the
cart are merged by product and variant, and the items of the order are copied from them
without the eggless mark.

* `shipsChosen_iff` — the order ships every combination of product, variant, flavor and
  eggless in the quantity chosen, exactly if nothing eggless was added and every product
  and variant was added in one flavor.
* `choices_lost` — two flavors of one cake, shipped as one.
-/

namespace SweetCrust

open Tabular Session Carts Checkout Shopping Merging Runs

namespace Choices

/-- What a customer chooses of a product. -/
structure Combination where
  productId : ℕ
  variant : Option String
  flavor : Option String
  isEggless : Bool
  deriving DecidableEq

def choiceOf (a : Choice) : Combination := ⟨a.productId, a.variant, a.flavor, a.isEggless⟩

def itemOf (i : OrderItem) : Combination := ⟨i.productId, i.variant, i.flavor, i.isEggless⟩

/-- How much of a combination was added, by the additions that went through. -/
def chosen (products : Table Product) (choices : List Choice) (x : Combination) : ℤ :=
  (choices.map fun a =>
    if (accepted products a).isSome = true ∧ choiceOf a = x then (a.quantity : ℤ) else 0).sum

/-- How much of a combination the items of an order hold. -/
def shipped (db : Db) (o : ℕ) (x : Combination) : ℤ :=
  db.orderItems.total fun i => if i.orderId = o then (if itemOf i = x then i.quantity else 0) else 0

/-- The customer's additions, one after another. -/
def fill (u : ℕ) (db : Db) (choices : List Choice) : Db :=
  run (fun db a => act db (a.request u)) db choices

/-- Nothing eggless was added, and each product and variant in one flavor. -/
structure Unmixed (products : Table Product) (choices : List Choice) : Prop where
  eggs : ∀ a ∈ choices, (accepted products a).isSome = true → a.isEggless = false
  flavors : ∀ a ∈ choices, ∀ b ∈ choices, (accepted products a).isSome = true →
    (accepted products b).isSome = true → a.productId = b.productId → a.variant = b.variant →
    a.flavor = b.flavor

section Filling

variable {s t : Db} {u c o shop : ℕ} {l : List CartItem} {choices : List Choice}

theorem frame_fill (u : ℕ) (s : Db) (choices : List Choice) : Frame s (fill u s choices) := by
  induction choices generalizing s with
  | nil => exact Frame.refl s
  | cons a choices ih => exact (change_act s (a.request u)).2.trans (ih _)

/-- Filling a cart collects the lines of the additions that go through. -/
theorem collects_fill (h : (lines c).Collects s.cartItems l) (hc : (cartFor s u).1 = c)
    (hl : ∀ i ∈ l, shopOf s.products i.productId = some shop)
    (hshop : ∀ a ∈ choices, shopOf s.products a.productId = some shop) :
    (lines c).Collects (fill u s choices).cartItems
        (l ++ choices.filterMap (choiceLine c s.products)) ∧
      (cartFor (fill u s choices) u).1 = c := by
  induction choices generalizing s l with
  | nil => simpa [fill] using ⟨h, hc⟩
  | cons a choices ih =>
    have ha := hshop a (by simp)
    obtain ⟨hnext, hcart⟩ := collects_act h hc hl ha
    have hproducts : (act s (a.request u)).products = s.products :=
      (change_act s (a.request u)).2.products
    have hrest := ih hnext hcart (by
      rw [hproducts]
      intro i hi
      rcases List.mem_append.1 hi with hi | hi
      · exact hl i hi
      · obtain ⟨product, _, rfl⟩ := Option.map_eq_some_iff.1 (Option.mem_toList.1 hi)
        exact ha) (by
      rw [hproducts]
      exact fun b hb => hshop b (by simp [hb]))
    rw [hproducts, List.append_assoc] at hrest
    have hlist : (choiceLine c s.products a).toList ++ choices.filterMap (choiceLine c s.products) =
        (a :: choices).filterMap (choiceLine c s.products) := by
      cases hline : choiceLine c s.products a <;> simp [hline]
    rw [hlist] at hrest
    exact hrest

end Filling

/-! ## Under which combination a line is shipped -/

section Labels

variable {c : ℕ} {l : List CartItem} {label : CartItem → Combination} {x : Combination}
  {i : CartItem}

/-- How much the lines with a label hold. -/
def weight (l : List CartItem) (label : CartItem → Combination) (x : Combination) : ℤ :=
  (l.map fun i => if label i = x then i.quantity else 0).sum

theorem weight_eq_zero (h : ∀ i ∈ l, label i ≠ x) : weight l label x = 0 := by
  refine List.sum_eq_zero fun y hy => ?_
  obtain ⟨i, hi, rfl⟩ := List.mem_map.1 hy
  exact if_neg (h i hi)

theorem weight_pos (hq : ∀ i ∈ l, 1 ≤ i.quantity) (hi : i ∈ l) : 0 < weight l label (label i) := by
  have hle : i.quantity ≤ weight l label (label i) := by
    refine List.single_le_sum (fun y hy => ?_) _ (List.mem_map.2 ⟨i, hi, if_pos rfl⟩)
    obtain ⟨j, hj, rfl⟩ := List.mem_map.1 hy
    have hj := hq j hj
    split_ifs <;> omega
  have hone := hq i hi
  omega

/-- What was chosen with a line. -/
def lineChoice (i : CartItem) : Combination := ⟨i.productId, i.variant, i.flavor, i.isEggless⟩

/-- What an order makes of a line. -/
def shippedAs (c : ℕ) (l : List CartItem) (i : CartItem) : Combination :=
  ⟨i.productId, i.variant, ((lines c).firstMark l i).flavor, false⟩

/-- The combinations weigh the same under two labels exactly if the labels agree, where lines of
one key are kept under one label, and a label is that of lines of one key. -/
theorem weights_eq_iff_labels {κ : Type} (key : CartItem → κ) {kept own : CartItem → Combination}
    (hkept : ∀ i ∈ l, ∀ j ∈ l, key i = key j → kept i = kept j)
    (hown : ∀ i ∈ l, ∀ j ∈ l, kept j = own i → key j = key i)
    (hq : ∀ i ∈ l, 1 ≤ i.quantity) :
    (∀ x, weight l kept x = weight l own x) ↔ ∀ i ∈ l, kept i = own i := by
  constructor
  · intro h i hi
    -- some line is kept as `i` was chosen, and so `i` is
    have hfound : ∃ j ∈ l, kept j = own i := by
      by_contra hnone
      simp only [not_exists, not_and] at hnone
      have hpos : 0 < weight l own (own i) := weight_pos hq hi
      rw [← h, weight_eq_zero hnone] at hpos
      exact absurd hpos (lt_irrefl 0)
    obtain ⟨j, hj, hsame⟩ := hfound
    rw [hkept i hi j hj (hown i hi j hj hsame).symm, hsame]
  · intro h x
    unfold weight
    exact congrArg List.sum (List.map_congr_left fun i hi => by rw [h i hi])

/-- The combinations weigh the same exactly if every line is shipped as it was chosen. -/
theorem weights_eq_iff (hq : ∀ i ∈ l, 1 ≤ i.quantity) :
    (∀ x, weight l (shippedAs c l) x = weight l lineChoice x) ↔
      (∀ i ∈ l, i.isEggless = false) ∧ ∀ i ∈ l, ∀ j ∈ l, i.productId = j.productId →
        i.variant = j.variant → i.flavor = j.flavor := by
  have hshipped : ∀ i ∈ l, ∀ j ∈ l, (lines c).key i = (lines c).key j →
      shippedAs c l i = shippedAs c l j := by
    intro i hi j _ hkey
    have hmark := Merge.firstMark_eq_of_key_eq hi hkey
    rw [shippedAs, shippedAs, hmark, show i.productId = j.productId from congrArg Prod.fst hkey,
      show i.variant = j.variant from congrArg Prod.snd hkey]
  rw [weights_eq_iff_labels (lines c).key hshipped ?_ hq]
  · constructor
    · intro h
      have hflavor : ∀ i ∈ l, i.flavor = ((lines c).firstMark l i).flavor := fun i hi =>
        (congrArg Combination.flavor (h i hi)).symm
      refine ⟨fun i hi => (congrArg Combination.isEggless (h i hi)).symm, ?_⟩
      intro i hi j hj hproduct hvariant
      have hkey : (lines c).key i = (lines c).key j := Prod.ext hproduct hvariant
      rw [hflavor i hi, hflavor j hj, Merge.firstMark_eq_of_key_eq hi hkey]
    · rintro ⟨heggs, hflavors⟩ i hi
      obtain ⟨j, hj, hkey, hmark⟩ := Merge.exists_firstMark (M := lines c) hi
      have hflavor := hflavors j hj i hi (congrArg Prod.fst hkey) (congrArg Prod.snd hkey)
      simp only [shippedAs, lineChoice, hmark, heggs i hi]
      rw [← hflavor]
      rfl
  · intro i _ j _ hsame
    simp only [shippedAs, lineChoice, Combination.mk.injEq] at hsame
    exact Prod.ext hsame.1 hsame.2.1

end Labels

section Orders

variable {s t : Db} {u c o shop : ℕ} {choices : List Choice}

theorem mem_choiceLines {products : Table Product} {i : CartItem} :
    i ∈ choices.filterMap (choiceLine c products) ↔
      ∃ a ∈ choices, ∃ p, accepted products a = some p ∧
        newLine c a.productId a.quantity a.variant a.flavor a.isEggless p = i := by
  simp [choiceLine, List.mem_filterMap, Option.map_eq_some_iff]

/-- What was chosen, as the lines of the additions that went through. -/
theorem chosen_eq_weight (c : ℕ) (products : Table Product) (choices : List Choice)
    (x : Combination) :
    chosen products choices x =
      weight (choices.filterMap (choiceLine c products)) lineChoice x := by
  unfold chosen weight
  induction choices with
  | nil => rfl
  | cons a choices ih =>
    rw [List.map_cons, List.sum_cons, ih]
    cases hp : accepted products a with
    | none =>
      have hline : choiceLine c products a = none := by simp [choiceLine, hp]
      rw [List.filterMap_cons_none hline]
      simp
    | some product =>
      have hline : choiceLine c products a = some (newLine c a.productId a.quantity a.variant
          a.flavor a.isEggless product) := by simp [choiceLine, hp]
      have hlabel : lineChoice (newLine c a.productId a.quantity a.variant a.flavor a.isEggless
          product) = choiceOf a := rfl
      rw [List.filterMap_cons_some hline, List.map_cons, List.sum_cons, hlabel]
      by_cases hx : choiceOf a = x <;> simp [hx, newLine]

/-- The condition, as one on the lines of the additions that go through. -/
theorem unmixed_iff (c : ℕ) (products : Table Product) (choices : List Choice) :
    Unmixed products choices ↔
      (∀ i ∈ choices.filterMap (choiceLine c products), i.isEggless = false) ∧
        ∀ i ∈ choices.filterMap (choiceLine c products),
          ∀ j ∈ choices.filterMap (choiceLine c products), i.productId = j.productId →
            i.variant = j.variant → i.flavor = j.flavor := by
  constructor
  · rintro ⟨heggs, hflavors⟩
    refine ⟨fun i hi => ?_, fun i hi j hj hproduct hvariant => ?_⟩
    · obtain ⟨a, ha, p, hp, rfl⟩ := mem_choiceLines.1 hi
      exact heggs a ha (by simp [hp])
    · obtain ⟨a, ha, p, hp, rfl⟩ := mem_choiceLines.1 hi
      obtain ⟨b, hb, q, hq, rfl⟩ := mem_choiceLines.1 hj
      exact hflavors a ha b hb (by simp [hp]) (by simp [hq]) hproduct hvariant
  · rintro ⟨heggs, hflavors⟩
    refine ⟨fun a ha hsome => ?_, fun a ha b hb hasome hbsome hproduct hvariant => ?_⟩
    · obtain ⟨p, hp⟩ := Option.isSome_iff_exists.1 hsome
      exact heggs _ (mem_choiceLines.2 ⟨a, ha, p, hp, rfl⟩)
    · obtain ⟨p, hp⟩ := Option.isSome_iff_exists.1 hasome
      obtain ⟨q, hq⟩ := Option.isSome_iff_exists.1 hbsome
      exact hflavors _ (mem_choiceLines.2 ⟨a, ha, p, hp, rfl⟩) _
        (mem_choiceLines.2 ⟨b, hb, q, hq, rfl⟩) hproduct hvariant

/-- The order of a cart that was filled with products of one shop ships every combination in
the quantity chosen, exactly if the additions do not mix. -/
theorem shipsChosen_iff (hrefs : s.orderItems.All fun i => i.orderId < s.orders.next)
    (hempty : activeItems s (cartFor s u).1 = [])
    (hshop : ∀ a ∈ choices, shopOf s.products a.productId = some shop) {data : CheckoutIn}
    {draws : Draws} (hout : (checkout u data draws (fill u s choices)).2 = .ok (o, t)) :
    (∀ x, shipped t o x = chosen s.products choices x) ↔ Unmixed s.products choices := by
  set c := (cartFor s u).1 with hc
  set l := choices.filterMap (choiceLine c s.products) with hl
  have hframe := frame_fill u s choices
  have hnil : (lines c).Collects s.cartItems [] := by
    refine Merge.collects_nil fun r hr => ?_
    have hnot := List.filter_eq_nil_iff.1 hempty r hr
    simpa [lines] using hnot
  obtain ⟨hcollects, hcart⟩ := collects_fill hnil hc.symm (by simp) hshop
  rw [List.nil_append, ← hcart] at hcollects
  have hrefs' : (fill u s choices).orderItems.All
      fun i => i.orderId < (fill u s choices).orders.next := by
    rw [hframe.orderItems, hframe.orders]
    exact hrefs
  have hshipped : ∀ x, shipped t o x = weight l (shippedAs c l) x := by
    intro x
    unfold shipped
    rw [total_created hrefs' hcollects hout (fun i => if itemOf i = x then i.quantity else 0)
      fun k m => if (⟨k.1, k.2, m.flavor, false⟩ : Combination) = x then .id ℤ else 0]
    · rw [hcart]
      unfold weight shippedAs
      refine congrArg List.sum (List.map_congr_left fun i _ => ?_)
      dsimp only
      split_ifs <;> rfl
    · intro r
      have hsame : itemOf (orderItem o (fill u s choices).products (lineOf (fill u s choices) r)) =
          ⟨r.2.productId, r.2.variant, r.2.flavor, false⟩ := rfl
      rw [hsame]
      split_ifs <;> rfl
  have hquantity : ∀ i ∈ l, 1 ≤ i.quantity := by
    intro i hi
    obtain ⟨a, _, p, _, rfl⟩ := mem_choiceLines.1 hi
    exact a.quantity.2
  rw [unmixed_iff c, ← weights_eq_iff (c := c) hquantity]
  refine forall_congr' fun x => ?_
  rw [hshipped, chosen_eq_weight c]

end Orders

/-! ## Two flavors of one cake -/

/-- A cake of a shop, user 1, and a customer, user 2. -/
def cakes : Db :=
  { Db.empty with
    users := .ofList [{ (default : User) with role := .retailer }, default]
    products := .ofList
      [{ (default : Product) with
          supplierUserId := some 1, sellingPrice := 400, stockQty := 5, isActive := true }]
    addresses := .ofList
      [{ (default : Address) with userId := 2, latitude := some 20, longitude := some 85 }] }

/-- One cake in a flavor. -/
def cakeOf (flavor : String) : Choice := ⟨1, Quantity.one, none, some flavor, false⟩

/-- The customer's checkout. -/
def buyCakes : Service ℕ := checkout 2 ⟨1, "upi", ""⟩ ⟨"ORD1", "TXN1", 0⟩

theorem cakes_shipped : ∃ o t,
    (buyCakes (fill 2 cakes [cakeOf "vanilla", cakeOf "vanilla"])).2 = .ok (o, t) ∧
      ∀ x, shipped t o x = chosen cakes.products [cakeOf "vanilla", cakeOf "vanilla"] x := by
  have hsome : (buyCakes (fill 2 cakes [cakeOf "vanilla", cakeOf "vanilla"])).2.toOption.isSome =
      true := by decide +kernel
  cases hout : (buyCakes (fill 2 cakes [cakeOf "vanilla", cakeOf "vanilla"])).2 with
  | error e =>
    rw [hout] at hsome
    cases hsome
  | ok r =>
    have hshop : ∀ a ∈ [cakeOf "vanilla", cakeOf "vanilla"],
        shopOf cakes.products a.productId = some 1 := by decide +kernel
    refine ⟨r.1, r.2, rfl, (shipsChosen_iff (by decide) (by decide) hshop hout).2 ?_⟩
    exact ⟨by decide +kernel, by decide +kernel⟩

theorem choices_lost :
    ¬ ∀ (s t : Db) (u o shop : ℕ) (choices : List Choice) (data : CheckoutIn) (draws : Draws),
      (s.orderItems.All fun i => i.orderId < s.orders.next) →
      activeItems s (cartFor s u).1 = [] →
      (∀ a ∈ choices, shopOf s.products a.productId = some shop) →
      (checkout u data draws (fill u s choices)).2 = .ok (o, t) →
      ∀ x, shipped t o x = chosen s.products choices x := by
  intro h
  have hshipped : (buyCakes (fill 2 cakes [cakeOf "vanilla", cakeOf "mango"])).2.toOption.map
      (fun r => shipped r.2 r.1 ⟨1, none, some "mango", false⟩) = some 0 := by decide +kernel
  cases hout : (buyCakes (fill 2 cakes [cakeOf "vanilla", cakeOf "mango"])).2 with
  | error e =>
    rw [hout] at hshipped
    cases hshipped
  | ok r =>
    have hmango := h cakes r.2 2 r.1 1 _ _ _ (by decide) (by decide) (by decide +kernel) hout
      ⟨1, none, some "mango", false⟩
    rw [hout] at hshipped
    rw [show shipped r.2 r.1 ⟨1, none, some "mango", false⟩ = 0 from Option.some.inj hshipped]
      at hmango
    revert hmango
    decide +kernel

end Choices

end SweetCrust
