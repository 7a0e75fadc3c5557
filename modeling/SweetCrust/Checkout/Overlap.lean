import SweetCrust.Checkout.Stock
import SweetCrust.Lib.Processes

/-!
# Checkouts that overlap

A checkout works in four steps: it reads and validates the cart, commits the order, reads
the products, and commits the rest.  Nothing is locked in between, so two checkouts may
take any turns.

* `run_alone` — the four steps of a checkout that nothing interrupts are `checkout`.
* `noDuplicates_of_orderly` — when the checkouts of one customer follow one another, no
  other checkout of a product is between its two last steps when the products are read,
  and the stock covers the order, every line of a cart goes into at most one order, and the
  stock falls by what is ordered.
* `bakery_double` — a checkout submitted twice.
-/

namespace SweetCrust

open Tabular Session Runs Carts Processes

namespace Checkout

namespace Overlap

/-- A checkout request. -/
structure Attempt where
  userId : ℕ
  data : CheckoutIn
  draws : Draws

/-- How far a checkout has come. -/
inductive Phase
  | idle
  | refused
  | quoted (q : Quote)
  | placed (orderId : ℕ) (q : Quote)
  | fetched (orderId : ℕ) (q : Quote) (seen : Db)
  | done (orderId : ℕ) (q : Quote)

/-- The next step of a checkout. -/
def act (a : Attempt) (db : Db) : Phase → Db × Phase
  | .idle =>
    (final (quote a.userId a.data) db,
      match Checkout.quoted db a.userId a.data with
      | some q => .quoted q
      | none => .refused)
  | .quoted q => (place a.draws q db, .placed db.orders.next q)
  | .placed o q => (db, .fetched o q db)
  | .fetched o q seen => (finish o a.draws q seen db, .done o q)
  | .refused => (db, .refused)
  | .done o q => (db, .done o q)

/-- The four steps of a checkout that nothing interrupts. -/
theorem run_alone (a : Attempt) (db : Db) :
    (run (advance fun _ : Unit => act a) ⟨db, fun _ => .idle⟩ [(), (), (), ()]).shared =
      final (checkout a.userId a.data a.draws) db := by
  cases hq : Checkout.quoted db a.userId a.data with
  | none =>
    rw [(checkout_refused hq a.draws).1, ← final_quote a.userId a.data db]
    simp [run, advance, act, hq]
  | some q =>
    rw [(checkout_returns hq a.draws).final, ← final_quote a.userId a.data db]
    simp [run, advance, act, hq, checkedOut]

/-- The lines that a checkout has read and not yet bought. -/
def Phase.reading : Phase → Option Quote
  | .quoted q => some q
  | .placed _ q => some q
  | .fetched _ q _ => some q
  | _ => none

/-- The lines of a checkout that has read the products and is about to commit. -/
def Phase.buying : Phase → List Line
  | .fetched _ q _ => q.summary.items
  | _ => []

/-- The order that a checkout created, and the lines that went into it. -/
def Phase.bought : Phase → Option (ℕ × List ℕ)
  | .done o q => some (o, q.summary.items.map Line.id)
  | _ => none

variable {ι : Type}

/-- A step that comes in turn: the cart is read when no checkout of the same customer is
under way, and the products when their stock covers the order and no other checkout is about
to write one of them. -/
def InTurn (request : ι → Attempt) (c : Conf Db Phase ι) (i : ι) : Phase → Prop
  | .idle => ∀ j, j ≠ i → (request j).userId = (request i).userId →
      (c.loc j).reading.isNone = true
  | .placed _ q => ∀ line ∈ q.summary.items,
      demand q.summary.items line.productId ≤ stockIn c.shared.products line.productId ∧
        ∀ j, j ≠ i → ¬ buys (c.loc j).buying line.productId
  | _ => True

/-- The next step of the process comes in turn. -/
def Orderly (request : ι → Attempt) (c : Conf Db Phase ι) (i : ι) : Prop :=
  InTurn request c i (c.loc i)

instance [Fintype ι] [DecidableEq ι] (request : ι → Attempt) (c : Conf Db Phase ι) (i : ι) :
    DecidablePred (InTurn request c i)
  | .idle => inferInstanceAs (Decidable (∀ _, _))
  | .placed _ q => inferInstanceAs (Decidable (∀ line ∈ q.summary.items, _ ∧ ∀ _, _))
  | .refused | .quoted _ | .fetched .. | .done .. => isTrue trivial

instance [Fintype ι] [DecidableEq ι] (request : ι → Attempt) (c : Conf Db Phase ι) (i : ι) :
    Decidable (Orderly request c i) := inferInstanceAs (Decidable (InTurn request c i (c.loc i)))

/-- A line of a cart went into an order. -/
def WentInto (c : Conf Db Phase ι) (k o : ℕ) : Prop :=
  ∃ i keys, (c.loc i).bought = some (o, keys) ∧ k ∈ keys

/-- Every line goes into at most one order, and the stock falls by what is ordered. -/
structure NoDuplicates (db : Db) (c : Conf Db Phase ι) : Prop where
  once : ∀ k o o', WentInto c k o → WentInto c k o' → o = o'
  stock : ∀ y, stockIn c.shared.products y =
    stockIn db.products y - (sold c.shared y - sold db y)

/-! ## The assertions -/

/-- The lines that the quote is about. -/
def keys (q : Quote) : List ℕ := q.summary.items.map Line.id

/-- The quote is of the customer's cart as it is now. -/
structure Current (u : ℕ) (db : Db) (q : Quote) : Prop where
  user : q.userId = u
  quantity : ∀ line ∈ q.summary.items, 0 ≤ line.quantity
  cart : ∃ cartId cart, cartOf db u = some (cartId, cart) ∧
    (activeItems db cartId).map Prod.fst = keys q

/-- The products that the order needs are as they were seen, and there is enough of them. -/
structure Covered (db : Db) (q : Quote) (seen : Db) : Prop where
  sound : Sound seen
  same : ∀ y, buys q.summary.items y →
    (seen.products.get? y).map Product.stockQty = (db.products.get? y).map Product.stockQty
  enough : ∀ y, buys q.summary.items y → demand q.summary.items y ≤ stockIn db.products y

/-- What holds of a checkout that has come this far. -/
def Own (request : ι → Attempt) (i : ι) (db : Db) : Phase → Prop
  | .quoted q => Current (request i).userId db q
  | .placed o q => Current (request i).userId db q ∧ o < db.orders.next
  | .fetched o q seen => Current (request i).userId db q ∧ o < db.orders.next ∧
      emptied seen (request i).userId = keys q ∧ Covered db q seen
  | .done _ q => ∀ k ∈ keys q, db.cartItems.get? k = none
  | _ => True

/-- What holds of two checkouts. -/
structure Apart (request : ι → Attempt) (i j : ι) (l l' : Phase) : Prop where
  customer : l.reading.isSome = true → l'.reading.isSome = true →
    (request i).userId ≠ (request j).userId
  product : ∀ y, ¬ (buys l.buying y ∧ buys l'.buying y)
  line : ∀ o o' ks ks', l.bought = some (o, ks) → l'.bought = some (o', ks') → ∀ k ∈ ks, k ∉ ks'

/-- What holds of the database: nothing is lost of what there was. -/
structure Conserved (db₀ db : Db) : Prop where
  sound : Sound db
  total : ∀ y, stockIn db.products y + sold db y = stockIn db₀.products y + sold db₀ y

section Stability

variable {u v : ℕ} {s t : Db} {q : Quote} {request : ι → Attempt} {i j : ι} {l : Phase}

theorem Current.reads (h : Current u s q) {t : Db}
    (hcart : (cartOf t u).map Prod.fst = (cartOf s u).map Prod.fst)
    (hitems : ∀ cartId cart, cartOf s u = some (cartId, cart) →
      activeItems t cartId = activeItems s cartId) : Current u t q := by
  obtain ⟨cartId, cart, hget, hkeys⟩ := h.cart
  rw [hget, Option.map_some] at hcart
  obtain ⟨⟨cartId', cart'⟩, hget', hsame⟩ := Option.map_eq_some_iff.1 hcart
  obtain rfl : cartId' = cartId := hsame
  exact ⟨h.user, h.quantity, cartId', cart', hget', by rw [hitems _ _ hget, hkeys]⟩

/-- What emptying a cart deletes is what a current quote is about. -/
theorem Current.emptied_eq (h : Current u s q) : emptied s u = keys q := by
  obtain ⟨cartId, cart, hget, hkeys⟩ := h.cart
  unfold Checkout.emptied
  rw [hget]
  exact hkeys

/-- The lines of a current quote are lines of the customer's cart. -/
theorem Current.get? (h : Current u s q) {k : ℕ} (hk : k ∈ keys q) :
    ∃ item cartId cart, s.cartItems.get? k = some item ∧ cartOf s u = some (cartId, cart) ∧
      item.cartId = cartId := by
  obtain ⟨cartId, cart, hget, hkeys⟩ := h.cart
  rw [← hkeys] at hk
  obtain ⟨r, hr, rfl⟩ := List.mem_map.1 hk
  obtain ⟨hmem, hin⟩ := List.mem_filter.1 hr
  refine ⟨r.2, cartId, cart, Table.get?_eq_some.2 hmem, hget, ?_⟩
  simp only [inCart, decide_eq_true_eq] at hin
  exact hin.1

/-- Another customer's cart is another cart. -/
theorem cartOf_ne {k k' : ℕ} {c c' : Cart} (hne : u ≠ v) (hu : cartOf s u = some (k, c))
    (hv : cartOf s v = some (k', c')) : k ≠ k' := by
  obtain ⟨hget, huser⟩ := Table.get?_of_first? hu
  obtain ⟨hget', huser'⟩ := Table.get?_of_first? hv
  rintro rfl
  rw [hget'] at hget
  cases hget
  simp only [decide_eq_true_eq] at huser huser'
  exact hne (huser.symm.trans huser')

/-- Creating a cart leaves the others. -/
theorem cartOf_withCart_of_some {r : ℕ × Cart} (h : cartOf s v = some r) :
    cartOf (withCart u s) v = some r := by
  unfold withCart
  cases cartOf s u with
  | some _ => exact h
  | none => exact Table.first?_insert_of_some _ h

theorem cartOf_prepared_of_some {r : ℕ × Cart} (h : cartOf s v = some r) :
    cartOf (prepared u s) v = some r := by
  rw [← cartOf_withCart_of_some (u := u) h]
  unfold cartOf
  rw [prepared_carts]

/-- The rows that a summary creates are nothing that another quote is about. -/
theorem Current.prepared (h : Current v s q) (u : ℕ) : Current v (prepared u s) q := by
  obtain ⟨cartId, cart, hget, hkeys⟩ := h.cart
  refine h.reads ?_ fun _ _ _ => ?_
  · rw [hget, cartOf_prepared_of_some hget]
  · unfold activeItems
    rw [prepared_cartItems]

theorem Own.prepared (h : Own request j s l) (u : ℕ) : Own request j (prepared u s) l := by
  have hframe := frame_prepared u s
  cases l with
  | idle => trivial
  | refused => trivial
  | quoted q => exact Current.prepared h u
  | placed o q => exact ⟨h.1.prepared u, by rw [hframe.orders]; exact h.2⟩
  | fetched o q seen =>
    obtain ⟨hcurrent, ho, hemptied, hcovered⟩ := h
    refine ⟨hcurrent.prepared u, by rw [hframe.orders]; exact ho, hemptied, ⟨hcovered.sound, ?_, ?_⟩⟩
    · rw [hframe.products]
      exact hcovered.same
    · rw [hframe.products]
      exact hcovered.enough
  | done o q => 
    intro k hk
    rw [prepared_cartItems]
    exact h k hk

theorem Own.place (h : Own request j s l) (draws : Draws) (q : Quote) :
    Own request j (place draws q s) l := by
  cases l with
  | idle => trivial
  | refused => trivial
  | quoted q => exact Current.reads h rfl fun _ _ _ => rfl
  | placed o q => exact ⟨h.1.reads rfl fun _ _ _ => rfl, Nat.lt_succ_of_lt h.2⟩
  | fetched o q seen =>
    obtain ⟨hcurrent, ho, hemptied, hcovered⟩ := h
    exact ⟨hcurrent.reads rfl fun _ _ _ => rfl, Nat.lt_succ_of_lt ho, hemptied, hcovered.sound,
      hcovered.same, hcovered.enough⟩
  | done o q => exact h

/-- Clearing the coupon of one cart leaves whose carts they are. -/
theorem cartOf_clearCoupon {t : Db} (seen : Db) (u : ℕ) {r : ℕ × Cart} (h : cartOf s v = some r)
    (ht : t.carts = clearCoupon seen u s.carts) :
    (cartOf t v).map Prod.fst = (cartOf s v).map Prod.fst := by
  unfold cartOf at *
  rw [ht]
  unfold clearCoupon
  split
  · rename_i cartId _ _
    rw [Table.first?_modify s.carts (i := cartId) (f := fun c => { c with couponCode := none })
      (p := fun c => c.userId = v) fun _ => rfl, Option.map_map]
    rfl
  · rw [Table.first?_insert_of_some _ h, h]

/-- The last step of one customer's checkout leaves another customer's cart. -/
theorem Current.finish {o : ℕ} {draws : Draws} {q' : Quote} {seen : Db} (h : Current v s q)
    (hi : Current u s q') (hne : u ≠ v) (hemptied : emptied seen u = keys q') :
    Current v (finish o draws q' seen s) q := by
  obtain ⟨cartId, cart, hget, hkeys⟩ := h.cart
  refine h.reads (cartOf_clearCoupon seen q'.userId hget rfl) fun cartId' cart' hget' => ?_
  rw [hget] at hget'
  cases hget'
  have hkeep : ∀ r ∈ s.cartItems.rows, inCart cartId r.2 = true → r.1 ∉ keys q' := by
    intro r hr hin hmem
    obtain ⟨item, c, cart', hitem, hc, hown⟩ := hi.get? hmem
    have hsame : r.2 = item := Table.row_unique hr (Table.get?_eq_some.1 hitem)
    simp only [inCart, decide_eq_true_eq, hsame] at hin
    exact cartOf_ne hne hc hget (hown.symm.trans hin.1)
  show (s.cartItems.remove _).select _ = s.cartItems.select _
  unfold Table.select Table.remove
  rw [List.filter_filter]
  refine List.filter_congr fun r hr => ?_
  rw [hi.user, hemptied]
  by_cases hin : inCart cartId r.2 = true
  · simp [hin, hkeep r hr hin]
  · simp [hin]

/-- A product that an order does not buy is left as it is. -/
theorem get?_writeStock_of_not_buys {lines : List Line} {seen products : Table Product} {y : ℕ}
    (h : ¬ buys lines y) : (writeStock lines seen products).get? y = products.get? y := by
  unfold writeStock
  rw [Table.get?_mapRows]
  simp [h]

/-- The last step of a checkout leaves what holds of another. -/
theorem Own.finish {o : ℕ} {draws : Draws} {q : Quote} {seen : Db} (h : Own request j s l)
    (hi : Current (request i).userId s q) (hemptied : emptied seen (request i).userId = keys q)
    (hapart : Apart request i j (.fetched o q seen) l) :
    Own request j (finish o draws q seen s) l := by
  cases l with
  | idle => trivial
  | refused => trivial
  | quoted q' => exact Current.finish h hi (hapart.customer rfl rfl) hemptied
  | placed o' q' => exact ⟨h.1.finish hi (hapart.customer rfl rfl) hemptied, h.2⟩
  | fetched o' q' seen' =>
    obtain ⟨hcurrent, ho, hemptied', hcovered⟩ := h
    refine ⟨hcurrent.finish hi (hapart.customer rfl rfl) hemptied, ho, hemptied',
      hcovered.sound, fun y hy => ?_, fun y hy => ?_⟩
    all_goals have hnot : ¬ buys q.summary.items y := fun hbuys => hapart.product y ⟨hbuys, hy⟩
    · show _ = ((writeStock q.summary.items seen.products s.products).get? y).map _
      rw [get?_writeStock_of_not_buys hnot]
      exact hcovered.same y hy
    · show _ ≤ stockIn (writeStock q.summary.items seen.products s.products) y
      rw [stockIn, get?_writeStock_of_not_buys hnot]
      exact hcovered.enough y hy
  | done o' q' =>
    intro k hk
    show (s.cartItems.remove _).get? k = none
    rw [Table.get?_remove, h k hk]
    rfl

/-- Two checkouts of which one is not under way are apart as they were. -/
theorem Apart.of_not_reading {l l' : Phase} (h : l.reading = none) (hb : l.bought = none)
    (hl : l.buying = []) : Apart request i j l l' where
  customer := by simp [h]
  product := by simp [hl, buys]
  line := by simp [hb]

theorem Apart.symm {l l' : Phase} (h : Apart request i j l l') :
    Apart request j i l' l where
  customer := fun hl' hl => (h.customer hl hl').symm
  product := fun y hy => h.product y hy.symm
  line := fun o o' ks ks' hb hb' k hk hk' => h.line o' o ks' ks hb' hb k hk' hk

end Stability

/-! ## Steps that come in turn -/

section Steps

variable [DecidableEq ι] {request : ι → Attempt} {db : Db} {c : Conf Db Phase ι} {i : ι}

/-- All that holds of an execution in which every step comes in turn. -/
abbrev Kept (request : ι → Attempt) (db : Db) (c : Conf Db Phase ι) : Prop :=
  Annotated (Conserved db) (Own request) (Apart request) c

/-- A summary that is read in turn. -/
theorem Kept.quote (h : Kept request db c) (hi : c.loc i = .idle) (hturn : Orderly request c i) :
    Kept request db (advance (fun i => act (request i)) c i) := by
  set a := request i with ha
  have hframe := frame_prepared a.userId c.shared
  have hconserved : Conserved db (prepared a.userId c.shared) := by
    refine ⟨h.shared.sound.prepared _, fun y => ?_⟩
    rw [sold, hframe.products, hframe.orderItems]
    exact h.shared.total y
  have hothers : ∀ j, j ≠ i → Own request j (prepared a.userId c.shared) (c.loc j) :=
    fun j _ => (h.own j).prepared _
  cases hq : Checkout.quoted c.shared a.userId a.data with
  | none =>
    have hstep : act a c.shared (c.loc i) = (prepared a.userId c.shared, .refused) := by
      rw [hi, act, final_quote, hq]
    refine h.advance hstep hconserved trivial hothers fun j _ => ?_
    have hapart : ∀ l', Apart request i j .refused l' := fun l' => .of_not_reading rfl rfl rfl
    exact ⟨hapart _, (hapart _).symm⟩
  | some q =>
    have hstep : act a c.shared (c.loc i) = (prepared a.userId c.shared, .quoted q) := by
      rw [hi, act, final_quote, hq]
    obtain ⟨_, huser, hsummary, _⟩ := quote_eq_ok (quoted_eq_some hq).outcome
    have hcurrent : Current a.userId (prepared a.userId c.shared) q := by
      refine ⟨huser, ?_, (cartFor c.shared a.userId).1, (cartFor c.shared a.userId).2, ?_, ?_⟩
      · rw [hsummary]
        exact quantity_summaryFor h.shared.sound _
      · rw [← cartOf_withCart a.userId c.shared]
        unfold cartOf
        rw [prepared_carts]
      · rw [keys, hsummary, items_summaryFor, List.map_map]
        unfold activeItems
        rw [prepared_cartItems]
        rfl
    refine h.advance hstep hconserved hcurrent hothers fun j hj => ?_
    have hapart : Apart request i j (.quoted q) (c.loc j) := by
      refine ⟨fun _ hreading heq => ?_, by simp [Phase.buying, buys], by simp [Phase.bought]⟩
      have hnone : (c.loc j).reading.isNone = true := by
        unfold Orderly at hturn
        rw [hi] at hturn
        exact hturn j hj heq.symm
      rw [Option.isNone_iff_eq_none] at hnone
      rw [hnone] at hreading
      cases hreading
    exact ⟨hapart, hapart.symm⟩

/-- The order that follows it. -/
theorem Kept.place {q : Quote} (h : Kept request db c) (hi : c.loc i = .quoted q) :
    Kept request db (advance (fun i => act (request i)) c i) := by
  have hstep : act (request i) c.shared (c.loc i) =
      (Checkout.place (request i).draws q c.shared, .placed c.shared.orders.next q) := by
    rw [hi, act]
  have hown : Current (request i).userId c.shared q := by
    have := h.own i
    rwa [hi] at this
  refine h.advance hstep ⟨h.shared.sound.place _ q, h.shared.total⟩ ?_
    (fun j _ => (h.own j).place _ q) fun j hj => ?_
  · exact ⟨hown.reads rfl fun _ _ _ => rfl, Nat.lt_succ_self _⟩
  · have hapart := h.pair i j hj.symm
    rw [hi] at hapart
    have hnext : Apart request i j (.placed c.shared.orders.next q) (c.loc j) :=
      ⟨hapart.customer, hapart.product, hapart.line⟩
    exact ⟨hnext, hnext.symm⟩

/-- The products, read in turn. -/
theorem Kept.fetch {o : ℕ} {q : Quote} (h : Kept request db c) (hi : c.loc i = .placed o q)
    (hturn : Orderly request c i) :
    Kept request db (advance (fun i => act (request i)) c i) := by
  have hstep : act (request i) c.shared (c.loc i) = (c.shared, .fetched o q c.shared) := by
    rw [hi, act]
  have hown := h.own i
  rw [hi] at hown
  unfold Orderly at hturn
  rw [hi] at hturn
  have hcovered : Covered c.shared q c.shared := by
    refine ⟨h.shared.sound, fun _ _ => rfl, ?_⟩
    rintro y ⟨line, hline, rfl⟩
    exact (hturn line hline).1
  refine h.advance hstep h.shared ⟨hown.1, hown.2, hown.1.emptied_eq, hcovered⟩
    (fun j _ => h.own j) fun j hj => ?_
  have hapart := h.pair i j hj.symm
  rw [hi] at hapart
  have hnext : Apart request i j (.fetched o q c.shared) (c.loc j) := by
    refine ⟨hapart.customer, ?_, hapart.line⟩
    rintro y ⟨⟨line, hline, rfl⟩, hbuying⟩
    exact (hturn line hline).2 j hj hbuying
  exact ⟨hnext, hnext.symm⟩

/-- The last commit. -/
theorem Kept.finish {o : ℕ} {q : Quote} {seen : Db} (h : Kept request db c)
    (hi : c.loc i = .fetched o q seen) :
    Kept request db (advance (fun i => act (request i)) c i) := by
  have hstep : act (request i) c.shared (c.loc i) =
      (Checkout.finish o (request i).draws q seen c.shared, .done o q) := by
    rw [hi, act]
  have hown := h.own i
  rw [hi] at hown
  obtain ⟨hcurrent, ho, hemptied, hcovered⟩ := hown
  have hpair : ∀ j, j ≠ i → Apart request i j (.fetched o q seen) (c.loc j) := by
    intro j hj
    have := h.pair i j hj.symm
    rwa [hi] at this
  refine h.advance hstep ⟨hcovered.sound.finish h.shared.sound ho _ q, fun y => ?_⟩ ?_
    (fun j hj => (h.own j).finish hcurrent hemptied (hpair j hj)) fun j hj => ?_
  · have hnonneg := stockIn_nonneg h.shared.sound.stock y
    have hstock : stockIn (writeStock q.summary.items seen.products c.shared.products) y = _ :=
      stockIn_writeStock hcurrent.quantity hnonneg (hcovered.same y)
    have hsold := total_orderItems c.shared.orderItems q.summary.items o seen.products
      (fun _ => True) y trivial
    simp only [true_and] at hsold
    have henough : demand q.summary.items y ≤ stockIn c.shared.products y := by
      by_cases hy : buys q.summary.items y
      · exact hcovered.enough y hy
      · rw [demand_of_not_buys hy]
        exact hnonneg
    have htotal := h.shared.total y
    show stockIn (writeStock _ _ _) y + (c.shared.orderItems.insertAll _).total _ = _
    rw [hstock, hsold, ← htotal, sold]
    omega
  · intro k hk
    show (c.shared.cartItems.remove _).get? k = none
    rw [Table.get?_remove, hcurrent.user, hemptied]
    cases c.shared.cartItems.get? k <;> simp [hk]
  · have hnext : Apart request i j (.done o q) (c.loc j) := by
      refine ⟨by simp [Phase.reading], by simp [Phase.buying, buys], ?_⟩
      rintro o₁ o₂ ks ks' ⟨⟩ hb k hk hk'
      cases hj' : c.loc j <;> rw [hj'] at hb <;> cases hb
      have hdone := h.own j
      rw [hj'] at hdone
      obtain ⟨item, _, _, hget, _⟩ := hcurrent.get? hk
      rw [hdone k hk'] at hget
      cases hget
    exact ⟨hnext, hnext.symm⟩

/-- Every step in turn keeps what holds. -/
theorem Kept.step (h : Kept request db c) (hturn : Orderly request c i) :
    Kept request db (advance (fun i => act (request i)) c i) := by
  have hstay : act (request i) c.shared (c.loc i) = (c.shared, c.loc i) →
      Kept request db (advance (fun i => act (request i)) c i) := fun hstep =>
    h.advance hstep h.shared (h.own i) (fun j _ => h.own j) fun j hj =>
      ⟨h.pair i j hj.symm, h.pair j i hj⟩
  cases hi : c.loc i with
  | idle => exact h.quote hi hturn
  | refused => exact hstay (by rw [hi, act])
  | quoted q => exact h.place hi
  | placed o q => exact h.fetch hi hturn
  | fetched o q seen => exact h.finish hi
  | done o q => exact hstay (by rw [hi, act])

omit [DecidableEq ι] in
/-- Before any step, everything holds. -/
theorem kept_start (hdb : Sound db) : Kept request db ⟨db, fun _ => .idle⟩ where
  shared := ⟨hdb, fun _ => rfl⟩
  own := fun _ => trivial
  pair := fun _ _ _ => .of_not_reading rfl rfl rfl

/-- When every step comes in turn, every line goes into at most one order, and the stock
falls by what is ordered. -/
theorem noDuplicates_of_orderly (request : ι → Attempt) (hdb : Sound db) (is : List ι)
    (his : Stepwise (advance fun i => act (request i)) (Orderly request) ⟨db, fun _ => .idle⟩ is) :
    NoDuplicates db (run (advance fun i => act (request i)) ⟨db, fun _ => .idle⟩ is) := by
  have hthrough := throughout_of_stepwise (P := Kept request db) (fun _ _ hc hi => hc.step hi)
    (kept_start hdb) his
  have h : Kept request db (run (advance fun i => act (request i)) ⟨db, fun _ => .idle⟩ is) :=
    hthrough.final
  refine ⟨?_, fun y => ?_⟩
  · rintro k o o' ⟨i, ks, hi, hk⟩ ⟨j, ks', hj, hk'⟩
    by_cases hij : i = j
    · subst hij
      rw [hi] at hj
      cases hj
      rfl
    · exact absurd hk' ((h.pair i j hij).line o o' ks ks' hi hj k hk)
  · rw [eq_sub_iff_add_eq, ← add_sub_assoc, sub_eq_iff_eq_add]
    exact h.shared.total y

end Steps

/-! ## Two checkouts of one product, and one checkout twice -/

/-- The bakery with three cakes in the cart of user 2 and two in the cart of user 3. -/
def busyBakery : Db :=
  { bakery with
    users := .ofList [{ (default : User) with role := .retailer }, default, default]
    carts := .ofList [⟨2, none⟩, ⟨3, none⟩]
    cartItems := .ofList
      [{ (default : CartItem) with cartId := 1, productId := 1, quantity := 3, unitPrice := 100 },
        { (default : CartItem) with cartId := 2, productId := 1, quantity := 2, unitPrice := 100 }]
    addresses := .ofList
      [{ (default : Address) with userId := 2, latitude := some 20, longitude := some 85 },
        { (default : Address) with userId := 3, latitude := some 20, longitude := some 85 }] }

/-- The checkouts of user 2 and of user 3. -/
def twoCustomers (first : Bool) : Attempt :=
  if first then ⟨2, ⟨1, "upi", ""⟩, ⟨"ORD1", "TXN1", 0⟩⟩ else ⟨3, ⟨2, "upi", ""⟩, ⟨"ORD2", "TXN2", 0⟩⟩

/-- The checkout of user 2, submitted twice. -/
def twice (first : Bool) : Attempt :=
  ⟨2, ⟨1, "upi", ""⟩, if first then ⟨"ORD1", "TXN1", 0⟩ else ⟨"ORD2", "TXN2", 0⟩⟩

theorem busyBakery_sound : Sound busyBakery := by
  refine ⟨?_, ?_, ?_, ?_⟩ <;> decide

/-- Two customers may order at the same time, as long as each reads the products when the
other is not about to write them. -/
theorem busyBakery_noDuplicates :
    NoDuplicates busyBakery (run (advance fun i => act (twoCustomers i))
      ⟨busyBakery, fun _ => .idle⟩ [true, false, true, false, true, true, false, false]) := by
  refine noDuplicates_of_orderly twoCustomers busyBakery_sound _ ?_
  refine stepwise_cons.2 ⟨?_, stepwise_cons.2 ⟨?_, stepwise_cons.2 ⟨?_, stepwise_cons.2 ⟨?_,
    stepwise_cons.2 ⟨?_, stepwise_cons.2 ⟨?_, stepwise_cons.2 ⟨?_, stepwise_cons.2 ⟨?_,
      stepwise_nil _ _⟩⟩⟩⟩⟩⟩⟩⟩
  all_goals decide +kernel

/-- Of a checkout that is submitted twice, each reads the line before the other deletes it:
the three cakes go into two orders. -/
theorem busyBakery_double :
    ¬ NoDuplicates busyBakery (run (advance fun i => act (twice i))
      ⟨busyBakery, fun _ => .idle⟩ [true, false, true, true, true, false, false, false]) := by
  intro h
  have hfirst : WentInto (run (advance fun i => act (twice i)) ⟨busyBakery, fun _ => .idle⟩
      [true, false, true, true, true, false, false, false]) 1 1 :=
    ⟨true, [1], by decide +kernel, by simp⟩
  have hsecond : WentInto (run (advance fun i => act (twice i)) ⟨busyBakery, fun _ => .idle⟩
      [true, false, true, true, true, false, false, false]) 1 2 :=
    ⟨false, [1], by decide +kernel, by simp⟩
  exact absurd (h.once 1 1 2 hfirst hsecond) (by decide)

end Overlap

end Checkout

end SweetCrust
