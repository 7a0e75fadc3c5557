import SweetCrust.Catalog.Store

/-!
# Do stock movements explain the stock?

A correction of the stock and the goods of a purchase are entered as stock movements.  A
change of the product by its shop or by the admin, and a sale, are not.

* `Books` — the database, with the stock that each product had when it was created.
* `Explains` — every stock is what it was at first and what its movements add, and no stock
  is negative.
* `explained_iff` — this holds throughout a run exactly if each act of it is accounted for.
* `change_unexplained` — a shop that changes its stock.
-/

namespace SweetCrust

open Tabular Session Carts Checkout Runs Orders.OrderService

namespace Catalog

/-! ## Stock and movements -/

/-- What the movements of a product add up to. -/
def moved (movements : Table StockMovement) (y : ℕ) : ℤ :=
  movements.total fun m => if m.productId = y then m.changeQty else 0

/-- Every stock is what it was at first and what its movements add, and is not negative. -/
def Explains (opening : ℕ → ℤ) (products : Table Product) (movements : Table StockMovement) :
    Prop :=
  ∀ y p, products.get? y = some p → p.stockQty = opening y + moved movements y ∧ 0 ≤ p.stockQty

/-- The database, with the stock that each product had when it was created. -/
structure Books where
  db : Db
  opening : ℕ → ℤ

/-- The stock at first, once the products are others: a new product has what it came with. -/
def opened (opening : ℕ → ℤ) (before after : Table Product) (y : ℕ) : ℤ :=
  if before.get? y = none then stockIn after y else opening y

def Books.step (env : Payment.Env) (b : Books) (a : Act) : Books where
  db := act env b.db a
  opening := opened b.opening b.db.products (act env b.db a).products

def Books.Explained (b : Books) : Prop := Explains b.opening b.db.products b.db.movements

/-- No product is created with a negative stock, a request that sets a stock enters it as a
movement or sets what is there, and what is bought is out of stock. -/
def Accounted (b : Books) : Act → Prop
  | .product r =>
    (∀ p, planned b.db r = some (.add p) → 0 ≤ p.stockQty) ∧
      ∀ y p f movements, planned b.db r = some (.write y p f movements) →
        ∀ q ∈ r.sets.stock, 0 ≤ q ∧ (r.movements p = [] → q = p.stockQty)
  | .shopping (.checkout u data _) => (quoted b.db u data).isSome →
      ∀ r ∈ activeItems b.db (cartFor b.db u).1, stockIn b.db.products r.2.productId = 0
  | .purchase _ => True
  | .shopping _ => True

/-- Movements are of products that exist, and lines, items and purchase orders hold at least
one piece. -/
structure Whole (db : Db) : Prop where
  movements : db.movements.All fun m => m.productId < db.products.next
  lines : db.cartItems.All fun i => 1 ≤ i.quantity
  items : db.orderItems.All fun i => 1 ≤ i.quantity
  purchases : db.purchases.All fun p => 0 < p.qty

/-! ## What acts leave whole -/

section Whole

variable {env : Payment.Env} {s : Db} {a : Act} {products : Table Product}
  {movements : Table StockMovement}

theorem Whole.awaited (h : Whole s) {purchase : SupplierPurchase} (hp : Awaited s purchase) :
    0 < purchase.qty := by
  rcases hp with hnew | ⟨id, hfound⟩
  · exact hnew.qty
  · exact h.purchases.get? hfound

/-- Only a correction of the stock is entered as a movement. -/
theorem movements_cases (r : Request) (p : Product) :
    r.movements p = [] ∨ ∃ y q reason note adminId, r = .stock y q reason note adminId ∧
      r.movements p = [adjustment y p q reason note adminId] := by
  cases r with
  | stock y q reason note adminId => exact Or.inr ⟨y, q, reason, note, adminId, rfl, rfl⟩
  | _ => exact Or.inl rfl

theorem productId_of_movements {r : Request} {y : ℕ} {p : Product} (hy : r.productId = some y) :
    ∀ m ∈ r.movements p, m.productId = y := by
  intro m hm
  rcases movements_cases r p with hnil | ⟨k, q, reason, note, adminId, rfl, hentered⟩
  · rw [hnil] at hm
    cases hm
  · rw [hentered, List.mem_singleton] at hm
    cases hy
    rw [hm]
    rfl

/-- The movements that an act enters are of products that exist. -/
theorem movements_effect (h : s.movements.All fun m => m.productId < s.products.next)
    (he : Effect s a products movements) : movements.All fun m => m.productId < products.next := by
  cases he with
  | keep => exact h
  | added r p hplan => exact h.imp fun m hm => Nat.lt_succ_of_lt hm
  | written r y p f ms hplan =>
    obtain ⟨hp, hy, _, rfl⟩ := written_of_planned hplan
    refine h.insertAll fun m hm => ?_
    rw [productId_of_movements hy m hm]
    exact Table.lt_next_of_get? hp
  | received r purchase p shopName createdBy hawaited hp =>
    exact h.insert (Table.lt_next_of_get? hp)
  | sold u data draws q hq => exact h

/-- The lines that a customer's request leaves hold at least one piece. -/
theorem lines_whole (hl : s.cartItems.All fun i => 1 ≤ i.quantity)
    (hi : s.orderItems.All fun i => 1 ≤ i.quantity) (r : Shopping.Request) :
    (Shopping.step s r).cartItems.All fun i => 1 ≤ i.quantity := by
  cases r with
  | cart r =>
    refine (change_act s r).1.all hl (fun _ _ hline => hline) (fun line q hq hline => ?_) ?_
    · show 1 ≤ line.quantity + q
      omega
    · intro line q b hline
      cases q with
      | none => exact hline
      | some q => exact q.2
  | reorder o u =>
    have hpast : ∀ i ∈ pastItems s o u, 1 ≤ i.quantity := by
      intro i hmem
      unfold pastItems at hmem
      split at hmem
      · obtain ⟨x, hx, rfl⟩ := List.mem_map.1 hmem
        exact hi x (List.mem_of_mem_filter hx)
      · cases hmem
    rcases cartItems_reorder o u s with hsame | hadded
    · rw [show (Shopping.step s (.reorder o u)).cartItems = s.cartItems from hsame]
      exact hl
    · rw [show (Shopping.step s (.reorder o u)).cartItems = _ from hadded]
      refine all_reordered hl (fun i hmem line hline => ?_) fun i hmem _ _ => ?_
      · have hone := hpast i hmem
        show 1 ≤ line.quantity + i.quantity
        omega
      · exact hpast i ((List.takeWhile_prefix _).subset hmem)
  | coupon u code =>
    rw [show (Shopping.step s (.coupon u code)).cartItems = s.cartItems from
      Promotion.cartItems_applyCoupon u code s]
    exact hl
  | checkout u data draws =>
    have hprepared : (prepared u s).cartItems.All fun i => 1 ≤ i.quantity := by
      rw [prepared_cartItems]
      exact hl
    rcases Shopping.step_cases s (.checkout u data draws) with ⟨_, hrefused⟩ | ⟨v, _, _, q, hr, _, ht⟩
    · rw [hrefused u data draws rfl]
      exact hprepared
    · cases hr
      rw [ht]
      exact hprepared.remove _

/-- The items of the orders that a customer's request leaves hold at least one piece. -/
theorem items_whole (hl : s.cartItems.All fun i => 1 ≤ i.quantity)
    (hi : s.orderItems.All fun i => 1 ≤ i.quantity) (r : Shopping.Request) :
    (Shopping.step s r).orderItems.All fun i => 1 ≤ i.quantity := by
  rcases Shopping.step_cases s r with ⟨hframe, _⟩ | ⟨u, data, draws, q, rfl, hq, ht⟩
  · rw [hframe.orderItems]
    exact hi
  · have hold : (prepared u s).orderItems.All fun i => 1 ≤ i.quantity := by
      rw [(frame_prepared u s).orderItems]
      exact hi
    rw [ht]
    refine hold.insertAll fun i hmem => ?_
    obtain ⟨line, hline, rfl⟩ := List.mem_map.1 hmem
    rw [(items_of_quoted hq).1] at hline
    obtain ⟨r, hr, rfl⟩ := List.mem_map.1 hline
    exact hl r (List.mem_of_mem_filter hr)

/-- A customer opens no purchase order. -/
theorem purchases_shopping (s : Db) (r : Shopping.Request) :
    (Shopping.step s r).purchases = s.purchases := by
  rcases Shopping.step_cases s r with ⟨⟨_, _, _, ht⟩, _⟩ | ⟨u, data, draws, q, rfl, hq, ht⟩
  · rw [ht]
  · obtain ⟨_, _, _, hprepared⟩ := frame_prepared u s
    have hkept : (prepared u s).purchases = s.purchases := by rw [hprepared]
    rw [ht]
    exact hkept

/-- A purchase order is opened for at least one piece, and keeps its quantity. -/
theorem purchases_whole (h : s.purchases.All fun p => 0 < p.qty) (r : Purchase.Request) :
    (Purchase.step env s r).purchases.All fun p => 0 < p.qty := by
  have hreceived : ∀ (markPaid : Bool) (total : ℚ) (payMethod : Option String)
      (p : SupplierPurchase), (Purchase.receivedRow markPaid total payMethod p).qty = p.qty := by
    intro markPaid total payMethod p
    cases markPaid <;> rfl
  have hchange := Purchase.change_step env s r
  generalize Purchase.step env s r = t at hchange
  cases hchange with
  | idle => exact h
  | opened p hnew => exact h.insert hnew.qty
  | bought p product i profile createdBy markPaid payMethod hnew hstocked hsupplier =>
    rw [Purchase.receiveGoods_purchases]
    refine Table.All.insert h ?_
    rw [hreceived]
    exact hnew.qty
  | received id p product i profile createdBy hfound hpending hstocked hsupplier =>
    rw [Purchase.receiveGoods_purchases]
    refine Table.All.modify h fun row hrow => ?_
    rw [hreceived]
    exact hrow
  | rejected id p hfound hpending => exact h.modify fun _ hrow => hrow
  | paid id p i profile pay method note pid hfound hopen hcents hrules hsupplier =>
    rw [Purchase.settle_purchases]
    exact h.modify fun _ hrow => hrow
  | noted id p note hfound hopen => exact h.modify fun _ hrow => hrow

/-- Every act leaves the rows whole. -/
theorem Whole.act (h : Whole s) (a : Act) : Whole (act env s a) := by
  have hmovements := movements_effect h.movements (effect_act env s a)
  cases a with
  | shopping r =>
    refine ⟨hmovements, lines_whole h.lines h.items r, items_whole h.lines h.items r, ?_⟩
    show (Shopping.step s r).purchases.All _
    rw [purchases_shopping]
    exact h.purchases
  | product r =>
    obtain ⟨_, hlines, hitems, _⟩ := carts_serve s r
    refine ⟨hmovements, ?_, ?_, ?_⟩
    · show (serve s r).cartItems.All _
      rw [hlines]
      exact h.lines
    · show (serve s r).orderItems.All _
      rw [hitems]
      exact h.items
    · show (serve s r).purchases.All _
      obtain ⟨profiles, categories, ht⟩ := serve_eq s r
      rw [ht]
      cases planned s r with
      | none => exact h.purchases
      | some c => cases c <;> exact h.purchases
  | purchase r =>
    obtain ⟨hlines, hitems, _⟩ := cartItems_purchase env s r
    refine ⟨hmovements, ?_, ?_, purchases_whole h.purchases r⟩
    · show (Purchase.step env s r).cartItems.All _
      rw [hlines]
      exact h.lines
    · show (Purchase.step env s r).orderItems.All _
      rw [hitems]
      exact h.items

end Whole

/-! ## What acts leave explained -/

section Law

variable {env : Payment.Env} {s : Db} {a : Act} {opening : ℕ → ℤ} {products after : Table Product}
  {movements : Table StockMovement} {ms : List StockMovement} {lines : List Line} {y : ℕ}
  {p : Product} {f : Product → Product}

/-- A product that was there keeps the stock that it had at first. -/
theorem opened_of_get? (hp : products.get? y = some p) : opened opening products after y = opening y :=
  if_neg (by simp [hp])

theorem moved_insertAll (hms : ∀ m ∈ ms, m.productId = y) (k : ℕ) :
    moved (movements.insertAll ms) k =
      moved movements k + if k = y then (ms.map StockMovement.changeQty).sum else 0 := by
  unfold moved
  rw [Table.total_insertAll]
  congr 1
  by_cases hk : k = y
  · rw [if_pos hk]
    refine congrArg List.sum (List.map_congr_left fun m hm => ?_)
    rw [if_pos ((hms m hm).trans hk.symm)]
  · rw [if_neg hk]
    refine List.sum_eq_zero fun x hx => ?_
    obtain ⟨m, hm, rfl⟩ := List.mem_map.1 hx
    rw [if_neg fun h => hk (h.symm.trans (hms m hm))]

/-- A product that is rewritten stays explained exactly if its movements enter the difference,
and its stock is not negative. -/
theorem explains_write (h : Explains opening products movements) (hp : products.get? y = some p)
    (hms : ∀ m ∈ ms, m.productId = y) :
    Explains (opened opening products (products.modify y f)) (products.modify y f)
        (movements.insertAll ms) ↔
      (f p).stockQty = p.stockQty + (ms.map StockMovement.changeQty).sum ∧ 0 ≤ (f p).stockQty := by
  constructor
  · intro hafter
    obtain ⟨hstock, _⟩ := h y p hp
    obtain ⟨hnew, hsign⟩ := hafter y (f p) (by rw [Table.get?_modify_self, hp]; rfl)
    rw [opened_of_get? hp, moved_insertAll hms, if_pos rfl] at hnew
    exact ⟨by omega, hsign⟩
  · rintro ⟨hnew, hsign⟩ k q hk
    rw [moved_insertAll hms]
    by_cases hky : k = y
    · subst hky
      rw [Table.get?_modify_self, hp, Option.map_some, Option.some.injEq] at hk
      subst hk
      obtain ⟨hstock, _⟩ := h k p hp
      rw [opened_of_get? hp, if_pos rfl]
      exact ⟨by omega, hsign⟩
    · rw [Table.get?_modify_of_ne _ _ hky] at hk
      rw [opened_of_get? hk, if_neg hky, add_zero]
      exact h k q hk

/-- A product that is added is explained exactly if its stock is not negative. -/
theorem explains_insert (h : Explains opening products movements)
    (hrefs : movements.All fun m => m.productId < products.next) :
    Explains (opened opening products (products.insert p)) (products.insert p) movements ↔
      0 ≤ p.stockQty := by
  have hself : (products.insert p).get? products.next = some p := by simp
  constructor
  · intro hafter
    exact (hafter _ p hself).2
  · intro hsign k q hk
    by_cases hknext : k = products.next
    · subst hknext
      rw [hself, Option.some.injEq] at hk
      subst hk
      have hnone : products.get? products.next = none := products.get?_next
      have hmoved : moved movements products.next = 0 := by
        refine List.sum_eq_zero fun x hx => ?_
        obtain ⟨r, hr, rfl⟩ := List.mem_map.1 hx
        exact if_neg (hrefs r hr).ne
      rw [opened, if_pos hnone, stockIn_of_get? hself, hmoved, add_zero]
      exact ⟨rfl, hsign⟩
    · have hold : products.get? k = some q := by simpa [hknext] using hk
      rw [opened_of_get? hold]
      exact h k q hold

theorem demand_pos (h : ∀ line ∈ lines, 1 ≤ line.quantity) (hbuys : buys lines y) :
    0 < demand lines y := by
  obtain ⟨line, hline, rfl⟩ := hbuys
  have hone := h line hline
  have hle : (if line.productId = line.productId then line.quantity else 0) ≤
      demand lines line.productId := by
    refine List.single_le_sum (fun x hx => ?_) _ (List.mem_map.2 ⟨line, hline, rfl⟩)
    obtain ⟨l, hl, rfl⟩ := List.mem_map.1 hx
    have hl := h l hl
    split_ifs <;> omega
  rw [if_pos rfl] at hle
  omega

/-- Products that are sold stay explained exactly if they were out of stock. -/
theorem explains_sold (h : Explains opening products movements)
    (hlines : ∀ line ∈ lines, 1 ≤ line.quantity) :
    Explains (opened opening products (writeStock lines products products))
        (writeStock lines products products) movements ↔
      ∀ line ∈ lines, stockIn products line.productId = 0 := by
  have hnonneg : ∀ line ∈ lines, 0 ≤ line.quantity := fun line hline =>
    zero_le_one.trans (hlines line hline)
  have hrow : ∀ k q, products.get? k = some q →
      ∃ q', (writeStock lines products products).get? k = some q' ∧
        q'.stockQty = max 0 (q.stockQty - demand lines k) := by
    intro k q hq
    have hstock : stockIn (writeStock lines products products) k = _ :=
      stockIn_writeStock hnonneg (by rw [stockIn_of_get? hq]; exact (h k q hq).2) fun _ => rfl
    rw [stockIn_of_get? hq] at hstock
    have hsome : ((writeStock lines products products).get? k).isSome = true := by
      simp [writeStock, hq]
    obtain ⟨q', hq'⟩ := Option.isSome_iff_exists.1 hsome
    rw [stockIn_of_get? hq'] at hstock
    exact ⟨q', hq', hstock⟩
  constructor
  · intro hafter line hline
    cases hq : products.get? line.productId with
    | none => exact stockIn_of_none hq
    | some q =>
      obtain ⟨q', hq', hsold⟩ := hrow _ q hq
      obtain ⟨hnew, _⟩ := hafter _ q' hq'
      obtain ⟨hold, hsign⟩ := h _ q hq
      have hdemand := demand_pos hlines ⟨line, hline, rfl⟩
      rw [opened_of_get? hq] at hnew
      rw [stockIn_of_get? hq]
      omega
  · intro hout k q' hk
    have hsome : (products.get? k).isSome = true := by
      have hmapped := congrArg Option.isSome hk
      simpa [writeStock] using hmapped
    obtain ⟨q, hq⟩ := Option.isSome_iff_exists.1 hsome
    obtain ⟨q'', hq'', hsold⟩ := hrow k q hq
    rw [hk, Option.some.injEq] at hq''
    subst hq''
    obtain ⟨hold, hsign⟩ := h k q hq
    rw [opened_of_get? hq]
    by_cases hbuys : buys lines k
    · obtain ⟨line, hline, rfl⟩ := hbuys
      have hzero := hout line hline
      have hdemand := demand_nonneg hnonneg line.productId
      rw [stockIn_of_get? hq] at hzero
      omega
    · rw [demand_of_not_buys hbuys] at hsold
      omega

/-- An act leaves everything explained exactly if it is accounted for. -/
theorem explained_step {b : Books} (hwhole : Whole b.db) (h : b.Explained) (a : Act) :
    (b.step env a).Explained ↔ Accounted b a := by
  have heffect := effect_act env b.db a
  unfold Books.Explained Books.step
  generalize (act env b.db a).products = after at heffect
  generalize (act env b.db a).movements = entered at heffect
  show Explains (opened b.opening b.db.products after) after entered ↔ _
  cases heffect with
  | keep _ hidle =>
    refine iff_of_true (fun k q hk => ?_) ?_
    · rw [opened_of_get? hk]
      exact h k q hk
    · cases a with
      | product r => exact ⟨by simp [show planned b.db r = none from hidle],
          by simp [show planned b.db r = none from hidle]⟩
      | purchase r => trivial
      | shopping r =>
        cases r with
        | checkout u data draws =>
          intro hsome
          rw [show quoted b.db u data = none from hidle] at hsome
          cases hsome
        | _ => trivial
  | added r p hplan =>
    rw [explains_insert h hwhole.movements]
    constructor
    · intro hsign
      refine ⟨fun q hq => ?_, fun y q f ms hq => ?_⟩
      · rw [hplan] at hq
        cases hq
        exact hsign
      · rw [hplan] at hq
        cases hq
    · exact fun hadd => hadd.1 p hplan
  | written r y p f ms hplan =>
    obtain ⟨hp, hy, hsets, rfl⟩ := written_of_planned hplan
    rw [explains_write h hp (productId_of_movements hy), (hsets p).stock]
    obtain ⟨_, hsign⟩ := h y p hp
    have hsum : ∀ q ∈ r.sets.stock,
        (q = p.stockQty + ((r.movements p).map StockMovement.changeQty).sum ↔
          (r.movements p = [] → q = p.stockQty)) := by
      intro q hq
      rcases movements_cases r p with hnil | ⟨k, v, reason, note, adminId, rfl, hentered⟩
      · simp [hnil]
      · cases hq
        refine iff_of_true ?_ fun hnil => ?_
        · simp [hentered, adjustment]
        · rw [hentered] at hnil
          cases hnil
    have hnone : r.sets.stock = none → r.movements p = [] := by
      intro hq
      rcases movements_cases r p with hnil | ⟨k, v, reason, note, adminId, rfl, _⟩
      · exact hnil
      · cases hq
    constructor
    · rintro ⟨hstock, hnew⟩
      refine ⟨fun q hq => ?_, fun k q g ms hq v hv => ?_⟩
      · rw [hplan] at hq
        cases hq
      · rw [hplan] at hq
        cases hq
        rw [hv, Option.getD_some] at hstock hnew
        exact ⟨hnew, (hsum v hv).1 hstock⟩
    · rintro ⟨_, haccounted⟩
      have hset := haccounted y p f _ hplan
      cases hv : r.sets.stock with
      | none =>
        rw [hnone hv]
        simpa using hsign
      | some v =>
        obtain ⟨hnew, hmoved⟩ := hset v hv
        exact ⟨(hsum v hv).2 hmoved, hnew⟩
  | received r purchase p shopName createdBy hawaited hp =>
    have hqty := hwhole.awaited hawaited
    obtain ⟨_, hsign⟩ := h _ p hp
    have hentered : ∀ m ∈ [Purchase.receiptMovement purchase shopName createdBy],
        m.productId = purchase.productId := by simp [Purchase.receiptMovement]
    refine iff_of_true ((explains_write h hp hentered).2 ⟨?_, ?_⟩) trivial
    · show p.stockQty + purchase.qty = p.stockQty + (purchase.qty + 0)
      omega
    · show 0 ≤ p.stockQty + purchase.qty
      omega
  | sold u data draws q hq =>
    have hitems := (items_of_quoted hq).1
    have hlines : ∀ line ∈ q.summary.items, 1 ≤ line.quantity := by
      intro line hline
      rw [hitems] at hline
      obtain ⟨r, hr, rfl⟩ := List.mem_map.1 hline
      exact hwhole.lines r (List.mem_of_mem_filter hr)
    rw [explains_sold h hlines, hitems, List.forall_mem_map]
    exact ⟨fun hout _ => hout, fun hout => hout (by rw [hq]; rfl)⟩

/-- Throughout a run every stock is explained and not negative, exactly if each act of it is
accounted for. -/
theorem explained_iff (env : Payment.Env) {b : Books} (hwhole : Whole b.db) (h : b.Explained)
    (as : List Act) :
    Throughout (Books.step env) Books.Explained b as ↔ Stepwise (Books.step env) Accounted b as := by
  have hkept : ∀ (c : Books) (a : Act), Whole c.db → Whole (c.step env a).db :=
    fun _ a hc => hc.act a
  exact throughout_iff_stepwise hkept (fun _ a hc hlaw => explained_step hc hlaw a) hwhole h as

end Law

/-! ## A stock that nobody explains -/

/-- A shop, user 1, that created a cake with a stock of five. -/
def cakeBooks : Books where
  db :=
    { Db.empty with
      users := .ofList [{ (default : User) with role := .retailer }]
      profiles := .ofList
        [{ (default : RetailerProfile) with
            userId := 1, approvalStatus := "approved", sellSubscriptionStatus := "approved" }]
      products := .ofList
        [{ (default : Product) with
            supplierUserId := some 1, sellingPrice := 400, stockQty := 5, isActive := true }] }
  opening := fun _ => 5

theorem whole_cakeBooks : Whole cakeBooks.db := by
  refine ⟨?_, ?_, ?_, ?_⟩ <;> decide

theorem explained_cakeBooks : cakeBooks.Explained := by
  intro y p hp
  have hy : y < 2 := Table.lt_next_of_get? hp
  have hpos : 0 < y := by
    rcases Nat.eq_zero_or_pos y with rfl | hpos
    · cases hp
    · exact hpos
  obtain rfl : y = 1 := by omega
  cases hp
  decide

/-- The admin counts nine cakes. -/
theorem counted_explained : Throughout (Books.step Payment.plainEnv) Books.Explained cakeBooks
    [.product (.stock 1 9 "count" none none)] := by
  refine (explained_iff _ whole_cakeBooks explained_cakeBooks _).2 ?_
  refine stepwise_cons.2 ⟨⟨fun p hp => ?_, fun y p f ms hp q hq => ?_⟩, stepwise_nil _ _⟩
  · cases hp
  · cases hq
    refine ⟨by decide, fun hnil => ?_⟩
    cases hnil

/-- The shop changes the stock of its cake to nine. -/
theorem change_unexplained : ¬ Throughout (Books.step Payment.plainEnv) Books.Explained cakeBooks
    [.product (.patchMine 1 1 0 { stockQty := some 9 })] := by
  intro h
  have hfinal := h.final
  have hrow : ((run (Books.step Payment.plainEnv) cakeBooks
      [.product (.patchMine 1 1 0 { stockQty := some 9 })]).db.products.get? 1).map
        Product.stockQty = some 9 := by decide +kernel
  have hlaw : (run (Books.step Payment.plainEnv) cakeBooks
      [.product (.patchMine 1 1 0 { stockQty := some 9 })]).opening 1 +
        moved (run (Books.step Payment.plainEnv) cakeBooks
          [.product (.patchMine 1 1 0 { stockQty := some 9 })]).db.movements 1 = 5 := by
    decide +kernel
  obtain ⟨p, hp, hstock⟩ := Option.map_eq_some_iff.1 hrow
  have hexplained := (hfinal 1 p hp).1
  rw [hlaw, hstock] at hexplained
  omega

end Catalog

end SweetCrust
