import SweetCrust.Catalog.Store
import SweetCrust.Checkout.SingleShop

/-!
# Are only published products sold?

A product is published while it is active and no draft; only such products are listed.
Adding to a cart asks whether the product is active, but not whether it is a draft; moving a
saved line back and checking out ask neither.  So a line outlives the product's withdrawal.

* `Vouched` — the acts that leave every active line with a published product.
* `onlyPublished` — in a run of such acts, every item of an order is of a published product.
* `withdrawn_sold` — a shop deletes a product that is in a cart, and the customer buys it.
-/

namespace SweetCrust

open Tabular Session Carts Checkout Runs Orders.OrderService

namespace Catalog

/-! ## What is published -/

/-- The product is listed: active, and no draft. -/
def Published (p : Product) : Prop := p.isActive = true ∧ p.isDraft = false

instance (p : Product) : Decidable (Published p) := inferInstanceAs (Decidable (_ ∧ _))

/-- The product exists, and is published. -/
def PublishedIn (products : Table Product) (y : ℕ) : Prop :=
  ∃ p, products.get? y = some p ∧ Published p

/-- The order that an act creates. -/
def createdBy (db : Db) : Act → Option ℕ
  | .shopping r => Shopping.created db r
  | _ => none

/-- In a run, every item of an order that is created is of a product that is published at
that moment. -/
def OnlyPublished (env : Payment.Env) (db : Db) (as : List Act) : Prop :=
  Stepwise (act env) (fun s a => ∀ o, createdBy s a = some o →
    (act env s a).orderItems.All fun i => i.orderId = o →
      PublishedIn (act env s a).products i.productId) db as

/-! ## Acts that vouch for the lines -/

/-- The request takes the product that it rewrites off the catalog. -/
def Request.Withdraws (r : Request) : Prop :=
  r.sets.active = some false ∨ r.sets.draft = some true

/-- The product is in no cart, except where it is set aside. -/
def InNoCart (db : Db) (y : ℕ) : Prop :=
  db.cartItems.All fun item => item.savedForLater = false → item.productId ≠ y

/-- What goes into a cart is no draft, what is moved back into it is published, and what is
taken off the catalog is in no cart. -/
def Vouched (s : Db) : Act → Prop
  | .shopping (.cart (.add _ y quantity _ _ _)) =>
    ∀ p shop, Addable s y quantity p shop → p.isDraft = false
  | .shopping (.cart (.patch u k _ (some false))) =>
    ∀ item, s.cartItems.get? k = some item → item.cartId = (cartFor s u).1 →
      PublishedIn s.products item.productId
  | .shopping (.reorder o u) =>
    ∀ i ∈ Shopping.addedItems s o u, ∀ p, s.products.get? i.productId = some p → p.isDraft = false
  | .product r => r.Withdraws → ∀ y ∈ r.productId, (planned s r).isSome → InNoCart s y
  | _ => True

/-- Every active line is of a published product, and items belong to orders that exist. -/
structure Live (db : Db) : Prop where
  lines : db.cartItems.All fun item =>
    item.savedForLater = false → PublishedIn db.products item.productId
  items : db.orderItems.All fun i => i.orderId < db.orders.next

section Steps

variable {env : Payment.Env} {s t : Db} {a : Act} {y : ℕ} {p q : Product}

/-- A published product stays so, unless the act withdraws it. -/
theorem published_of_rewritten (h : Rewritten s y p a q) (hp : Published p)
    (hkeep : ∀ r, a = .product r → r.Withdraws → y ∈ r.productId → planned s r = none) :
    Published q := by
  cases h with
  | same => exact hp
  | written r f movements h =>
    obtain ⟨_, hy, hsets, _⟩ := written_of_planned h
    have hnot : ¬ r.Withdraws := by
      intro hw
      have hnone := hkeep r rfl hw hy
      rw [h] at hnone
      cases hnone
    have hset := hsets p
    simp only [Request.Withdraws, not_or] at hnot
    refine ⟨?_, ?_⟩
    · rw [hset.active]
      cases hactive : r.sets.active with
      | none => exact hp.1
      | some b =>
        rw [hactive] at hnot
        simpa using hnot.1
    · rw [hset.draft]
      cases hdraft : r.sets.draft with
      | none => exact hp.2
      | some b =>
        rw [hdraft] at hnot
        simpa using hnot.2
  | received r purchase h hy => exact hp
  | sold u data draws q after h hbuys hafter => exact hp

theorem publishedIn_act (h : PublishedIn s.products y)
    (hkeep : ∀ r, a = .product r → r.Withdraws → y ∈ r.productId → planned s r = none) :
    PublishedIn (act env s a).products y := by
  obtain ⟨p, hp, hpublished⟩ := h
  obtain ⟨q, hq, hrewritten⟩ := rewritten_act env a hp
  exact ⟨q, hq, published_of_rewritten hrewritten hpublished hkeep⟩

/-- A customer withdraws nothing. -/
theorem publishedIn_shopping (env : Payment.Env) (r : Shopping.Request)
    (h : PublishedIn s.products y) : PublishedIn (act env s (.shopping r)).products y :=
  publishedIn_act h (by simp)

/-- The lines that a cart request leaves are of published products. -/
theorem lines_change {products : Table Product} {r : Carts.Request} {items : Table CartItem}
    {carts : Table Cart} (hchange : Carts.Change s r items carts) (hproducts : products = s.products)
    (h : s.cartItems.All fun item => item.savedForLater = false →
      PublishedIn products item.productId) (hv : Vouched s (.shopping (.cart r))) :
    items.All fun item => item.savedForLater = false → PublishedIn products item.productId := by
  subst hproducts
  cases hchange with
  | keep => exact h
  | cart => exact h
  | put u y quantity variant flavor isEggless product shop hadd =>
    have hnew : PublishedIn s.products y :=
      ⟨product, hadd.found, hadd.active, hv product shop hadd⟩
    have hkept : (withCart u s).cartItems.All fun item =>
        item.savedForLater = false → PublishedIn s.products item.productId := by
      rw [withCart_cartItems]
      exact h
    exact all_putLine (hkept.remove _) (fun _ => hnew) (fun _ hitem => hitem) _
  | patch u k quantity saved item hk hown =>
    refine Table.All.modify_row h fun line hline hactive => ?_
    have hbefore : line.savedForLater = false → PublishedIn s.products line.productId :=
      h.get? hline
    rw [hk] at hline
    cases hline
    cases saved with
    | none => exact hbefore hactive
    | some b =>
      cases b with
      | true => cases hactive
      | false => exact hv item hk hown
  | remove u k item hk hown => exact h.remove _

/-- The lines that a customer's request leaves are of published products. -/
theorem lines_shopping {r : Shopping.Request} (h : Live s) (hv : Vouched s (.shopping r)) :
    (Shopping.step s r).cartItems.All fun item =>
      item.savedForLater = false → PublishedIn s.products item.productId := by
  cases r with
  | cart r => exact lines_change (change_act s r).1 rfl h.lines hv
  | reorder o u =>
    rcases cartItems_reorder o u s with hsame | hadded
    · rw [show (Shopping.step s (.reorder o u)).cartItems = s.cartItems from hsame]
      exact h.lines
    · rw [show (Shopping.step s (.reorder o u)).cartItems = _ from hadded]
      refine all_reordered h.lines (fun _ _ _ hline => hline) fun i hi p hp _ => ?_
      obtain ⟨hget, hoffered⟩ := Option.filter_eq_some_iff.1 hp
      have hactive : p.isActive = true := by simp_all
      exact ⟨p, hget, hactive, hv i hi p hget⟩
  | coupon u code =>
    rw [show (Shopping.step s (.coupon u code)).cartItems = s.cartItems from
      Promotion.cartItems_applyCoupon u code s]
    exact h.lines
  | checkout u data draws =>
    rcases Shopping.step_cases s (.checkout u data draws) with ⟨_, hrefused⟩ | ⟨v, _, _, q, _, _, ht⟩
    · rw [hrefused u data draws rfl, prepared_cartItems]
      exact h.lines
    · have hkept : (prepared v s).cartItems.All fun item =>
          item.savedForLater = false → PublishedIn s.products item.productId := by
        rw [prepared_cartItems]
        exact h.lines
      rw [ht]
      exact hkept.remove _

/-- Items belong to orders that exist, whatever a customer does. -/
theorem items_shopping (h : s.orderItems.All fun i => i.orderId < s.orders.next)
    (r : Shopping.Request) :
    (Shopping.step s r).orderItems.All fun i => i.orderId < (Shopping.step s r).orders.next := by
  rcases Shopping.step_cases s r with ⟨hframe, _⟩ | ⟨u, data, draws, q, rfl, hq, ht⟩
  · rw [hframe.orderItems, hframe.orders]
    exact h
  · have hprepared := frame_prepared u s
    rw [ht]
    have hold : (prepared u s).orderItems.All fun i => i.orderId < (prepared u s).orders.next + 1 := by
      rw [hprepared.orderItems, hprepared.orders]
      exact h.imp fun i hi => Nat.lt_succ_of_lt hi
    refine hold.insertAll fun i hi => ?_
    obtain ⟨line, _, rfl⟩ := List.mem_map.1 hi
    exact Nat.lt_succ_self _

/-- Acts that vouch for the lines leave every active line with a published product. -/
theorem Live.act (h : Live s) (hv : Vouched s a) : Live (act env s a) := by
  cases a with
  | shopping r =>
    refine ⟨(lines_shopping h hv).imp fun item hitem hactive => ?_, items_shopping h.items r⟩
    exact publishedIn_shopping env r (hitem hactive)
  | product r =>
    obtain ⟨_, hlines, hitems, horders⟩ := carts_serve s r
    refine ⟨?_, ?_⟩
    · show (serve s r).cartItems.All _
      rw [hlines]
      intro item hitem hactive
      refine publishedIn_act (h.lines item hitem hactive) ?_
      rintro r' ⟨⟩ hw hy
      by_contra hplanned
      exact hv hw _ hy (Option.isSome_iff_ne_none.2 hplanned) item hitem hactive rfl
    · show (serve s r).orderItems.All fun i => i.orderId < (serve s r).orders.next
      rw [hitems, horders]
      exact h.items
  | purchase r =>
    obtain ⟨hlines, hitems, horders⟩ := cartItems_purchase env s r
    refine ⟨?_, ?_⟩
    · show (Purchase.step env s r).cartItems.All _
      rw [hlines]
      exact h.lines.imp fun item hitem hactive => publishedIn_act (hitem hactive) (by simp)
    · show (Purchase.step env s r).orderItems.All fun i =>
        i.orderId < (Purchase.step env s r).orders.next
      rw [hitems, horders]
      exact h.items

/-- What a checkout buys is published, when every active line is. -/
theorem published_created {o : ℕ} (h : Live s) (hc : createdBy s a = some o) :
    (act env s a).orderItems.All fun i => i.orderId = o →
      PublishedIn (act env s a).products i.productId := by
  cases a with
  | product | purchase => cases hc
  | shopping r =>
    obtain ⟨u, data, draws, q, rfl, hq, rfl, ht⟩ := Shopping.created_eq_some hc
    have hprepared := frame_prepared u s
    show (Shopping.step s (.checkout u data draws)).orderItems.All _
    rw [ht]
    have hold : (prepared u s).orderItems.All fun i => i.orderId = s.orders.next →
        PublishedIn (act env s (.shopping (.checkout u data draws))).products i.productId := by
      rw [hprepared.orderItems]
      refine h.items.imp fun i hi heq => ?_
      omega
    refine hold.insertAll fun i hi _ => ?_
    obtain ⟨line, hline, rfl⟩ := List.mem_map.1 hi
    rw [(items_of_quoted hq).1] at hline
    obtain ⟨r, hr, rfl⟩ := List.mem_map.1 hline
    obtain ⟨hmem, hin⟩ := List.mem_filter.1 hr
    have hactive : r.2.savedForLater = false := by simp_all [inCart]
    exact publishedIn_shopping env _ (h.lines r hmem hactive)

end Steps

/-- When every act vouches for the lines, only published products are sold. -/
theorem onlyPublished (env : Payment.Env) {db : Db} (h : Live db) {as : List Act}
    (hvouched : Stepwise (act env) Vouched db as) : OnlyPublished env db as := by
  have hlive : Throughout (act env) Live db as :=
    throughout_of_stepwise (fun _ _ hs hv => hs.act hv) h hvouched
  intro pre a hpre o hc
  exact published_created (hlive pre ((List.prefix_append pre [a]).trans hpre)) hc

/-! ## A product that is withdrawn and sold -/

/-- A shop, user 1, that sells a cake, and a customer, user 2. -/
def cakeShop : Db :=
  { Db.empty with
    users := .ofList [{ (default : User) with role := .retailer }, default]
    profiles := .ofList
      [{ (default : RetailerProfile) with
          userId := 1, approvalStatus := "approved", sellSubscriptionStatus := "approved" }]
    products := .ofList
      [{ (default : Product) with
          supplierUserId := some 1, sellingPrice := 400, stockQty := 5, isActive := true }]
    addresses := .ofList
      [{ (default : Address) with userId := 2, latitude := some 20, longitude := some 85 }] }

def addCake : Act := .shopping (.cart (.add 2 1 Quantity.one none none false))

def deleteCake : Act := .product (.deleteMine 1 1 0)

def buyCake : Act := .shopping (.checkout 2 ⟨1, "upi", "9"⟩ ⟨"SC1", "TXN1", 0⟩)

/-- At the start every active line is of a published product: there is none. -/
theorem live_cakeShop : Live cakeShop :=
  ⟨fun _ h => absurd h List.not_mem_nil, fun _ h => absurd h List.not_mem_nil⟩

theorem published_bought : OnlyPublished Payment.plainEnv cakeShop [addCake, buyCake] := by
  refine onlyPublished Payment.plainEnv live_cakeShop
    (stepwise_cons.2 ⟨?_, stepwise_cons.2 ⟨trivial, stepwise_nil _ _⟩⟩)
  intro p shop hadd
  have hp := hadd.found
  cases hp
  decide

/-- The customer puts the cake into the cart, the shop deletes it, and it is sold. -/
theorem withdrawn_sold :
    ¬ OnlyPublished Payment.plainEnv cakeShop [addCake, deleteCake, buyCake] := by
  intro h
  have hsold := h [addCake, deleteCake] buyCake (List.prefix_refl _) 1 (by decide +kernel)
  have hitem : ((act Payment.plainEnv (run (act Payment.plainEnv) cakeShop [addCake, deleteCake])
      buyCake).orderItems.get? 1).map (fun i => (i.orderId, i.productId)) = some (1, 1) := by
    decide +kernel
  have hrow : ((act Payment.plainEnv (run (act Payment.plainEnv) cakeShop [addCake, deleteCake])
      buyCake).products.get? 1).map Product.isActive = some false := by
    decide +kernel
  obtain ⟨i, hi, hids⟩ := Option.map_eq_some_iff.1 hitem
  obtain ⟨p, hp, hactive⟩ := hsold.get? hi (congrArg Prod.fst hids)
  rw [show i.productId = 1 from congrArg Prod.snd hids] at hp
  rw [hp, Option.map_some, hactive.1] at hrow
  cases hrow

end Catalog

end SweetCrust
