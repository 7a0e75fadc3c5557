import SweetCrust.Lib.Runs
import SweetCrust.Orders.Rider
import SweetCrust.Orders.StoreOps
import SweetCrust.Orders.Updates

/-!
# Does a customer's spend count each delivered order once?

Four requests can deliver an order.  The order service's and the rider's add the order to what
its customer spent, each time; the admin's and the shop's never do.

* `Tally` — the database, with the orders that have ever been delivered.
* `counted_iff` — the spend of every customer counts each of them once throughout a run,
  exactly if the first delivery of an order is by those that add it, and others by those that
  do not.
* `delivery_uncounted` — an order that the admin delivers.
-/

namespace SweetCrust

open Tabular Session Runs

namespace Orders

namespace Spending

/-! ## The calls that can deliver an order -/

inductive Call
  | order (orderId : ℕ) (status : String) (actorId : ℕ) (note : Option String)
      (deliveryPersonId : Option ℕ) (now : ℕ)
  | admin (orderId : ℕ) (status : String) (note : Option String) (deliveryPersonId : Option ℕ)
      (now : ℕ)
  | sales (userId orderId : ℕ) (status : String) (note : Option String) (now : ℕ)
  | deliver (userId : ℕ) (user : User) (orderId now : ℕ)

def serve (db : Db) : Call → Db
  | .order o status actorId note p now =>
    final (OrderService.updateOrderStatus o status actorId note p now) db
  | .admin o status note p now => final (StoreOps.updateOrderStatus o status note p now) db
  | .sales u o status note now => final (StoreOps.updateSalesStatus u o status note now) db
  | .deliver u user o now => final (Rider.markDelivered u user o now) db

/-- The call adds an order that it delivers to what the customer spent. -/
def Call.adds : Call → Bool
  | .order .. => true
  | .admin .. => false
  | .sales .. => false
  | .deliver .. => true

/-- The call delivers the order. -/
def Delivers (db : Db) : Call → ℕ → Order → Prop
  | .order o text _ _ p _, k, a => k = o ∧ OrderService.Accepts db o text p a .delivered
  | .admin o text _ p _, k, a => k = o ∧ db.orders.get? o = some a ∧
      OrderStatus.ofValue? text = some .delivered ∧ StoreOps.RiderKnown db p
  | .sales u o text _ now, k, a => k = o ∧ (∃ i profile, Sell.MaySell db u now i profile) ∧
      StoreOps.soldOrder db u o = some a ∧ OrderStatus.ofValue? text = some .delivered
  | .deliver u user o _, k, a => k = o ∧ Rider.Rides db (Rider.riderFor db u user) o a

/-! ## What a customer spent -/

/-- Whose order it is, and what it costs. -/
def terms (a : Order) : ℕ × ℚ := (a.userId, a.finalAmount)

/-- The sum of a customer's orders among those given. -/
def earned (orders : Table Order) (reached : Finset ℕ) (u : ℕ) : ℚ :=
  ∑ k ∈ reached, ((orders.get? k).map terms).elim 0 fun t => if t.1 = u then t.2 else 0

/-- The orders that are delivered. -/
def deliveredKeys (orders : Table Order) : Finset ℕ :=
  ((orders.select fun a => a.status = .delivered).map Prod.fst).toFinset

/-- The database, with the orders that have ever been delivered. -/
structure Tally where
  db : Db
  reached : Finset ℕ

def Tally.step (b : Tally) (c : Call) : Tally where
  db := serve b.db c
  reached := b.reached ∪ deliveredKeys (serve b.db c).orders

/-- What a customer spent is the sum of the customer's orders that have ever been delivered. -/
def Tally.Counted (b : Tally) : Prop :=
  ∀ u user, b.db.users.get? u = some user → user.totalSpent = earned b.db.orders b.reached u

/-- Orders that are delivered are among those that have ever been. -/
def Tally.Noted (b : Tally) : Prop := deliveredKeys b.db.orders ⊆ b.reached

/-- An order that costs something and whose customer exists is delivered by a call that adds it
if it was never delivered before, and only then. -/
def AddsOnce (b : Tally) (c : Call) : Prop :=
  ∀ o a, Delivers b.db c o a → (b.db.users.get? a.userId).isSome → a.finalAmount ≠ 0 →
    (c.adds = true ↔ o ∉ b.reached)

section Calls

variable {s : Db} {c : Call} {o k : ℕ} {a b : Order} {orders : Table Order} {users : Table User}

theorem Delivers.found (h : Delivers s c o a) : s.orders.get? o = some a := by
  cases c with
  | order k text actorId note p now =>
    obtain ⟨rfl, h⟩ := h
    exact h.found
  | admin k text note p now =>
    obtain ⟨rfl, h, _⟩ := h
    exact h
  | sales u k text note now =>
    obtain ⟨rfl, _, h, _⟩ := h
    exact (Option.filter_eq_some_iff.1 h).1
  | deliver u user k now =>
    obtain ⟨rfl, h⟩ := h
    exact (Rider.riddenOrder_eq_some.1 h.1).1

/-- A call delivers one order. -/
theorem Delivers.unique (h : Delivers s c o a) (h' : Delivers s c k b) : k = o ∧ b = a := by
  have hk : k = o := by
    cases c <;> exact h'.1.trans h.1.symm
  subst hk
  have hb := h'.found
  rw [h.found, Option.some.injEq] at hb
  exact ⟨rfl, hb.symm⟩

theorem mem_deliveredKeys : k ∈ deliveredKeys orders ↔
    ∃ a, orders.get? k = some a ∧ a.status = .delivered := by
  simp only [deliveredKeys, List.mem_toFinset, List.mem_map, Table.select, List.mem_filter,
    decide_eq_true_eq, Prod.exists, exists_and_right, exists_eq_right, Table.get?_eq_some]

/-- What a call can do to orders and users. -/
inductive Outcome (s : Db) (c : Call) : Table Order → Table User → Prop
  | other (orders : Table Order) (hnot : ∀ o a, ¬ Delivers s c o a)
      (hterms : ∀ k, (orders.get? k).map terms = (s.orders.get? k).map terms)
      (hdelivered : deliveredKeys orders ⊆ deliveredKeys s.orders) : Outcome s c orders s.users
  | delivered (o : ℕ) (a : Order) (f : Order → Order) (h : Delivers s c o a)
      (hterms : ∀ x, terms (f x) = terms x) (hstatus : ∀ x, (f x).status = .delivered) :
      Outcome s c (s.orders.modify o f)
        (if c.adds then
          s.users.modify a.userId fun u => { u with totalSpent := u.totalSpent + a.finalAmount }
        else s.users)

theorem terms_modify {f : Order → Order} (hf : ∀ x, terms (f x) = terms x) (orders : Table Order)
    (o k : ℕ) : ((orders.modify o f).get? k).map terms = (orders.get? k).map terms := by
  rw [Table.get?_modify]
  split_ifs
  · rw [Option.map_map]
    exact congrArg (fun g => Option.map g _) (funext hf)
  · rfl

theorem outcome_same (hnot : ∀ o a, ¬ Delivers s c o a) : Outcome s c s.orders s.users :=
  .other _ hnot (fun _ => rfl) (Finset.Subset.refl _)

/-- Another status delivers nothing. -/
theorem outcome_modify {f : Order → Order} (hnot : ∀ o a, ¬ Delivers s c o a)
    (hf : ∀ x, terms (f x) = terms x) (hstatus : ∀ x, (f x).status ≠ .delivered) (o : ℕ) :
    Outcome s c (s.orders.modify o f) s.users := by
  refine .other _ hnot (terms_modify hf s.orders o) fun k hk => ?_
  obtain ⟨b, hb, hdelivered⟩ := mem_deliveredKeys.1 hk
  rw [Table.get?_modify] at hb
  split_ifs at hb
  · obtain ⟨x, _, rfl⟩ := Option.map_eq_some_iff.1 hb
    exact absurd hdelivered (hstatus x)
  · exact mem_deliveredKeys.2 ⟨b, hb, hdelivered⟩

/-- Everything that a call can do to orders and users. -/
theorem outcome_serve (s : Db) (c : Call) : Outcome s c (serve s c).orders (serve s c).users := by
  cases c with
  | order o text actorId note p now =>
    rcases OrderService.updateOrderStatus_cases o text actorId note p now s with
      ⟨order, status, hgo, hfinal⟩ | ⟨hgo, hfinal⟩
    · have ht : serve s (.order o text actorId note p now) = _ := hfinal
      rw [ht, OrderService.updated_orders, OrderService.updated_users]
      by_cases hst : status = .delivered
      · subst hst
        exact .delivered o order _ ⟨rfl, hgo⟩ (fun _ => rfl) fun _ => rfl
      · rw [if_neg hst]
        refine outcome_modify ?_ ?_ ?_ o
        · rintro k a ⟨_, haccepts⟩
          exact hst (Option.some.inj (hgo.status_eq.symm.trans haccepts.status_eq))
        · exact fun _ => rfl
        · exact fun _ => hst
    · have ht : serve s (.order o text actorId note p now) = s := hfinal
      rw [ht]
      exact outcome_same fun k a h => hgo a _ h.2
  | admin o text note p now =>
    rcases updateOrderStatus_cases o text note p now s with
      ⟨order, status, hord, hst, hp, hfinal⟩ | ⟨hgo, hfinal⟩
    · have ht : serve s (.admin o text note p now) = _ := hfinal
      rw [ht]
      by_cases hdelivered : status = .delivered
      · subst hdelivered
        exact .delivered o order _ ⟨rfl, hord, hst, hp⟩ (fun _ => rfl) fun _ => rfl
      · refine outcome_modify ?_ ?_ ?_ o
        · rintro k a ⟨_, _, hst', _⟩
          exact hdelivered (Option.some.inj (hst.symm.trans hst'))
        · exact fun _ => rfl
        · exact fun _ => hdelivered
    · have ht : serve s (.admin o text note p now) = s := hfinal
      rw [ht]
      refine outcome_same fun k a h => ?_
      obtain ⟨rfl, ha, hst, hp⟩ := h
      exact hgo a _ ha hst hp
  | sales u o text note now =>
    rcases updateSalesStatus_cases u o text note now s with
      ⟨order, status, hshop, hsold, hst, -, hfinal⟩ | ⟨hgo, profiles, hfinal⟩
    · have ht : serve s (.sales u o text note now) = _ := hfinal
      rw [ht]
      by_cases hdelivered : status = .delivered
      · subst hdelivered
        exact .delivered o order _ ⟨rfl, hshop, hsold, hst⟩ (fun _ => rfl) fun _ => rfl
      · refine outcome_modify ?_ ?_ ?_ o
        · rintro k a ⟨_, _, _, hst'⟩
          exact hdelivered (Option.some.inj (hst.symm.trans hst'))
        · exact fun _ => rfl
        · exact fun _ => hdelivered
    · have ht : serve s (.sales u o text note now) = { s with profiles := profiles } := hfinal
      rw [ht]
      refine outcome_same fun k a h => ?_
      obtain ⟨rfl, hshop, hsold, hst⟩ := h
      exact hgo a _ hshop hsold hst (by decide)
  | deliver u user o now =>
    by_cases hgo : ∃ order, Rider.Rides s (Rider.riderFor s u user) o order
    · obtain ⟨order, hrides⟩ := hgo
      have ht : serve s (.deliver u user o now) = _ := Rider.final_markDelivered hrides now
      rw [ht]
      have horders : (Rider.delivery o order now (Rider.withPerson u user s)).orders =
          s.orders.modify o (Rider.delivered now) := by
        rw [← Rider.withPerson_orders u user s]
        rfl
      have husers : (Rider.delivery o order now (Rider.withPerson u user s)).users =
          s.users.modify order.userId fun u =>
            { u with totalSpent := u.totalSpent + order.finalAmount } := by
        rw [← Rider.withPerson_users u user s]
        rfl
      rw [horders, husers]
      exact .delivered o order _ ⟨rfl, hrides⟩ (fun _ => rfl) fun _ => rfl
    · simp only [not_exists] at hgo
      have ht : serve s (.deliver u user o now) = Rider.withPerson u user s :=
        (Rider.markDelivered_raises hgo now).final
      rw [ht, Rider.withPerson_orders, Rider.withPerson_users]
      exact outcome_same fun k a h => hgo a h.2

end Calls

/-! ## The law -/

section Law

variable {b : Tally} {c : Call} {o : ℕ} {a : Order} {orders orders' : Table Order}
  {reached : Finset ℕ} {u : ℕ}

theorem earned_congr (h : ∀ k, (orders'.get? k).map terms = (orders.get? k).map terms)
    (reached : Finset ℕ) (u : ℕ) : earned orders' reached u = earned orders reached u := by
  unfold earned
  simp only [h]

/-- One more order, if it is not among them. -/
theorem earned_insert (ha : orders.get? o = some a) (reached : Finset ℕ) (u : ℕ) :
    earned orders (insert o reached) u =
      earned orders reached u + if a.userId = u ∧ o ∉ reached then a.finalAmount else 0 := by
  by_cases hmem : o ∈ reached
  · rw [Finset.insert_eq_of_mem hmem, if_neg (by simp [hmem]), add_zero]
  · have hterm : ((orders.get? o).map terms).elim 0 (fun t => if t.1 = u then t.2 else 0) =
        if a.userId = u ∧ o ∉ reached then a.finalAmount else 0 := by
      rw [ha]
      simp [terms, hmem]
    unfold earned
    rw [Finset.sum_insert hmem, hterm, add_comm]

/-- Once an order is delivered, it is among those that have ever been. -/
theorem reached_delivered {f : Order → Order} (hnoted : deliveredKeys orders ⊆ reached)
    (ha : orders.get? o = some a) (hstatus : ∀ x, (f x).status = .delivered) :
    reached ∪ deliveredKeys (orders.modify o f) = insert o reached := by
  ext k
  rw [Finset.mem_union, Finset.mem_insert, mem_deliveredKeys, Table.get?_modify]
  constructor
  · rintro (hk | ⟨x, hx, hdelivered⟩)
    · exact Or.inr hk
    · by_cases hko : k = o
      · exact Or.inl hko
      · rw [if_neg hko] at hx
        exact Or.inr (hnoted (mem_deliveredKeys.2 ⟨x, hx, hdelivered⟩))
  · rintro (rfl | hk)
    · exact Or.inr ⟨f a, by rw [if_pos rfl, ha]; rfl, hstatus a⟩
    · exact Or.inl hk

theorem Tally.noted_step (b : Tally) (c : Call) : (b.step c).Noted := Finset.subset_union_right

/-- What a customer spent, once the delivered order is added or not. -/
theorem get?_added (users : Table User) (a : Order) (adds : Bool) (u : ℕ) :
    ((if adds then
        users.modify a.userId fun u => { u with totalSpent := u.totalSpent + a.finalAmount }
      else users).get? u).map User.totalSpent =
      (users.get? u).map fun user =>
        user.totalSpent + if a.userId = u ∧ adds = true then a.finalAmount else 0 := by
  cases adds with
  | false => simp
  | true =>
    simp only [if_true, and_true, Table.get?_modify]
    by_cases hu : u = a.userId
    · subst hu
      simp only [if_true, Option.map_map]
      rfl
    · rw [if_neg hu, if_neg fun h => hu h.symm]
      simp

/-- A call leaves the spend of every customer right exactly if it adds once. -/
theorem counted_step (hnoted : b.Noted) (h : b.Counted) (c : Call) :
    (b.step c).Counted ↔ AddsOnce b c := by
  have houtcome := outcome_serve b.db c
  unfold Tally.Counted Tally.step
  generalize (serve b.db c).orders = orders at houtcome
  generalize (serve b.db c).users = users at houtcome
  show (∀ u user, users.get? u = some user →
    user.totalSpent = earned orders (b.reached ∪ deliveredKeys orders) u) ↔ _
  cases houtcome with
  | other _ hnot hterms hdelivered =>
    refine iff_of_true ?_ fun o a hd => absurd hd (hnot o a)
    rw [Finset.union_eq_left.2 (hdelivered.trans hnoted)]
    intro u user huser
    rw [earned_congr hterms]
    exact h u user huser
  | delivered o a f hd hterms hstatus =>
    have ha := hd.found
    rw [reached_delivered hnoted ha hstatus]
    have hearned : ∀ u, earned (b.db.orders.modify o f) (insert o b.reached) u =
        earned b.db.orders b.reached u + if a.userId = u ∧ o ∉ b.reached then a.finalAmount else 0 :=
      fun u => (earned_congr (terms_modify hterms _ o) _ u).trans (earned_insert ha _ u)
    have hspent := get?_added b.db.users a c.adds
    constructor
    · intro hafter k x hd' hsome hcost
      obtain ⟨rfl, rfl⟩ := hd.unique hd'
      obtain ⟨user, huser⟩ := Option.isSome_iff_exists.1 hsome
      have hrow := hspent x.userId
      rw [huser, Option.map_some] at hrow
      obtain ⟨user', huser', hnew⟩ := Option.map_eq_some_iff.1 hrow
      have hlaw := hafter _ user' huser'
      rw [hnew, hearned, h _ user huser, add_right_inj] at hlaw
      by_cases hadds : c.adds = true <;> by_cases hmem : k ∈ b.reached <;> simp_all
    · intro hadds u user' huser'
      have hrow := hspent u
      rw [huser', Option.map_some] at hrow
      obtain ⟨user, huser, hnew⟩ := Option.map_eq_some_iff.1 hrow.symm
      rw [hearned, ← hnew, h u user huser, add_right_inj]
      by_cases hu : a.userId = u
      · subst hu
        have honce := hadds o a hd (by rw [huser]; rfl)
        by_cases hcost : a.finalAmount = 0
        · simp [hcost]
        · have hiff := honce hcost
          by_cases hmem : o ∈ b.reached <;> simp_all
      · simp [hu]

/-- The spend of every customer counts each order that has ever been delivered once throughout
a run, exactly if each call of it adds once. -/
theorem counted_iff {b : Tally} (hnoted : b.Noted) (h : b.Counted) (cs : List Call) :
    Throughout Tally.step Tally.Counted b cs ↔ Stepwise Tally.step AddsOnce b cs :=
  throughout_iff_stepwise (fun b c _ => Tally.noted_step b c)
    (fun _ c hn hc => counted_step hn hc c) hnoted h cs

end Law

/-! ## Deliveries of one order -/

/-- A customer, user 1, with an order of ₹100, and nothing delivered yet. -/
def placedOrder : Tally where
  db :=
    { Db.empty with
      users := .ofList [default]
      orders := .ofList [{ (default : Order) with userId := 1, finalAmount := 100 }] }
  reached := ∅

theorem noted_placedOrder : placedOrder.Noted :=
  Finset.subset_of_eq (by decide)

theorem counted_placedOrder : placedOrder.Counted := by
  intro u user huser
  have hlt : u < 2 := Table.lt_next_of_get? huser
  have hu : u = 1 := by
    rcases Nat.eq_zero_or_pos u with rfl | hpos
    · cases huser
    · omega
  subst hu
  cases huser
  rfl

/-- The order service's delivery is added, and the admin's after it is not. -/
theorem deliveries_counted : Throughout Tally.step Tally.Counted placedOrder
    [.order 1 "delivered" 9 none none 0, .admin 1 "delivered" none none 1] := by
  refine (counted_iff noted_placedOrder counted_placedOrder _).2 ?_
  refine stepwise_cons.2 ⟨?_, stepwise_cons.2 ⟨?_, stepwise_nil _ _⟩⟩
  · rintro o a ⟨rfl, _⟩ _ _
    decide
  · rintro o a ⟨rfl, _⟩ _ _
    decide +kernel

/-- The admin's delivery is not added. -/
theorem delivery_uncounted : ¬ Throughout Tally.step Tally.Counted placedOrder
    [.admin 1 "delivered" none none 0] := by
  intro h
  have hspent : ((run Tally.step placedOrder
      [.admin 1 "delivered" none none 0]).db.users.get? 1).map User.totalSpent = some 0 := by
    decide +kernel
  have hearned : earned (run Tally.step placedOrder [.admin 1 "delivered" none none 0]).db.orders
      (run Tally.step placedOrder [.admin 1 "delivered" none none 0]).reached 1 = 100 := by
    decide +kernel
  obtain ⟨user, huser, hzero⟩ := Option.map_eq_some_iff.1 hspent
  have hcounted := h.final 1 user huser
  rw [hearned, hzero] at hcounted
  norm_num at hcounted

end Spending

end Orders

end SweetCrust
