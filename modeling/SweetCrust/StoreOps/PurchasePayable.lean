import SweetCrust.StoreOps.PurchaseLifecycle

/-!
# What is owed to a supplier

A shop's payable balance is what is still due on its received purchase orders.  A
request keeps that exactly when it is `Exact`: goods that are received and not paid at
once cost something, and a payment does not exceed what is due.  The guards let both
pass: a purchase order whose total rounds to zero is received but never paid, and a
payment may be one paisa above what is due.

* `Owed` — the property; `Booked` — what every request keeps besides.
* `owed_step_iff` — one request keeps the property exactly when it is `Exact`.
* `owed_throughout_iff` — so does a run.
-/

namespace SweetCrust

open Tabular Rounding PayRules Runs Interleave

namespace Purchase

/-- What is still due to the shop on a purchase order. -/
def dueTo (u : ℕ) (p : SupplierPurchase) : ℚ :=
  if p.supplierUserId = u ∧ IsOpen p then p.total - p.paidAmount else 0

/-- What is owed to the shop. -/
def payableOf (db : Db) (u : ℕ) : Option ℚ := (profileOf db u).map fun r => r.2.payableBalance

/-- At most the total has been paid, and a purchase order is paid exactly when its goods
have come in and all of it has been paid. -/
structure RowOk (p : SupplierPurchase) : Prop where
  nonneg : 0 ≤ p.paidAmount
  atMost : p.paidAmount ≤ p.total
  paid : p.status = .paid ↔ Arrived p ∧ p.paidAmount = p.total

/-- What is owed to the shop is what is still due on its purchase orders. -/
structure Owed (u : ℕ) (db : Db) : Prop where
  payable : payableOf db u = some (db.purchases.total (dueTo u))
  rows : ∀ id p, db.purchases.get? id = some p → p.supplierUserId = u → RowOk p

/-- A purchase order in whole paise, on which nothing is paid before the goods come in. -/
structure RowBooked (p : SupplierPurchase) : Prop where
  total : IsCents p.total
  paid : IsCents p.paidAmount
  nonneg : 0 ≤ p.total
  unpaid : ¬ Arrived p → p.paidAmount = 0

/-- The shop's books are in whole paise. -/
structure Booked (u : ℕ) (db : Db) : Prop where
  payable : ∀ b, payableOf db u = some b → IsCents b
  rows : ∀ id p, db.purchases.get? id = some p → p.supplierUserId = u → RowBooked p

/-- The request is served. -/
def Served (env : Payment.Env) (db : Db) (r : Request) : Prop := ∃ write, plan env r db = .ok write

/-- The condition on a served request: goods of the shop that come in unpaid cost
something, and a payment to the shop is at most what is due. -/
def Exact (env : Payment.Env) (u : ℕ) (db : Db) (r : Request) : Prop :=
  Served env db r →
    match r with
    | .create v _ qty unitCost _ _ markPaid _ instantReceive =>
      v = u → instantReceive = true → markPaid = false → round2 (unitCost * qty) ≠ 0
    | .accept id v => v = u → ∀ p, db.purchases.get? id = some p → p.total ≠ 0
    | .pay id amount _ _ pid => ∀ p, db.purchases.get? id = some p → p.supplierUserId = u →
        ¬ AlreadyApplied p pid → round2 (amount.getD (due p)) ≤ due p
    | .verify id roid pid _ amount => ∀ p, db.purchases.get? id = some p → p.supplierUserId = u →
        ¬ AlreadyApplied p (some pid) →
        round2 ((amount.or (pendingAmount p roid)).getD (due p)) ≤ due p
    | _ => True

/-! ## One row written -/

/-- The purchase orders of `t` are those of `db` but for one, `q`, on which `old` was due
to the shop before. -/
structure RowChange (u : ℕ) (db t : Db) (old : ℚ) (q : SupplierPurchase) : Prop where
  sum : t.purchases.total (dueTo u) = db.purchases.total (dueTo u) - old + dueTo u q
  here : ∃ id, t.purchases.get? id = some q
  rest : ∀ id p, t.purchases.get? id = some p → p = q ∨ db.purchases.get? id = some p

section Rows

variable {u v : ℕ} {db t : Db} {old b : ℚ} {p q : SupplierPurchase}

theorem rowChange_insert (u : ℕ) (ht : t.purchases = db.purchases.insert q) :
    RowChange u db t 0 q where
  sum := by
    rw [ht, Table.total_insert]
    ring
  here := ⟨db.purchases.next, by rw [ht, Table.get?_insert, if_pos rfl]⟩
  rest := by
    intro id p hp
    rw [ht, Table.get?_insert] at hp
    split_ifs at hp
    · exact Or.inl (Option.some.inj hp).symm
    · exact Or.inr hp

theorem rowChange_modify (u : ℕ) {id : ℕ} {f : SupplierPurchase → SupplierPurchase}
    (hp : db.purchases.get? id = some p) (ht : t.purchases = db.purchases.modify id f) :
    RowChange u db t (dueTo u p) (f p) where
  sum := by rw [ht, Table.total_modify hp]
  here := ⟨id, by rw [ht, Table.get?_modify_self, hp, Option.map_some]⟩
  rest := by
    intro j r hr
    rw [ht] at hr
    by_cases hj : j = id
    · subst hj
      rw [Table.get?_modify_self, hp, Option.map_some] at hr
      exact Or.inl (Option.some.inj hr).symm
    · rw [Table.get?_modify_of_ne _ _ hj] at hr
      exact Or.inr hr

/-- The books stay in whole paise with a row and a balance that are. -/
theorem RowChange.booked (h : RowChange u db t old q) (hdb : Booked u db)
    (hq : q.supplierUserId = u → RowBooked q)
    (hpay : payableOf t u = payableOf db u ∨ ∃ b, payableOf t u = some b ∧ IsCents b) :
    Booked u t where
  payable := by
    intro b hb
    rcases hpay with hsame | ⟨c, hc, hcents⟩
    · exact hdb.payable b (hsame ▸ hb)
    · rw [hc] at hb
      exact Option.some.inj hb ▸ hcents
  rows := by
    intro id p hp hu
    rcases h.rest id p hp with rfl | hp'
    · exact hq hu
    · exact hdb.rows id p hp' hu

/-- A row of the shop keeps what is owed exactly when it is in order and the balance moves
with what is due on it. -/
theorem RowChange.owed_iff (h : RowChange u db t old q) (hdb : Owed u db)
    (hq : q.supplierUserId = u) (hpay : payableOf t u = some b) :
    Owed u t ↔ b = db.purchases.total (dueTo u) - old + dueTo u q ∧ RowOk q := by
  constructor
  · intro ht
    obtain ⟨id, hid⟩ := h.here
    have hbalance := ht.payable
    rw [hpay, h.sum] at hbalance
    exact ⟨Option.some.inj hbalance, ht.rows id q hid hq⟩
  · rintro ⟨rfl, hrow⟩
    refine ⟨by rw [hpay, h.sum], ?_⟩
    intro id p hp hu
    rcases h.rest id p hp with rfl | hp'
    · exact hrow
    · exact hdb.rows id p hp' hu

/-- A row of another shop leaves what is owed to this one. -/
theorem RowChange.owed_of_other (h : RowChange u db t 0 q) (hdb : Owed u db)
    (hq : q.supplierUserId ≠ u) (hpay : payableOf t u = payableOf db u) : Owed u t where
  payable := by
    have hzero : dueTo u q = 0 := if_neg fun hc => hq hc.1
    rw [hpay, hdb.payable, h.sum, hzero]
    congr 1
    ring
  rows := by
    intro id p hp hu
    rcases h.rest id p hp with rfl | hp'
    · exact absurd hu hq
    · exact hdb.rows id p hp' hu

theorem dueTo_of_other (h : p.supplierUserId ≠ u) : dueTo u p = 0 := if_neg fun hc => h hc.1

theorem dueTo_of_not_open (h : ¬ IsOpen p) : dueTo u p = 0 := if_neg fun hc => h hc.2

theorem dueTo_of_open (hu : p.supplierUserId = u) (h : IsOpen p) :
    dueTo u p = p.total - p.paidAmount := if_pos ⟨hu, h⟩

/-- Writing what is owed to a shop, and to no other. -/
theorem payableOf_setPayable {i : ℕ} {profile : RetailerProfile}
    (hs : Supplies db v i profile) (ht : t.profiles = db.profiles.modify i (setPayable b)) :
    payableOf t v = some b ∧ (v ≠ u → payableOf t u = payableOf db u) := by
  unfold payableOf
  constructor
  · rw [profileOf_modify (f := setPayable b) hs.profile ht fun _ => rfl]
    rfl
  · intro hne
    rw [profileOf_modify_of_ne (f := setPayable b) hs.profile ht (fun _ => rfl) (Ne.symm hne)]

theorem payableOf_congr (ht : t.profiles = db.profiles) : payableOf t u = payableOf db u := by
  unfold payableOf profileOf
  rw [ht]

theorem Supplies.payableOf {i : ℕ} {profile : RetailerProfile} (hs : Supplies db v i profile) :
    Purchase.payableOf db v = some profile.payableBalance := by
  rw [Purchase.payableOf, hs.profile, Option.map_some]

/-- Only the purchase orders matter. -/
theorem RowChange.congr {s : Db} (h : RowChange u db s old q) (ht : t.purchases = s.purchases) :
    RowChange u db t old q where
  sum := by rw [ht, h.sum]
  here := by rw [ht]; exact h.here
  rest := by rw [ht]; exact h.rest

end Rows

/-! ## One request -/

/-- The books are kept, and what is owed is kept exactly under the condition. -/
structure Keeps (u : ℕ) (db t : Db) (condition : Prop) : Prop where
  booked : Booked u t
  owed : Owed u db → (Owed u t ↔ condition)

section Writes

variable {u i id : ℕ} {db s : Db} {p q : SupplierPurchase} {profile : RetailerProfile}

theorem IsNew.rowBooked (h : IsNew p) : RowBooked p where
  total := h.total ▸ isCents_round2 _
  paid := h.unpaid ▸ isCents_zero
  nonneg := h.total_nonneg
  unpaid := fun _ => h.unpaid

theorem not_arrived_of_pending (h : p.status = .pending) : ¬ Arrived p := fun ha => ha.1 h

theorem not_isOpen_of_pending (h : p.status = .pending) : ¬ IsOpen p := fun ho =>
  not_arrived_of_pending h ho.arrived

theorem keeps_idle (hb : Booked u db) {condition : Prop} (h : condition) :
    Keeps u db db condition where
  booked := hb
  owed := fun ho => iff_of_true ho h

/-- A pending purchase order owes nothing yet. -/
theorem keeps_opened (hb : Booked u db) (hnew : IsNew p) :
    Keeps u db (addPurchase p db) True := by
  have hchange : RowChange u db (addPurchase p db) 0 p := rowChange_insert u rfl
  have hpay : payableOf (addPurchase p db) u = payableOf db u := payableOf_congr rfl
  refine ⟨hchange.booked hb (fun _ => hnew.rowBooked) (Or.inl hpay), fun ho => ?_⟩
  refine iff_of_true ?_ trivial
  by_cases hu : p.supplierUserId = u
  · refine (hchange.owed_iff ho hu (hpay.trans ho.payable)).2 ⟨?_, hnew.unpaid.ge, ?_, ?_⟩
    · rw [dueTo_of_not_open (not_isOpen_of_pending hnew.pending)]
      ring
    · rw [hnew.unpaid]
      exact hnew.total_nonneg
    · refine iff_of_false (by simp [hnew.pending]) ?_
      exact fun h => not_arrived_of_pending hnew.pending h.1
  · exact hchange.owed_of_other ho hu hpay

theorem receivedRow_supplier (markPaid : Bool) (total : ℚ) (payMethod : Option String)
    (p : SupplierPurchase) :
    (receivedRow markPaid total payMethod p).supplierUserId = p.supplierUserId ∧
      (receivedRow markPaid total payMethod p).total = p.total := by
  cases markPaid <;> exact ⟨rfl, rfl⟩

theorem RowBooked.receivedRow (h : RowBooked p) (markPaid : Bool) (payMethod : Option String) :
    RowBooked (Purchase.receivedRow markPaid p.total payMethod p) := by
  have harrived := arrived_receivedRow markPaid p.total payMethod p
  cases markPaid with
  | true => exact ⟨h.total, h.total, h.nonneg, fun hn => absurd harrived hn⟩
  | false => exact ⟨h.total, h.paid, h.nonneg, fun hn => absurd harrived hn⟩

/-- A received purchase order is in order if it was paid at once, or costs something. -/
theorem rowOk_receivedRow (h : RowBooked p) (hpending : p.status = .pending) (markPaid : Bool)
    (payMethod : Option String) :
    RowOk (receivedRow markPaid p.total payMethod p) ↔ (markPaid = false → p.total ≠ 0) := by
  have hunpaid : p.paidAmount = 0 := h.unpaid (not_arrived_of_pending hpending)
  have harrived := arrived_receivedRow markPaid p.total payMethod p
  cases markPaid with
  | true =>
    refine iff_of_true ⟨h.nonneg, le_rfl, ?_⟩ (by simp)
    exact iff_of_true rfl ⟨harrived, rfl⟩
  | false =>
    constructor
    · intro hok _ hzero
      have hpaid : (receivedRow false p.total payMethod p).status = .paid :=
        hok.paid.2 ⟨harrived, by show p.paidAmount = p.total; rw [hunpaid, hzero]⟩
      simp [receivedRow] at hpaid
    · intro hne
      refine ⟨hunpaid.ge, by show p.paidAmount ≤ p.total; rw [hunpaid]; exact h.nonneg, ?_⟩
      refine iff_of_false (by simp [receivedRow]) ?_
      rintro ⟨_, heq⟩
      exact hne rfl (by rw [← hunpaid]; exact heq.symm)

/-- Goods that come in are owed for, or paid at once. -/
theorem keeps_receive (product : Product) (createdBy : Option ℕ) {markPaid : Bool}
    {payMethod : Option String} (hb : Booked u db)
    (hchange : RowChange u db s 0 (receivedRow markPaid p.total payMethod p))
    (hprofiles : s.profiles = db.profiles) (hs : Supplies db p.supplierUserId i profile)
    (hpending : p.status = .pending) (hrow : p.supplierUserId = u → RowBooked p) :
    Keeps u db (receiveGoods p product i profile createdBy markPaid s)
      (p.supplierUserId = u → markPaid = false → p.total ≠ 0) := by
  have hchange' := hchange.congr (t := receiveGoods p product i profile createdBy markPaid s)
    receiveGoods_purchases
  obtain ⟨hsupplier, htotal⟩ := receivedRow_supplier markPaid p.total payMethod p
  have hrow' : (receivedRow markPaid p.total payMethod p).supplierUserId = u →
      RowBooked (receivedRow markPaid p.total payMethod p) := by
    rw [hsupplier]
    exact fun hu => (hrow hu).receivedRow markPaid payMethod
  by_cases hu : p.supplierUserId = u
  swap
  · have hpay : payableOf (receiveGoods p product i profile createdBy markPaid s) u =
        payableOf db u := by
      cases markPaid with
      | true => exact payableOf_congr hprofiles
      | false =>
        exact (payableOf_setPayable hs (by rw [receiveGoods_profiles, hprofiles]; rfl)).2 hu
    exact ⟨hchange'.booked hb hrow' (Or.inl hpay), fun ho =>
      iff_of_true (hchange'.owed_of_other ho (hsupplier ▸ hu) hpay) fun h => absurd h hu⟩
  subst hu
  have hbook := hrow rfl
  have hcents : IsCents profile.payableBalance := hb.payable _ hs.payableOf
  have hunpaid : p.paidAmount = 0 := hbook.unpaid (not_arrived_of_pending hpending)
  cases markPaid with
  | true =>
    have hpay : payableOf (receiveGoods p product i profile createdBy true s) p.supplierUserId =
        payableOf db p.supplierUserId := payableOf_congr hprofiles
    refine ⟨hchange'.booked hb hrow' (Or.inl hpay), fun ho => ?_⟩
    rw [hchange'.owed_iff ho hsupplier (hpay.trans ho.payable),
      rowOk_receivedRow hbook hpending]
    have hclosed : ¬ IsOpen (receivedRow true p.total payMethod p) := by
      simp [IsOpen, receivedRow]
    rw [dueTo_of_not_open hclosed]
    simp
  | false =>
    have hpay : payableOf (receiveGoods p product i profile createdBy false s) p.supplierUserId =
        some (round2 (profile.payableBalance + p.total)) :=
      (payableOf_setPayable (u := p.supplierUserId) hs
        (by rw [receiveGoods_profiles, hprofiles]; rfl)).1
    refine ⟨hchange'.booked hb hrow' (Or.inr ⟨_, hpay, isCents_round2 _⟩), fun ho => ?_⟩
    rw [hchange'.owed_iff ho hsupplier hpay, rowOk_receivedRow hbook hpending]
    have hbalance : profile.payableBalance = db.purchases.total (dueTo p.supplierUserId) :=
      Option.some.inj (hs.payableOf.symm.trans ho.payable)
    have hdue : dueTo p.supplierUserId (receivedRow false p.total payMethod p) = p.total := by
      have hopen : IsOpen (receivedRow false p.total payMethod p) := Or.inl rfl
      rw [dueTo_of_open hsupplier hopen]
      show p.total - p.paidAmount = p.total
      rw [hunpaid, sub_zero]
    rw [round2_of_isCents (hcents.add hbook.total), hbalance, hdue, sub_zero]
    simp

/-- A rewrite that changes neither what is due nor the books keeps what is owed. -/
theorem keeps_rewrite {f : SupplierPurchase → SupplierPurchase}
    (hb : Booked u db) (hp : db.purchases.get? id = some p)
    (hsupplier : (f p).supplierUserId = p.supplierUserId) (hdue : dueTo u (f p) = dueTo u p)
    (hbooked : RowBooked p → RowBooked (f p)) (hok : RowOk p → RowOk (f p)) :
    Keeps u db (rewrite id f db) True := by
  have hchange : RowChange u db (rewrite id f db) (dueTo u p) (f p) :=
    rowChange_modify u hp rfl
  have hpay : payableOf (rewrite id f db) u = payableOf db u := payableOf_congr rfl
  refine ⟨hchange.booked hb (fun hu => hbooked (hb.rows id p hp (hsupplier ▸ hu))) (Or.inl hpay),
    fun ho => iff_of_true ?_ trivial⟩
  by_cases hu : p.supplierUserId = u
  · refine (hchange.owed_iff ho (hsupplier.trans hu) (hpay.trans ho.payable)).2
      ⟨?_, hok (ho.rows id p hp hu)⟩
    rw [hdue]
    ring
  · rw [dueTo_of_other hu] at hchange
    exact hchange.owed_of_other ho (fun h => hu (hsupplier ▸ h)) hpay

theorem due_of_booked (h : RowBooked p) : due p = p.total - p.paidAmount :=
  round2_of_isCents (h.total.sub h.paid)

/-- In whole paise, a purchase order becomes paid when the whole total has been paid. -/
theorem paidStatus_eq_paid {total paid : ℚ} (ht : IsCents total) (hp : IsCents paid) :
    paidStatus total paid = .paid ↔ total ≤ paid := by
  unfold paidStatus
  constructor
  · intro h
    by_contra hlt
    rw [if_neg] at h
    · cases h
    · have := hp.add_one_le ht (not_le.1 hlt)
      linarith
  · intro h
    rw [if_pos]
    linarith

/-- A row after a payment is in order exactly when no more was paid than was due. -/
theorem rowOk_settledRow {pay : ℚ} {method : String} {note : Option String} (h : RowBooked p)
    (hok : RowOk p) (hc : IsCents pay) (hpos : 0 < pay) :
    RowOk (settledRow (p.paidAmount + pay) method (paidStatus p.total (p.paidAmount + pay)) note p) ↔
      pay ≤ due p := by
  rw [due_of_booked h]
  constructor
  · intro hq
    have hmost : p.paidAmount + pay ≤ p.total := hq.atMost
    linarith
  · intro hle
    have hmost : p.paidAmount + pay ≤ p.total := by linarith
    refine ⟨add_nonneg hok.nonneg hpos.le, hmost, ?_⟩
    show paidStatus p.total (p.paidAmount + pay) = .paid ↔ _ ∧ p.paidAmount + pay = p.total
    rw [paidStatus_eq_paid h.total (h.paid.add hc)]
    constructor
    · exact fun hge => ⟨arrived_settledRow _ _ _ _ _, le_antisymm hmost hge⟩
    · exact fun heq => heq.2.ge

/-- What is due after a payment that is at most what was due. -/
theorem dueTo_settledRow {pay : ℚ} {method : String} {note : Option String} (h : RowBooked p)
    (hu : p.supplierUserId = u) (hc : IsCents pay) (hle : pay ≤ due p) :
    dueTo u (settledRow (p.paidAmount + pay) method (paidStatus p.total (p.paidAmount + pay)) note p) =
      p.total - p.paidAmount - pay := by
  rw [due_of_booked h] at hle
  set q := settledRow (p.paidAmount + pay) method (paidStatus p.total (p.paidAmount + pay)) note p
    with hq
  have hstatus : q.status = paidStatus p.total (p.paidAmount + pay) := rfl
  by_cases hfull : p.total ≤ p.paidAmount + pay
  · have hpaid := (paidStatus_eq_paid h.total (h.paid.add hc)).2 hfull
    rw [dueTo_of_not_open (by rw [IsOpen, hstatus, hpaid]; simp)]
    linarith
  · have hpart : paidStatus p.total (p.paidAmount + pay) = .partialPaid := by
      have hne := mt (paidStatus_eq_paid h.total (h.paid.add hc)).1 hfull
      unfold paidStatus at hne ⊢
      split_ifs at hne ⊢
      · exact absurd rfl hne
      · rfl
    have hopen : IsOpen q := Or.inr (hstatus.trans hpart)
    rw [dueTo_of_open (p := q) hu hopen]
    show p.total - (p.paidAmount + pay) = p.total - p.paidAmount - pay
    ring

/-- A payment keeps what is owed to the shop exactly when it is at most what is due. -/
theorem keeps_settle {pay : ℚ} (method : String) (note pid : Option String) (hb : Booked u db)
    (hp : db.purchases.get? id = some p) (hopen : IsOpen p) (hc : IsCents pay)
    (hrules : assertFirstOrPartialPay p.total p.paidAmount pay = .ok ())
    (hs : Supplies db p.supplierUserId i profile) :
    Keeps u db (settle id p i profile pay method note pid db)
      (p.supplierUserId = u → pay ≤ due p) := by
  have hwrite : (settle id p i profile pay method note pid db).purchases =
      db.purchases.modify id _ := settle_purchases
  have hchange := rowChange_modify u hp hwrite
  have hpos := pos_of_rules hc hrules
  by_cases hu : p.supplierUserId = u
  swap
  · have hpay : payableOf (settle id p i profile pay method note pid db) u = payableOf db u :=
      (payableOf_setPayable hs settle_profiles).2 hu
    refine ⟨hchange.booked hb (fun h => absurd h hu) (Or.inl hpay), fun ho => ?_⟩
    rw [dueTo_of_other hu] at hchange
    exact iff_of_true (hchange.owed_of_other ho hu hpay) fun h => absurd h hu
  subst hu
  have hbook := hb.rows id p hp rfl
  have hcents : IsCents profile.payableBalance := hb.payable _ hs.payableOf
  have hpay : payableOf (settle id p i profile pay method note pid db) p.supplierUserId =
      some (max 0 (round2 (profile.payableBalance - pay))) :=
    (payableOf_setPayable (u := p.supplierUserId) hs settle_profiles).1
  rw [round2_of_isCents (hbook.paid.add hc)] at hchange
  have hrow : RowBooked (settledRow (p.paidAmount + pay) method
      (paidStatus p.total (p.paidAmount + pay)) (paidNote (noteText p) pay (noteBits note pid)) p) :=
    ⟨hbook.total, hbook.paid.add hc, hbook.nonneg, fun hn =>
      absurd (arrived_settledRow _ _ _ _ _) hn⟩
  refine ⟨hchange.booked hb (fun _ => hrow)
    (Or.inr ⟨_, hpay, isCents_zero.max (isCents_round2 _)⟩), fun ho => ?_⟩
  rw [hchange.owed_iff ho rfl hpay, rowOk_settledRow hbook (ho.rows id p hp rfl) hc hpos]
  constructor
  · exact fun h _ => h.2
  · intro hle
    refine ⟨?_, hle rfl⟩
    have hdue := due_of_booked hbook
    have hbalance : profile.payableBalance = db.purchases.total (dueTo p.supplierUserId) :=
      Option.some.inj (hs.payableOf.symm.trans ho.payable)
    -- what is due on this purchase order is part of what is owed
    have hpart : p.total - p.paidAmount ≤ db.purchases.total (dueTo p.supplierUserId) := by
      rw [← dueTo_of_open rfl hopen]
      refine Table.le_total hp fun j q hq => ?_
      unfold dueTo
      split_ifs with hcase
      · exact sub_nonneg.2 (ho.rows j q hq hcase.1).atMost
      · exact le_rfl
    have hnn : 0 ≤ profile.payableBalance - pay := by
      have := hle rfl
      rw [hdue] at this
      rw [hbalance]
      linarith
    rw [dueTo_settledRow hbook rfl hc (hle rfl), dueTo_of_open rfl hopen,
      round2_of_isCents (hcents.sub hc), max_eq_right hnn, hbalance]
    ring

end Writes

/-! ## Requests and runs -/

section Requests

variable {env : Payment.Env} {u : ℕ} {db : Db} {write : Db → Db}

/-- A served payment, and the condition on it. -/
theorem keeps_pay {id : ℕ} {amount : Option ℚ} {payMethod : String} {note pid : Option String}
    (hb : Booked u db) (h : payPurchase id amount payMethod note pid db = .ok write) :
    Keeps u db (write db) (∀ p, db.purchases.get? id = some p → p.supplierUserId = u →
      ¬ AlreadyApplied p pid → round2 (amount.getD (due p)) ≤ due p) := by
  obtain ⟨p, hp, hopen, ⟨happlied, rfl⟩ | ⟨hnew, hguards, i, profile, hs, rfl⟩⟩ :=
    payPurchase_eq_ok.1 h
  · refine keeps_idle hb ?_
    intro q hq _ hnew
    rw [hp] at hq
    cases hq
    exact absurd happlied hnew
  · have hkeeps := keeps_settle (payMethodOf payMethod) note pid hb hp hopen (isCents_round2 _)
      hguards.rules hs
    refine ⟨hkeeps.booked, fun ho => (hkeeps.owed ho).trans ?_⟩
    constructor
    · intro hle q hq hu _
      rw [hp] at hq
      cases hq
      exact hle hu
    · exact fun hle hu => hle p hp hu hnew

/-- A served request keeps the books, and what is owed exactly under the condition. -/
theorem keeps_of_plan {r : Request} (hb : Booked u db) (h : plan env r db = .ok write) :
    Keeps u db (write db) (Exact env u db r) := by
  have hserved : Served env db r := ⟨write, h⟩
  cases r with
  | create v y qty unitCost note createdBy markPaid payMethod instantReceive =>
    obtain ⟨hqty, hcost, i, profile, product, hs, _, hproduct, rfl⟩ := createPurchase_eq_ok.1 h
    set p := newPurchase v y product qty unitCost note createdBy with hp
    have hnew : IsNew p := ⟨rfl, rfl, rfl, hqty, hcost⟩
    cases hnow : instantReceive || markPaid with
    | false =>
      have hkeeps := keeps_opened hb hnew
      refine ⟨hkeeps.booked, fun ho => (hkeeps.owed ho).trans (iff_of_true trivial ?_)⟩
      intro _ _ hinstant
      rw [hinstant] at hnow
      simp at hnow
    | true =>
      have hchange := rowChange_insert (t := addPurchase _ db) u (addPurchase_purchases
        (p := receivedRow markPaid p.total (if markPaid then payMethod else none) p))
      have hkeeps := keeps_receive product createdBy hb hchange rfl hs rfl
        fun _ => hnew.rowBooked
      refine ⟨hkeeps.booked, fun ho => (hkeeps.owed ho).trans ?_⟩
      constructor
      · exact fun hc _ hu _ hpaid => hc hu hpaid
      · intro hc hu hpaid
        refine hc hserved hu ?_ hpaid
        rw [hpaid] at hnow
        simpa using hnow
  | accept id v =>
    obtain ⟨p, hp, rfl, hpending, i, profile, product, hs, hproduct, rfl⟩ :=
      acceptPurchase_eq_ok.1 h
    have hchange := rowChange_modify (t := rewrite id (receivedRow false p.total none) db) u hp rfl
    rw [dueTo_of_not_open (not_isOpen_of_pending hpending)] at hchange
    have hkeeps := keeps_receive product (some p.supplierUserId) hb hchange rfl hs hpending
      (hb.rows id p hp)
    refine ⟨hkeeps.booked, fun ho => (hkeeps.owed ho).trans ?_⟩
    constructor
    · intro hc _ hu q hq
      rw [hp] at hq
      cases hq
      exact hc hu rfl
    · exact fun hc hu _ => hc hserved hu p hp
  | reject id v =>
    obtain ⟨p, hp, _, hpending, rfl⟩ := rejectPurchase_eq_ok.1 h
    have hnot : ¬ Arrived (rejectedRow p) := by simp [Arrived, rejectedRow]
    have hkeeps : Keeps u db (rewrite id rejectedRow db) True := by
      refine keeps_rewrite hb hp rfl ?_ (fun hrow => ⟨hrow.total, hrow.paid, hrow.nonneg, fun _ =>
        hrow.unpaid (not_arrived_of_pending hpending)⟩) fun hok => ⟨hok.nonneg, hok.atMost, ?_⟩
      · rw [dueTo_of_not_open (not_isOpen_of_pending hpending),
          dueTo_of_not_open fun ho => hnot ho.arrived]
      · exact iff_of_false (by simp [rejectedRow]) fun h => hnot h.1
    exact ⟨hkeeps.booked, fun ho => (hkeeps.owed ho).trans (iff_of_true trivial fun _ => trivial)⟩
  | pay id amount payMethod note pid =>
    have hkeeps := keeps_pay hb h
    refine ⟨hkeeps.booked, fun ho => (hkeeps.owed ho).trans ?_⟩
    exact ⟨fun hc _ => hc, fun hc => hc hserved⟩
  | createPay gateway id amount now =>
    obtain ⟨p, pay, profile, rz, hquote, _, rfl⟩ := createRazorpayPay_eq_ok h
    obtain ⟨hp, _⟩ := razorpayQuote_eq_ok hquote
    have hkeeps := keeps_rewrite (u := u)
      (f := notedRow (pendingNote (noteText p) rz.razorpayOrderId pay)) hb hp rfl rfl
      (fun hrow => ⟨hrow.total, hrow.paid, hrow.nonneg, hrow.unpaid⟩)
      fun hok => ⟨hok.nonneg, hok.atMost, hok.paid⟩
    exact ⟨hkeeps.booked, fun ho => (hkeeps.owed ho).trans (iff_of_true trivial fun _ => trivial)⟩
  | verify id roid pid signature amount =>
    obtain ⟨p, hp, ⟨happlied, rfl⟩ | ⟨hnew, _, hpay⟩⟩ := verifyRazorpayPay_eq_ok.1 h
    · refine keeps_idle hb ?_
      intro _ q hq _ hfresh
      rw [hp] at hq
      cases hq
      exact absurd happlied hfresh
    · have hkeeps := keeps_pay hb hpay
      refine ⟨hkeeps.booked, fun ho => (hkeeps.owed ho).trans ?_⟩
      constructor
      · intro hc _ q hq hu hfresh
        rw [hp] at hq
        cases hq
        exact hc p hp hu hfresh
      · intro hc q hq hu hfresh
        rw [hp] at hq
        cases hq
        exact hc hserved p hp hu hfresh

/-- Every request keeps the books, and what is owed exactly when it is exact. -/
theorem keeps_step (env : Payment.Env) (hb : Booked u db) (r : Request) :
    Keeps u db (step env db r) (Exact env u db r) := by
  rcases call_cases (plan env) db r with ⟨e, herr, hcall⟩ | ⟨write, hwrite, hcall⟩
  · rw [step, hcall]
    refine keeps_idle hb ?_
    rintro ⟨write, hok⟩
    rw [herr] at hok
    cases hok
  · rw [step, hcall]
    exact keeps_of_plan hb hwrite

/-- From a shop that is owed nothing and has no purchase orders, what is owed to it is what
is due on its purchase orders throughout a run exactly when each request of it is exact. -/
theorem owed_throughout_iff {i : ℕ} {profile : RetailerProfile}
    (hprofile : profileOf db u = some (i, profile)) (hzero : profile.payableBalance = 0)
    (hnone : ∀ id p, db.purchases.get? id = some p → p.supplierUserId ≠ u)
    (rs : List Request) :
    Throughout (step env) (Owed u) db rs ↔ Stepwise (step env) (Exact env u) db rs := by
  have hpay : payableOf db u = some 0 := by rw [payableOf, hprofile, Option.map_some, hzero]
  have hb : Booked u db := by
    refine ⟨?_, fun id p hp hu => absurd hu (hnone id p hp)⟩
    intro b hb
    rw [hpay] at hb
    exact Option.some.inj hb ▸ isCents_zero
  have hsum : db.purchases.total (dueTo u) = 0 := by
    refine List.sum_eq_zero ?_
    intro x hx
    obtain ⟨r, hr, rfl⟩ := List.mem_map.1 hx
    exact dueTo_of_other (hnone r.1 r.2 (Table.get?_eq_some.2 hr))
  have howed : Owed u db := ⟨by rw [hpay, hsum], fun id p hp hu => absurd hu (hnone id p hp)⟩
  exact throughout_iff_stepwise (I := Booked u) (P := Owed u)
    (fun s r hs => (keeps_step env hs r).booked) (fun s r hs ho => (keeps_step env hs r).owed ho)
    hb howed rs

end Requests

/-! ## A payment one paisa above what is due -/

/-- A wholesaler, user 1, that is owed nothing, and a product. -/
def supplierDb : Db :=
  { Db.empty with
    users := .ofList [{ (default : User) with role := .retailer }]
    profiles := .ofList [{ (default : RetailerProfile) with userId := 1, isWholesaler := true }]
    products := .ofList [{ (default : Product) with stockQty := 5 }] }

/-- Ten pieces at ₹10, received at once. -/
def buyTen : Request := .create 1 1 10 10 none none false none true

theorem supplierDb_owed :
    Throughout (step Payment.plainEnv) (Owed 1) supplierDb
      [buyTen, .pay 1 (some 80) "upi" none none, .pay 1 none "cash" none none] := by
  have hnone : ∀ id p, supplierDb.purchases.get? id = some p → p.supplierUserId ≠ 1 := by
    intro id p hp
    cases hp
  refine (owed_throughout_iff (i := 1) rfl rfl hnone _).2 ?_
  refine stepwise_cons.2 ⟨?_, stepwise_cons.2 ⟨?_, stepwise_cons.2 ⟨?_, stepwise_nil _ _⟩⟩⟩
  · intro _ _ _ _
    rw [round2_of_isCents ⟨10000, by norm_num⟩]
    norm_num
  · intro _ p hp _ _
    have hle : ((step Payment.plainEnv supplierDb buyTen).purchases.get? 1).all
        (fun p => decide (round2 80 ≤ due p)) = true := by decide +kernel
    rw [hp] at hle
    exact of_decide_eq_true hle
  · intro _ p hp _ _
    have hle : ((run (step Payment.plainEnv) supplierDb
        [buyTen, .pay 1 (some 80) "upi" none none]).purchases.get? 1).all
        (fun p => decide (round2 (due p) ≤ due p)) = true := by decide +kernel
    rw [show (run (step Payment.plainEnv) supplierDb
      [buyTen, .pay 1 (some 80) "upi" none none]).purchases.get? 1 = some p from hp] at hle
    exact of_decide_eq_true hle

/-- Of ₹100 due, ₹100.01 are paid: more has been paid than the total. -/
theorem supplierDb_not_owed :
    ¬ Throughout (step Payment.plainEnv) (Owed 1) supplierDb
      [buyTen, .pay 1 (some (10001 / 100)) "upi" none none] := by
  intro h
  have hover : ((run (step Payment.plainEnv) supplierDb
      [buyTen, .pay 1 (some (10001 / 100)) "upi" none none]).purchases.get? 1).any
      (fun p => decide (p.supplierUserId = 1 ∧ p.total < p.paidAmount)) = true := by
    decide +kernel
  obtain ⟨p, hp, hcase⟩ := (Option.any_eq_true _ _).1 hover
  obtain ⟨hu, hlt⟩ := of_decide_eq_true hcase
  exact absurd (h.final.rows 1 p hp hu).atMost (not_le.2 hlt)

end Purchase

end SweetCrust
