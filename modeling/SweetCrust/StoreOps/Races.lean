import SweetCrust.StoreOps.Khata
import SweetCrust.StoreOps.PurchasePayable

/-!
# Requests on a shop's balances that overlap

Debits and collections of the udhaar read and write what the shop owes; accepting and
paying purchase orders read and write what is owed to the shop.  Each request commits
absolute values, and nothing is locked, so two requests of one of these lanes that
overlap lose an update.  Requests of different lanes do not: they write different
columns of the shop's profile, and read nothing that the other lane writes.

* `plan_congr` — what a request plans depends only on what its lane writes.
* `serial_of_undisturbed` — when no request of a lane commits between another's read and
  its commit, the database is the one of the requests served one after another.
* `shopDb_lost_update` — two overlapping collections.
-/

namespace SweetCrust

open Tabular Guard Rounding Runs Interleave Credit Purchase

namespace Races

/-- A request on the balances of a shop. -/
inductive Request
  | khata (r : Credit.Request)
  | accept (purchaseId supplierUserId : ℕ)
  | pay (purchaseId : ℕ) (amount : Option ℚ) (payMethod : String)
      (note razorpayPaymentId : Option String)

/-- What a request plans in the database it reads. -/
def plan : Request → Db → Plan
  | .khata r => Credit.plan r
  | .accept id v => acceptPurchase id v
  | .pay id amount payMethod note pid => payPurchase id amount payMethod note pid

/-- The balance that a request reads and writes. -/
inductive Lane
  /-- What the shop owes. -/
  | khata
  /-- What is owed to the shop. -/
  | supplier
  deriving DecidableEq

def lane : Request → Lane
  | .khata _ => .khata
  | _ => .supplier

/-! ## What a lane reads -/

section Views

variable {β : Type} {s t : Db} {view : RetailerProfile → β}

/-- Two databases show the same of every shop's profile. -/
def SameProfiles (view : RetailerProfile → β) (s t : Db) : Prop :=
  ∀ v, (profileOf s v).map (fun r => (r.1, view r.2)) =
    (profileOf t v).map fun r => (r.1, view r.2)

/-- Rewriting a column that is not looked at. -/
theorem sameProfiles_modify {i : ℕ} {f : RetailerProfile → RetailerProfile}
    (hs : s.profiles = t.profiles.modify i f) (huser : ∀ p, (f p).userId = p.userId)
    (hview : ∀ p, view (f p) = view p) : SameProfiles view s t := by
  intro v
  unfold profileOf
  rw [hs, Table.first?_modify _ fun p => by rw [huser], Option.map_map]
  congr 1
  funext r
  by_cases h : r.1 = i <;> simp [h, hview]

theorem sameProfiles_of_eq (hs : s.profiles = t.profiles) : SameProfiles view s t := by
  intro v
  unfold profileOf
  rw [hs]

/-- A computation that looks at a profile through the view does not tell the two apart. -/
theorem profile_bind_congr {α ε : Type} (h : SameProfiles view s t) (v : ℕ) (e : ε)
    {f : ℕ × RetailerProfile → Except ε α}
    (hf : ∀ i p q, view p = view q → f (i, p) = f (i, q)) :
    (orRaise (profileOf s v) e >>= f) = (orRaise (profileOf t v) e >>= f) := by
  have hv := h v
  cases hs : profileOf s v with
  | none =>
    rw [hs] at hv
    have ht : profileOf t v = none := by simpa using hv.symm
    rw [ht]
  | some r =>
    obtain ⟨i, p⟩ := r
    rw [hs] at hv
    obtain ⟨⟨j, q⟩, ht, heq⟩ := Option.map_eq_some_iff.1 hv.symm
    obtain ⟨rfl, hview⟩ := Prod.mk.inj heq
    rw [ht]
    exact hf j p q hview.symm

end Views

/-- The columns of a profile that the udhaar reads. -/
def khataView (p : RetailerProfile) : Bool × Bool × ℚ × ℚ :=
  (p.isBlocked, p.creditAllowed, p.creditLimit, p.outstandingBalance)

/-- The columns of a profile that the purchase orders read. -/
def supplierView (p : RetailerProfile) : String × ℚ := (p.shopName, p.payableBalance)

/-- What the requests of a lane read. -/
def SameReads (s t : Db) : Lane → Prop
  | .khata => SameProfiles khataView s t ∧ s.orders = t.orders ∧ s.payments = t.payments
  | .supplier => SameProfiles supplierView s t ∧ s.users = t.users ∧ s.products = t.products ∧
      s.purchases = t.purchases

section Plans

variable {s t : Db}

theorem allocateFrom_congr (hp : s.payments = t.payments) (rest : List (ℕ × Order)) :
    ∀ remaining, allocateFrom s remaining rest = allocateFrom t remaining rest := by
  induction rest with
  | nil => exact fun _ => rfl
  | cons r rest ih =>
    intro remaining
    obtain ⟨key, order⟩ := r
    simp only [allocateFrom_cons, ih, latestPayment, hp]

theorem creditPlan_congr (h : SameReads s t .khata) (r : Credit.Request) :
    Credit.plan r s = Credit.plan r t := by
  obtain ⟨hprofiles, horders, hpayments⟩ := h
  cases r with
  | debit v amount orderId note createdBy =>
    simp only [Credit.plan, debitCredit, getProfile]
    congr 1
    funext _
    refine profile_bind_congr hprofiles v _ fun i p q hview => ?_
    simp only [khataView, Prod.mk.injEq] at hview
    obtain ⟨hblocked, hallowed, hlimit, hbalance⟩ := hview
    simp only [hblocked, hallowed, hlimit, hbalance]
  | collect v amount note method createdBy paymentId =>
    have halloc : ∀ pay,
        allocateCollectionToOrdersIn id s v pay = allocateCollectionToOrdersIn id t v pay := by
      intro pay
      unfold allocateCollectionToOrdersIn openOrders
      rw [horders]
      exact allocateFrom_congr hpayments _ _
    simp only [Credit.plan, creditPayment, creditPaymentIn, getProfile, halloc]
    congr 1
    funext _
    refine profile_bind_congr hprofiles v _ fun i p q hview => ?_
    simp only [khataView, Prod.mk.injEq] at hview
    simp only [hview.2.2.2]

/-- A computation that looks at a supplier through the view does not tell the two apart. -/
theorem shop_bind_congr (hprofiles : SameProfiles supplierView s t) (husers : s.users = t.users)
    (v : ℕ) {f : User × ℕ × RetailerProfile → Plan}
    (hf : ∀ user i p q, supplierView p = supplierView q → f (user, i, p) = f (user, i, q)) :
    (shop s v >>= f) = (shop t v >>= f) := by
  unfold shop
  rw [husers]
  simp only [bind_assoc]
  congr 1
  funext user
  exact profile_bind_congr hprofiles v _ fun i p q hview => hf user i p q hview

theorem receiveGoods_congr {q q' : RetailerProfile} (h : supplierView q = supplierView q')
    (p : SupplierPurchase) (product : Product) (i : ℕ) (createdBy : Option ℕ) (markPaid : Bool) :
    receiveGoods p product i q createdBy markPaid = receiveGoods p product i q' createdBy markPaid := by
  simp only [supplierView, Prod.mk.injEq] at h
  funext db
  simp only [receiveGoods, h.1, h.2]

theorem settle_congr {q q' : RetailerProfile} (h : supplierView q = supplierView q') (id : ℕ)
    (p : SupplierPurchase) (i : ℕ) (pay : ℚ) (method : String) (note pid : Option String) :
    settle id p i q pay method note pid = settle id p i q' pay method note pid := by
  simp only [supplierView, Prod.mk.injEq] at h
  funext db
  simp only [settle, h.2]

theorem acceptPurchase_congr (h : SameReads s t .supplier) (id v : ℕ) :
    acceptPurchase id v s = acceptPurchase id v t := by
  obtain ⟨hprofiles, husers, hproducts, hpurchases⟩ := h
  unfold acceptPurchase
  rw [hpurchases]
  congr 1
  funext p
  congr 1
  funext _
  congr 1
  funext _
  have hreceive : ∀ i q, applyReceive s p i q (some v) false none =
      applyReceive t p i q (some v) false none := by
    intro i q
    unfold applyReceive
    rw [hproducts]
  simp only [hreceive]
  refine shop_bind_congr hprofiles husers v fun user i q q' hview => ?_
  simp only [applyReceive, receiveGoods_congr hview]

theorem payPurchase_congr (h : SameReads s t .supplier) (id : ℕ) (amount : Option ℚ)
    (payMethod : String) (note pid : Option String) :
    payPurchase id amount payMethod note pid s = payPurchase id amount payMethod note pid t := by
  obtain ⟨hprofiles, husers, hproducts, hpurchases⟩ := h
  unfold payPurchase
  rw [hpurchases]
  congr 1
  funext p
  congr 1
  funext _
  by_cases happlied : AlreadyApplied p pid
  · simp only [happlied, if_true]
  · simp only [happlied, if_false]
    refine congrArg _ (funext fun _ => congrArg _ (funext fun _ => congrArg _ (funext fun _ =>
      congrArg _ (funext fun _ => ?_))))
    refine shop_bind_congr hprofiles husers _ fun user i q q' hview => ?_
    simp only [settle_congr hview]

/-- What a request plans depends only on what its lane reads. -/
theorem plan_congr (r : Request) (h : SameReads s t (lane r)) : plan r s = plan r t := by
  cases r with
  | khata r => exact creditPlan_congr h r
  | accept id v => exact acceptPurchase_congr h id v
  | pay id amount payMethod note pid => exact payPurchase_congr h id amount payMethod note pid

end Plans

/-! ## What a lane writes -/

section Writes

variable {s t : Db} {write : Db → Db}

theorem supplier_reads_postEntry (i : ℕ) (e : CreditLedgerEntry) (base t : Db)
    (hprofiles : base.profiles = t.profiles) (hrest : base.users = t.users ∧
      base.products = t.products ∧ base.purchases = t.purchases) :
    SameReads (postEntry i e base) t .supplier := by
  have hmodify : (postEntry i e base).profiles = t.profiles.modify i (setBalance e.balanceAfter) := by
    rw [← hprofiles]
    rfl
  exact ⟨sameProfiles_modify hmodify (fun _ => rfl) fun _ => rfl, hrest⟩

/-- Spreading a collection writes orders and payments only. -/
theorem foldl_writeApplied_rest (l : List Applied) (db : Db) :
    (l.foldl writeApplied db).users = db.users ∧ (l.foldl writeApplied db).products = db.products ∧
      (l.foldl writeApplied db).purchases = db.purchases ∧
      (l.foldl writeApplied db).movements = db.movements := by
  induction l generalizing db with
  | nil => exact ⟨rfl, rfl, rfl, rfl⟩
  | cons a l ih => exact ih (writeApplied db a)

/-- A request of the udhaar writes nothing that the purchase orders read. -/
theorem supplier_reads_khata {r : Credit.Request} (h : Credit.plan r s = .ok write) (t : Db) :
    SameReads (write t) t .supplier := by
  cases r with
  | debit v amount orderId note createdBy =>
    obtain ⟨i, p, _, _, rfl⟩ := debitCredit_eq_ok.1 h
    exact supplier_reads_postEntry i _ t t rfl ⟨rfl, rfl, rfl⟩
  | collect v amount note method createdBy paymentId =>
    obtain ⟨i, p, _, _, rfl⟩ := creditPayment_eq_ok.1 h
    obtain ⟨husers, hproducts, hpurchases, _⟩ := foldl_writeApplied_rest
      (allocateCollectionToOrders s v (round2 amount)) t
    exact supplier_reads_postEntry i _ _ t (foldl_writeApplied _ t).1
      ⟨husers, hproducts, hpurchases⟩

/-- Accepting and paying purchase orders writes nothing that the udhaar reads. -/
theorem khata_reads_supplier {r : Request} (hr : lane r = .supplier)
    (h : plan r s = .ok write) (t : Db) :
    SameReads (write t) t .khata ∧ (write t).ledger = t.ledger := by
  have hpayable : ∀ (i : ℕ) (b : ℚ) (base : Db), base.profiles = t.profiles →
      SameProfiles khataView (writePayable i b base) t := by
    intro i b base hbase
    have hmodify : (writePayable i b base).profiles = t.profiles.modify i (setPayable b) := by
      rw [← hbase]
      rfl
    exact sameProfiles_modify hmodify (fun _ => rfl) fun _ => rfl
  cases r with
  | khata r => cases hr
  | accept id v =>
    obtain ⟨p, _, _, _, i, profile, product, _, _, rfl⟩ := acceptPurchase_eq_ok.1 h
    exact ⟨⟨hpayable i _ _ rfl, rfl, rfl⟩, rfl⟩
  | pay id amount payMethod note pid =>
    obtain ⟨p, _, _, ⟨_, rfl⟩ | ⟨_, _, i, profile, _, rfl⟩⟩ := payPurchase_eq_ok.1 h
    · exact ⟨⟨sameProfiles_of_eq rfl, rfl, rfl⟩, rfl⟩
    · exact ⟨⟨hpayable i _ _ rfl, rfl, rfl⟩, rfl⟩

/-- A write of one lane does not change what a request of the other plans. -/
theorem plan_of_other_lane {r r' : Request} (hlane : lane r' ≠ lane r)
    (h : plan r' s = .ok write) (t : Db) : plan r (write t) = plan r t := by
  refine plan_congr r ?_
  cases hr : lane r with
  | khata =>
    have hr' : lane r' = .supplier := by
      cases hr' : lane r' with
      | khata => exact absurd (hr'.trans hr.symm) hlane
      | supplier => rfl
    exact (khata_reads_supplier hr' h t).1
  | supplier =>
    cases r' with
    | khata r' => exact supplier_reads_khata h t
    | accept id v => exact absurd hr.symm hlane
    | pay id amount payMethod note pid => exact absurd hr.symm hlane

end Writes

/-! ## Requests that overlap -/

/-- The condition under which a request on the udhaar of shop `u` is recorded exactly. -/
def Exact (u : ℕ) (db : Db) : Request → Prop
  | .khata r => Credit.Exact u db (.request r)
  | _ => True

/-- Some order of the committed requests, served one after another, leaves the balances and
the stock that they left. -/
def Serializable {ι : Type} (request : ι → Request) (db : Db) (c : Conf Db ι) : Prop :=
  ∃ order : List ι, order.Perm c.committed ∧ ∀ u y,
    balanceOf c.db u = balanceOf (run (call plan) db (order.map request)) u ∧
    payableOf c.db u = payableOf (run (call plan) db (order.map request)) u ∧
    stockOf c.db y = stockOf (run (call plan) db (order.map request)) y

/-- No update is lost: the database is the one that the committed requests leave in the
order of their commits, goods have moved once for each purchase order that arrived, and
a shop's ledger replays to its balance as it does then. -/
structure NoLostUpdate {ι : Type} (request : ι → Request) (db : Db) (c : Conf Db ι) : Prop where
  serial : c.db = run (call plan) db (c.committed.map request)
  goods : Conserves db c.db
  ledger : ∀ u, WholePaise u db → Replays u db →
    Stepwise (call plan) (Exact u) db (c.committed.map request) → Replays u c.db

theorem NoLostUpdate.serializable {ι : Type} {request : ι → Request} {db : Db} {c : Conf Db ι}
    (h : NoLostUpdate request db c) : Serializable request db c := by
  refine ⟨c.committed, List.Perm.refl _, fun u y => ?_⟩
  rw [← h.serial]
  exact ⟨rfl, rfl, rfl⟩

section Serial

variable (db : Db)

theorem conserves_call (r : Request) : Conserves db (call plan db r) := by
  rcases call_cases plan db r with ⟨e, _, hcall⟩ | ⟨write, hwrite, hcall⟩
  · rw [hcall]
    exact Conserves.refl db
  rw [hcall]
  cases r with
  | khata r =>
    obtain ⟨_, _, hproducts, hpurchases⟩ := supplier_reads_khata hwrite db
    have hmovements : (write db).movements = db.movements := by
      cases r with
      | debit v amount orderId note createdBy =>
        obtain ⟨i, p, _, _, rfl⟩ := debitCredit_eq_ok.1 hwrite
        rfl
      | collect v amount note method createdBy paymentId =>
        obtain ⟨i, p, _, _, rfl⟩ := creditPayment_eq_ok.1 hwrite
        exact (foldl_writeApplied_rest _ db).2.2.2
    refine conserves_of_same hproducts hmovements fun y k => ?_
    rw [hpurchases]
    exact ⟨rfl, rfl⟩
  | accept id v =>
    have hplan : Purchase.plan Payment.plainEnv (.accept id v) db = .ok write := hwrite
    exact (change_of_plan hplan).conserves
  | pay id amount payMethod note pid => exact (change_pay hwrite).conserves

theorem conserves_run (rs : List Request) : Conserves db (run (call plan) db rs) := by
  induction rs generalizing db with
  | nil => exact Conserves.refl db
  | cons r rs ih => exact (conserves_call db r).trans (ih (call plan db r))

/-- Over requests served one after another, the ledger replays as long as they are exact. -/
theorem replays_call {u : ℕ} (hw : WholePaise u db) (h : Replays u db) {r : Request}
    (he : Exact u db r) : WholePaise u (call plan db r) ∧ Replays u (call plan db r) := by
  have hother : lane r = .supplier →
      WholePaise u (call plan db r) ∧ Replays u (call plan db r) := by
    intro hr
    rcases call_cases plan db r with ⟨e, _, hcall⟩ | ⟨write, hwrite, hcall⟩
    · rw [hcall]
      exact ⟨hw, h⟩
    obtain ⟨⟨hprofiles, _⟩, hledger⟩ := khata_reads_supplier hr hwrite db
    have hbalance : balanceOf (write db) u = balanceOf db u := by
      have hview := congrArg (Option.map fun r => r.2.2.2.2) (hprofiles u)
      rw [Option.map_map, Option.map_map] at hview
      exact hview
    have hrows : rowsOf (write db) u = rowsOf db u := by rw [rowsOf, rowsOf, hledger]
    rw [hcall]
    refine ⟨?_, (replays_congr hbalance hrows).2 h⟩
    intro b hb
    exact hw b (hbalance ▸ hb)
  cases r with
  | khata r => exact ⟨wholePaise_act hw (.request r), (replays_act_iff hw h (.request r)).2 he⟩
  | accept id v => exact hother rfl
  | pay id amount payMethod note pid => exact hother rfl

end Serial

/-- When no request of a lane commits between another's read and its commit, no update is
lost. -/
theorem serial_of_undisturbed {ι : Type} [DecidableEq ι] (request : ι → Request) (db : Db)
    (es : List (Event ι))
    (hes : Stepwise (advance plan lane request) Undisturbed (Conf.start db) es) :
    NoLostUpdate request db (run (advance plan lane request) (Conf.start db) es) := by
  have hserial := db_eq_serial (fun i j s write hlane hwrite t =>
    plan_of_other_lane hlane hwrite t) db es hes
  refine ⟨hserial, ?_, ?_⟩
  · rw [hserial]
    exact conserves_run db _
  · intro u hw h hexact
    rw [hserial]
    have hboth : Throughout (call plan) (fun s => WholePaise u s ∧ Replays u s) db _ :=
      throughout_of_stepwise (fun s r hs he => replays_call s hs.1 hs.2 he) ⟨hw, h⟩ hexact
    exact hboth.final.2

/-! ## Two collections that overlap -/

/-- A shop, user 1, that owes ₹100 and has a purchase order pending. -/
def busyDb : Db :=
  { Db.empty with
    users := .ofList [{ (default : User) with role := .retailer }]
    profiles := .ofList
      [{ (default : RetailerProfile) with userId := 1, outstandingBalance := 100 }]
    products := .ofList [{ (default : Product) with stockQty := 5 }]
    purchases := .ofList
      [{ (default : SupplierPurchase) with
          supplierUserId := 1, productId := 1, qty := 10, unitCost := 10, total := 100 }] }

/-- A collection of ₹40 from the shop. -/
def collectForty : Request := .khata (.collect 1 40 none (some "cash") none none)

/-- A collection, and the acceptance of the purchase order. -/
def collectOrAccept (collect : Bool) : Request := if collect then collectForty else .accept 1 1

/-- A collection and an acceptance may overlap. -/
theorem busyDb_noLostUpdate :
    NoLostUpdate collectOrAccept busyDb
      (run (advance plan lane collectOrAccept) (Conf.start busyDb)
        [.read true, .read false, .commit false, .commit true]) := by
  refine serial_of_undisturbed collectOrAccept busyDb _ ?_
  refine stepwise_cons.2 ⟨trivial, stepwise_cons.2 ⟨trivial, stepwise_cons.2 ⟨?_,
    stepwise_cons.2 ⟨?_, stepwise_nil _ _⟩⟩⟩⟩
  · decide +kernel
  · decide +kernel

/-- Of two collections of ₹40 that overlap, one is lost: the shop still owes ₹60. -/
theorem busyDb_not_serializable :
    ¬ Serializable (fun _ : ℕ => collectForty) busyDb
      (run (advance plan lane fun _ : ℕ => collectForty) (Conf.start busyDb)
        [.read 0, .read 1, .commit 0, .commit 1]) := by
  rintro ⟨order, hperm, hsame⟩
  have hcommitted : (run (advance plan lane fun _ : ℕ => collectForty) (Conf.start busyDb)
      [.read 0, .read 1, .commit 0, .commit 1]).committed.length = 2 := by decide +kernel
  have horder : order.map (fun _ => collectForty) = [collectForty, collectForty] := by
    rw [List.map_const', hperm.length_eq, hcommitted]
    rfl
  have hbalance := (hsame 1 1).1
  rw [horder] at hbalance
  revert hbalance
  decide +kernel

end Races

end SweetCrust
