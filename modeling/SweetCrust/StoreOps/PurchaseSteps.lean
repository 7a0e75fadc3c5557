import SweetCrust.Lib.Interleave
import SweetCrust.StoreOps.Purchases

/-!
# Purchase orders, request by request

The requests on purchase orders served one after another, and what one of them can do to
the database.

* `Request`, `plan`, `step` — the requests, and the database after one of them.
* `Change` — the changes a request can make, with what its guards have checked.
* `change_step` — every request makes one of these changes.
-/

namespace SweetCrust

open Tabular Guard Rounding PayRules Interleave

namespace Purchase

/-- A request on purchase orders. -/
inductive Request
  | create (supplierUserId productId : ℕ) (qty : ℤ) (unitCost : ℚ) (note : Option String)
      (createdBy : Option ℕ) (markPaid : Bool) (payMethod : Option String) (instantReceive : Bool)
  | accept (purchaseId supplierUserId : ℕ)
  | reject (purchaseId supplierUserId : ℕ)
  | pay (purchaseId : ℕ) (amount : Option ℚ) (payMethod : String)
      (note razorpayPaymentId : Option String)
  | createPay (gateway : Integrations.Gateway) (purchaseId : ℕ) (amount : Option ℚ) (now : ℕ)
  | verify (purchaseId : ℕ) (razorpayOrderId razorpayPaymentId razorpaySignature : String)
      (amount : Option ℚ)

/-- What a request plans to commit. -/
def plan (env : Payment.Env) : Request → Db → Plan
  | .create v y qty unitCost note createdBy markPaid payMethod instantReceive =>
    createPurchase v y qty unitCost note createdBy markPaid payMethod instantReceive
  | .accept id v => acceptPurchase id v
  | .reject id v => rejectPurchase id v
  | .pay id amount payMethod note pid => payPurchase id amount payMethod note pid
  | .createPay gateway id amount now => createRazorpayPay env gateway id amount now
  | .verify id roid pid signature amount => verifyRazorpayPay env id roid pid signature amount

/-- The database after a request. -/
def step (env : Payment.Env) : Db → Request → Db := call (plan env)

/-- The database with one more purchase order. -/
def addPurchase (p : SupplierPurchase) (db : Db) : Db :=
  { db with purchases := db.purchases.insert p }

/-- The database with the purchase order under key `id` rewritten. -/
def rewrite (id : ℕ) (f : SupplierPurchase → SupplierPurchase) (db : Db) : Db :=
  { db with purchases := db.purchases.modify id f }

/-- A purchase order that has just been opened. -/
structure IsNew (p : SupplierPurchase) : Prop where
  pending : p.status = .pending
  unpaid : p.paidAmount = 0
  total : p.total = round2 (p.unitCost * p.qty)
  qty : 0 < p.qty
  cost : 0 ≤ p.unitCost

/-- The changes that one request can make. -/
inductive Change (db : Db) : Db → Prop
  /-- A refused request, or a gateway payment that the note already names. -/
  | idle : Change db db
  | opened (p : SupplierPurchase) (new : IsNew p) : Change db (addPurchase p db)
  /-- Goods bought and received at once. -/
  | bought (p : SupplierPurchase) (product : Product) (i : ℕ) (profile : RetailerProfile)
      (createdBy : Option ℕ) (markPaid : Bool) (payMethod : Option String) (new : IsNew p)
      (stocked : db.products.get? p.productId = some product)
      (supplier : Supplies db p.supplierUserId i profile) :
      Change db (receiveGoods p product i profile createdBy markPaid
        (addPurchase (receivedRow markPaid p.total payMethod p) db))
  | received (id : ℕ) (p : SupplierPurchase) (product : Product) (i : ℕ)
      (profile : RetailerProfile) (createdBy : Option ℕ)
      (found : db.purchases.get? id = some p) (pending : p.status = .pending)
      (stocked : db.products.get? p.productId = some product)
      (supplier : Supplies db p.supplierUserId i profile) :
      Change db (receiveGoods p product i profile createdBy false
        (rewrite id (receivedRow false p.total none) db))
  | rejected (id : ℕ) (p : SupplierPurchase) (found : db.purchases.get? id = some p)
      (pending : p.status = .pending) : Change db (rewrite id rejectedRow db)
  | paid (id : ℕ) (p : SupplierPurchase) (i : ℕ) (profile : RetailerProfile) (pay : ℚ)
      (method : String) (note pid : Option String) (found : db.purchases.get? id = some p)
      (isOpen : IsOpen p) (cents : IsCents pay)
      (rules : assertFirstOrPartialPay p.total p.paidAmount pay = .ok ())
      (supplier : Supplies db p.supplierUserId i profile) :
      Change db (settle id p i profile pay method note pid db)
  | noted (id : ℕ) (p : SupplierPurchase) (note : String)
      (found : db.purchases.get? id = some p) (isOpen : IsOpen p) :
      Change db (rewrite id (notedRow note) db)

section Steps

variable {env : Payment.Env} {db : Db} {write : Db → Db}

/-- What a payment that is served changes. -/
theorem change_pay {id : ℕ} {amount : Option ℚ} {payMethod : String} {note pid : Option String}
    (h : payPurchase id amount payMethod note pid db = .ok write) : Change db (write db) := by
  obtain ⟨p, hp, hopen, ⟨_, rfl⟩ | ⟨_, hguards, i, profile, hs, rfl⟩⟩ := payPurchase_eq_ok.1 h
  · exact .idle
  · exact .paid id p i profile _ _ note pid hp hopen (isCents_round2 _) hguards.rules hs

/-- What a planned write changes. -/
theorem change_of_plan {r : Request} (h : plan env r db = .ok write) : Change db (write db) := by
  cases r with
  | create v y qty unitCost note createdBy markPaid payMethod instantReceive =>
    obtain ⟨hqty, hcost, i, profile, product, hs, _, hproduct, rfl⟩ := createPurchase_eq_ok.1 h
    have hnew : IsNew (newPurchase v y product qty unitCost note createdBy) :=
      ⟨rfl, rfl, rfl, hqty, hcost⟩
    cases instantReceive || markPaid with
    | true => exact .bought _ product i profile createdBy markPaid _ hnew hproduct hs
    | false => exact .opened _ hnew
  | accept id v =>
    obtain ⟨p, hp, rfl, hpending, i, profile, product, hs, hproduct, rfl⟩ :=
      acceptPurchase_eq_ok.1 h
    exact .received id p product i profile _ hp hpending hproduct hs
  | reject id v =>
    obtain ⟨p, hp, _, hpending, rfl⟩ := rejectPurchase_eq_ok.1 h
    exact .rejected id p hp hpending
  | pay id amount payMethod note pid => exact change_pay h
  | createPay gateway id amount now =>
    obtain ⟨p, pay, profile, rz, hquote, _, rfl⟩ := createRazorpayPay_eq_ok h
    obtain ⟨hp, hopen, _⟩ := razorpayQuote_eq_ok hquote
    exact .noted id p _ hp hopen
  | verify id roid pid signature amount =>
    obtain ⟨p, hp, ⟨_, rfl⟩ | ⟨_, _, hpay⟩⟩ := verifyRazorpayPay_eq_ok.1 h
    · exact .idle
    · exact change_pay hpay

/-- Every request makes one of the changes. -/
theorem change_step (env : Payment.Env) (db : Db) (r : Request) :
    Change db (step env db r) := by
  rcases call_cases (plan env) db r with ⟨e, _, hcall⟩ | ⟨write, hwrite, hcall⟩
  · rw [step, hcall]
    exact .idle
  · rw [step, hcall]
    exact change_of_plan hwrite

end Steps

/-! ## The writes, table by table -/

section Tables

variable {p : SupplierPurchase} {product : Product} {i id : ℕ} {profile : RetailerProfile}
  {createdBy : Option ℕ} {markPaid : Bool} {pay : ℚ} {method : String} {note pid : Option String}
  {f : SupplierPurchase → SupplierPurchase} {db : Db}

@[simp] theorem receiveGoods_purchases :
    (receiveGoods p product i profile createdBy markPaid db).purchases = db.purchases := by
  cases markPaid <;> rfl

@[simp] theorem receiveGoods_products :
    (receiveGoods p product i profile createdBy markPaid db).products =
      db.products.modify p.productId (stockAfterReceipt product p.qty p.unitCost).apply := by
  cases markPaid <;> rfl

@[simp] theorem receiveGoods_movements :
    (receiveGoods p product i profile createdBy markPaid db).movements =
      db.movements.insert (receiptMovement p profile.shopName createdBy) := by
  cases markPaid <;> rfl

@[simp] theorem receiveGoods_profiles :
    (receiveGoods p product i profile createdBy markPaid db).profiles =
      if markPaid then db.profiles
      else db.profiles.modify i (setPayable (round2 (profile.payableBalance + p.total))) := by
  cases markPaid <;> rfl

@[simp] theorem addPurchase_purchases : (addPurchase p db).purchases = db.purchases.insert p := rfl

@[simp] theorem rewrite_purchases : (rewrite id f db).purchases = db.purchases.modify id f := rfl

@[simp] theorem settle_purchases :
    (settle id p i profile pay method note pid db).purchases =
      db.purchases.modify id (settledRow (round2 (p.paidAmount + pay)) method
        (paidStatus p.total (round2 (p.paidAmount + pay)))
        (paidNote (noteText p) pay (noteBits note pid))) := rfl

@[simp] theorem settle_profiles :
    (settle id p i profile pay method note pid db).profiles =
      db.profiles.modify i (setPayable (max 0 (round2 (profile.payableBalance - pay)))) := rfl

end Tables

end Purchase

end SweetCrust
