import SweetCrust.Data.Rows
import SweetCrust.Lib.Decimal
import SweetCrust.Lib.Guard
import SweetCrust.Lib.Text

/-!
# The shop's udhaar: `credit.py`

`debit_credit` books an order on credit and `credit_payment` a collection.  Each
reads the shop's profile (a collection also the shop's unpaid orders), works out new
values, and commits them together with a ledger row; nothing is locked in between.
So each is a function from the database it reads to the write it commits, and the
write holds the values that were worked out, not the way they were.

The amounts of a collection are floats, and `fl` is what an operation on them does to its exact
result: the nearest float, or nothing where the amounts are taken to be exact.

The product invoices that a collection issues afterwards are transactions of their
own and are not part of the collection's write.
-/

namespace SweetCrust

open Tabular Guard Rounding Decimal Text

namespace Credit

/-- `get_profile`: the shop's profile, with its key. -/
def getProfile (db : Db) (userId : ℕ) : Except AppError (ℕ × RetailerProfile) :=
  orRaise (profileOf db userId) (.notFound "Shop profile not found")

/-- `₹` and an amount without paise. -/
def rupees (amount : ℚ) : String := "₹" ++ String.ofList (fixed0 amount)

/-- The profile with another balance. -/
def setBalance (balance : ℚ) (p : RetailerProfile) : RetailerProfile :=
  { p with outstandingBalance := balance }

/-- Set the balance of the profile under key `i` and append the ledger row. -/
def postEntry (i : ℕ) (entry : CreditLedgerEntry) (db : Db) : Db :=
  { db with
    profiles := db.profiles.modify i (setBalance entry.balanceAfter)
    ledger := db.ledger.insert entry }

/-- The ledger row of an order on credit. -/
def debitEntry (userId : ℕ) (amount : ℚ) (orderId : Option ℕ) (note : Option String)
    (createdBy : Option ℕ) (projected : ℚ) : CreditLedgerEntry where
  retailerUserId := userId
  entryType := .debit
  amount := round2 amount
  balanceAfter := projected
  orderId := orderId
  paymentId := none
  note := some ((truthy note).getD "B2B credit order")
  createdBy := some ((createdBy.filter fun u => u ≠ 0).getD userId)

/-- `debit_credit`: an order on credit. -/
def debitCredit (userId : ℕ) (amount : ℚ) (orderId : Option ℕ) (note : Option String)
    (createdBy : Option ℕ) (db : Db) : Plan := do
  raiseIf (amount ≤ 0) (.badRequest "Debit amount must be positive")
  let (i, profile) ← getProfile db userId
  raiseIf (profile.isBlocked = true) (.forbidden "Shop is blocked")
  raiseIf (profile.creditAllowed = false) (.badRequest "Credit not allowed for this shop")
  let projected := round2 (profile.outstandingBalance + amount)
  raiseIf (profile.creditLimit < projected)
    (.badRequest ("Order " ++ rupees amount ++ " would exceed credit limit (outstanding " ++
      rupees profile.outstandingBalance ++ " / limit " ++ rupees profile.creditLimit ++ ")"))
  return postEntry i (debitEntry userId amount orderId note createdBy projected)

/-! ## Spreading a collection over the unpaid orders -/

/-- What a collection changes on one order: its paid amount and payment status, and
the payment row that gets the same. -/
structure Applied where
  orderId : ℕ
  paidAmount : ℚ
  paymentStatus : PaymentStatus
  paymentId : Option ℕ

/-- The shop's orders that a collection may be applied to, oldest first. -/
def openOrders (db : Db) (userId : ℕ) : List (ℕ × Order) :=
  (db.orders.select fun o => o.userId = userId ∧ o.orderType = OrderType.b2bShopOrder.value ∧
    o.paymentStatus ∈ [PaymentStatus.pending, .partiallyPaid, .processing]).insertionSort
      fun a b => a.2.createdAt ≤ b.2.createdAt

/-- The loop of `_allocate_collection_to_orders`: `remaining` is what is left to apply.  Every
operation on amounts rounds its result by `fl`. -/
def allocateFromIn (fl : ℚ → ℚ) (db : Db) (remaining : ℚ) : List (ℕ × Order) → List Applied
  | [] => []
  | (orderId, order) :: rest =>
    if fl remaining ≤ fl (1 / 1000) then []
    else
      let total := round2 (fl order.finalAmount)
      let already := round2 (fl order.paidAmount)
      let due := round2 (fl (fl total - fl already))
      if fl due ≤ fl (1 / 1000) then allocateFromIn fl db remaining rest
      else
        let applied := round2 (min (fl remaining) (fl due))
        let paid := round2 (fl (fl already + fl applied))
        { orderId
          paidAmount := paid
          paymentStatus :=
            if fl total ≤ fl (fl paid + fl (1 / 1000)) then .paid else .partiallyPaid
          paymentId := (latestPayment db orderId).map Prod.fst } ::
          allocateFromIn fl db (round2 (fl (fl remaining - fl applied))) rest

/-- `_allocate_collection_to_orders`. -/
def allocateCollectionToOrdersIn (fl : ℚ → ℚ) (db : Db) (userId : ℕ) (amount : ℚ) :
    List Applied :=
  allocateFromIn fl db (round2 (fl amount)) (openOrders db userId)

/-- The loop on exact amounts. -/
def allocateFrom (db : Db) (remaining : ℚ) (rows : List (ℕ × Order)) : List Applied :=
  allocateFromIn id db remaining rows

/-- `_allocate_collection_to_orders` on exact amounts. -/
def allocateCollectionToOrders (db : Db) (userId : ℕ) (amount : ℚ) : List Applied :=
  allocateFrom db (round2 amount) (openOrders db userId)

/-- Write what a collection changes on one order. -/
def writeApplied (db : Db) (a : Applied) : Db :=
  { db with
    orders := db.orders.modify a.orderId fun o =>
      { o with paidAmount := a.paidAmount, paymentStatus := a.paymentStatus }
    payments :=
      match a.paymentId with
      | none => db.payments
      | some p => db.payments.modify p fun pay =>
          { pay with amount := a.paidAmount, status := a.paymentStatus } }

/-- The note of a collection that comes without one. -/
def collectionLabel (method : Option String) (allocated : List Applied) : String :=
  let label := match truthy method with
    | some m => "Collection (" ++ m ++ ")"
    | none => "Collection"
  if allocated = [] then label
  else label ++ " · orders " ++
    ",".intercalate (allocated.map fun a => String.ofList (natText a.orderId))

/-- The ledger row of a collection. -/
def collectEntry (userId : ℕ) (pay newBal : ℚ) (note method : Option String)
    (createdBy paymentId : Option ℕ) (allocated : List Applied) : CreditLedgerEntry where
  retailerUserId := userId
  entryType := .credit
  amount := pay
  balanceAfter := newBal
  orderId := none
  paymentId := paymentId
  note := some ((truthy note).getD (collectionLabel method allocated))
  createdBy := createdBy

/-- The guard of `credit_payment`: more than is owed, and a paisa. -/
def Exceeds (fl : ℚ → ℚ) (owed pay : ℚ) : Prop := fl (fl owed + fl (1 / 100)) < fl pay

instance (fl : ℚ → ℚ) (owed pay : ℚ) : Decidable (Exceeds fl owed pay) :=
  inferInstanceAs (Decidable (_ < _))

/-- `credit_payment`: a collection from the shop. -/
def creditPaymentIn (fl : ℚ → ℚ) (userId : ℕ) (amount : ℚ) (note method : Option String)
    (createdBy paymentId : Option ℕ) (db : Db) : Plan := do
  raiseIf (fl amount ≤ 0) (.badRequest "Collection amount must be positive")
  let (i, profile) ← getProfile db userId
  let owed := round2 (fl profile.outstandingBalance)
  let pay := round2 (fl amount)
  raiseIf (Exceeds fl owed pay)
    (.badRequest ("Amount " ++ rupees pay ++ " exceeds receivable " ++ rupees owed))
  let newBal := round2 (max 0 (fl (fl owed - fl pay)))
  let allocated := allocateCollectionToOrdersIn fl db userId pay
  let entry := collectEntry userId pay newBal note method createdBy paymentId allocated
  return fun db => postEntry i entry (allocated.foldl writeApplied db)

/-- `credit_payment` on exact amounts. -/
def creditPayment (userId : ℕ) (amount : ℚ) (note method : Option String)
    (createdBy paymentId : Option ℕ) (db : Db) : Plan :=
  creditPaymentIn id userId amount note method createdBy paymentId db

/-! ## What the requests commit -/

/-- The guards of `debit_credit`. -/
def DebitAccepted (profile : RetailerProfile) (amount : ℚ) : Prop :=
  0 < amount ∧ profile.isBlocked = false ∧ profile.creditAllowed = true ∧
    round2 (profile.outstandingBalance + amount) ≤ profile.creditLimit

/-- The guards of `credit_payment`. -/
def CollectAccepted (profile : RetailerProfile) (amount : ℚ) : Prop :=
  0 < amount ∧ round2 amount ≤ round2 profile.outstandingBalance + 1 / 100

section Specs

variable {db : Db} {userId : ℕ} {amount : ℚ} {orderId createdBy paymentId : Option ℕ}
  {note method : Option String} {write : Db → Db}

/-- A debit goes through exactly when it is accepted, and books the rounded amount with
the rounded new balance. -/
theorem debitCredit_eq_ok :
    debitCredit userId amount orderId note createdBy db = .ok write ↔
      ∃ i profile, profileOf db userId = some (i, profile) ∧ DebitAccepted profile amount ∧
        postEntry i (debitEntry userId amount orderId note createdBy
          (round2 (profile.outstandingBalance + amount))) = write := by
  unfold debitCredit getProfile
  rw [raiseIf_bind_eq_ok, orRaise_bind_eq_ok]
  simp only [raiseIf_bind_eq_ok, pure_eq_ok]
  constructor
  · rintro ⟨hpos, ⟨i, profile⟩, hprofile, hblocked, hallowed, hlimit, hwrite⟩
    exact ⟨i, profile, hprofile, ⟨not_le.1 hpos, by simpa using hblocked, by simpa using hallowed,
      not_lt.1 hlimit⟩, hwrite⟩
  · rintro ⟨i, profile, hprofile, ⟨hpos, hblocked, hallowed, hlimit⟩, hwrite⟩
    exact ⟨not_le.2 hpos, (i, profile), hprofile, by simp [hblocked], by simp [hallowed],
      not_lt.2 hlimit, hwrite⟩

theorem allocateFrom_nil {remaining : ℚ} : allocateFrom db remaining [] = [] := rfl

/-- One round of the loop on exact amounts. -/
theorem allocateFrom_cons {remaining : ℚ} {order : Order} {key : ℕ} {rest : List (ℕ × Order)} :
    allocateFrom db remaining ((key, order) :: rest) =
      if remaining ≤ 1 / 1000 then []
      else
        let total := round2 order.finalAmount
        let already := round2 order.paidAmount
        let due := round2 (total - already)
        if due ≤ 1 / 1000 then allocateFrom db remaining rest
        else
          let applied := round2 (min remaining due)
          let paid := round2 (already + applied)
          { orderId := key
            paidAmount := paid
            paymentStatus := if total ≤ paid + 1 / 1000 then .paid else .partiallyPaid
            paymentId := (latestPayment db key).map Prod.fst } ::
            allocateFrom db (round2 (remaining - applied)) rest := rfl

/-- A collection goes through exactly when it is accepted, and books the rounded amount
with the balance it leaves, which is not below zero. -/
theorem creditPaymentIn_eq_ok {fl : ℚ → ℚ} :
    creditPaymentIn fl userId amount note method createdBy paymentId db = .ok write ↔
      ∃ i profile, profileOf db userId = some (i, profile) ∧
        (0 < fl amount ∧ ¬ Exceeds fl (round2 (fl profile.outstandingBalance))
          (round2 (fl amount))) ∧
        (fun t => postEntry i (collectEntry userId (round2 (fl amount))
            (round2 (max 0 (fl (fl (round2 (fl profile.outstandingBalance)) -
              fl (round2 (fl amount)))))) note method createdBy paymentId
            (allocateCollectionToOrdersIn fl db userId (round2 (fl amount))))
          ((allocateCollectionToOrdersIn fl db userId (round2 (fl amount))).foldl
            writeApplied t)) = write := by
  unfold creditPaymentIn getProfile
  rw [raiseIf_bind_eq_ok, orRaise_bind_eq_ok]
  simp only [raiseIf_bind_eq_ok, pure_eq_ok]
  constructor
  · rintro ⟨hpos, ⟨i, profile⟩, hprofile, howed, hwrite⟩
    exact ⟨i, profile, hprofile, ⟨not_le.1 hpos, howed⟩, hwrite⟩
  · rintro ⟨i, profile, hprofile, ⟨hpos, howed⟩, hwrite⟩
    exact ⟨not_le.2 hpos, (i, profile), hprofile, howed, hwrite⟩

theorem collectAccepted_iff {profile : RetailerProfile} : CollectAccepted profile amount ↔
    0 < amount ∧ ¬ Exceeds id (round2 profile.outstandingBalance) (round2 amount) := by
  rw [CollectAccepted, Exceeds, not_lt]
  rfl

/-- The same on exact amounts. -/
theorem creditPayment_eq_ok :
    creditPayment userId amount note method createdBy paymentId db = .ok write ↔
      ∃ i profile, profileOf db userId = some (i, profile) ∧ CollectAccepted profile amount ∧
        (fun t => postEntry i (collectEntry userId (round2 amount)
            (round2 (max 0 (round2 profile.outstandingBalance - round2 amount))) note method
            createdBy paymentId (allocateCollectionToOrders db userId (round2 amount)))
          ((allocateCollectionToOrders db userId (round2 amount)).foldl writeApplied t)) =
            write := by
  simp only [collectAccepted_iff]
  exact creditPaymentIn_eq_ok

/-- Spreading a collection touches neither profiles nor the ledger. -/
theorem foldl_writeApplied (l : List Applied) (db : Db) :
    (l.foldl writeApplied db).profiles = db.profiles ∧
      (l.foldl writeApplied db).ledger = db.ledger := by
  induction l generalizing db with
  | nil => exact ⟨rfl, rfl⟩
  | cons a l ih => exact ih (writeApplied db a)

end Specs

end Credit

end SweetCrust
