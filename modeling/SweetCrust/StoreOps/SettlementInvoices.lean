import SweetCrust.Lib.Runs
import SweetCrust.StoreOps.Invoices
import SweetCrust.StoreOps.PurchaseSteps

/-!
# Does every payment to a supplier get its own invoice?

A payment is applied in one transaction, and its invoice is issued in another one, whose
failure is swallowed.  The invoice is looked up by its reference first, so a payment whose
reference is that of an earlier one gets none.

* `Ledger` — the database, with the payments that were applied.
* `invoiced_iff` — the invoices are those of the payments, one for one, and add up to what was
  paid on each purchase order, exactly if every payment has a reference of its own and its
  invoice is stored.
* `rest_uninvoiced` — the rest of a purchase order that is paid in two equal parts.
-/

namespace SweetCrust

open Tabular Guard Rounding Text Runs Interleave

namespace SupplierInvoices

open Purchase Invoices

/-! ## The calls -/

/-- A payment of a purchase order of a known supplier. -/
def settlement (db : Db) (purchaseId : ℕ) (purchase : SupplierPurchase) (payAmount : ℚ)
    (payMethod : String) (transactionId : Option String) : Option Settlement :=
  match shop db purchase.supplierUserId with
  | .ok (supplier, _, profile) =>
    some { purchaseId, purchase, supplier, profile, payAmount, payMethod, transactionId }
  | .error _ => none

/-- The payment that `pay_purchase` applies, unless the note names it already. -/
def paySettlement (db : Db) (purchaseId : ℕ) (amount : Option ℚ) (payMethod : String)
    (razorpayPaymentId : Option String) : Option Settlement :=
  (db.purchases.get? purchaseId).bind fun purchase =>
    if AlreadyApplied purchase razorpayPaymentId then none
    else settlement db purchaseId purchase (round2 (amount.getD (due purchase)))
      (payMethodOf payMethod) razorpayPaymentId

/-- The payment that a request applies when it goes through. -/
def settlementOf (db : Db) : Request → Option Settlement
  | .create v y qty unitCost note createdBy markPaid payMethod _ =>
    (db.products.get? y).bind fun product =>
      let purchase := newPurchase v y product qty unitCost note createdBy
      if markPaid then
        settlement db db.purchases.next purchase purchase.total ((truthy payMethod).getD "cash") none
      else none
  | .pay id amount payMethod _ pid => paySettlement db id amount payMethod pid
  | .verify id roid pid _ amount =>
    (db.purchases.get? id).bind fun purchase =>
      paySettlement db id (amount.or (pendingAmount purchase roid)) "razorpay" (some pid)
  | _ => none

/-- A payment that was applied: of which purchase order, how much, and its reference. -/
structure Applied where
  purchaseId : ℕ
  amount : ℚ
  ref : String
  deriving DecidableEq

/-- The database, with the payments that were applied, in order. -/
structure Ledger where
  db : Db
  applied : List Applied

/-- A request, and whether the invoice that it issues is stored. -/
structure Call where
  request : Request
  stored : Bool

/-- A request commits what it planned, and then issues the invoice of its payment. -/
def Ledger.step (env : Payment.Env) (b : Ledger) (c : Call) : Ledger :=
  match plan env c.request b.db with
  | .error _ => b
  | .ok write =>
    match settlementOf b.db c.request with
    | none => { b with db := write b.db }
    | some s =>
      { db := issueSupplierPayment s c.stored (write b.db)
        applied := b.applied ++ [⟨s.purchaseId, s.payAmount, s.ref⟩] }

/-! ## The law -/

/-- The settlement invoices, oldest first. -/
def settlementInvoices (db : Db) : List Invoice :=
  (db.invoices.select fun v => v.kind = "supplier_settlement").map Prod.snd

/-- What the settlement invoices of a purchase order add up to. -/
def invoicedTotal (db : Db) (id : ℕ) : ℚ :=
  (((settlementInvoices db).filter fun v => v.lineItems.purchaseId = some id).map
    Invoice.grandTotal).sum

/-- There is one settlement invoice for each payment, of its purchase order and over its
amount, and they add up to what was paid. -/
structure Ledger.Invoiced (b : Ledger) : Prop where
  each : (settlementInvoices b.db).map (fun v => (v.lineItems.purchaseId, v.grandTotal)) =
    b.applied.map fun a => (some a.purchaseId, a.amount)
  total : ∀ id p, b.db.purchases.get? id = some p → invoicedTotal b.db id = p.paidAmount

/-- A payment that a call applies has another reference than the payments before it, and its
invoice is stored. -/
def Own (env : Payment.Env) (b : Ledger) (c : Call) : Prop :=
  ∀ write s, plan env c.request b.db = .ok write → settlementOf b.db c.request = some s →
    s.ref ∉ b.applied.map Applied.ref ∧ c.stored = true

/-! ## What is paid -/

/-- What was paid on a purchase order. -/
def paidOn (db : Db) (id : ℕ) : ℚ := ((db.purchases.get? id).map SupplierPurchase.paidAmount).getD 0

section Paid

variable {env : Payment.Env} {db t : Db} {id k i : ℕ} {p : SupplierPurchase} {write : Db → Db}
  {f : SupplierPurchase → SupplierPurchase}

theorem paidOn_insert (h : t.purchases = db.purchases.insert p) (id : ℕ) :
    paidOn t id = paidOn db id + if db.purchases.next = id then p.paidAmount else 0 := by
  unfold paidOn
  rw [h, Table.get?_insert]
  by_cases hid : id = db.purchases.next
  · subst hid
    simp [Table.get?_next]
  · rw [if_neg hid, if_neg fun heq => hid heq.symm, add_zero]

theorem paidOn_modify (h : t.purchases = db.purchases.modify k f)
    (hp : db.purchases.get? k = some p) (amount : ℚ)
    (hf : (f p).paidAmount = p.paidAmount + amount) (id : ℕ) :
    paidOn t id = paidOn db id + if k = id then amount else 0 := by
  unfold paidOn
  rw [h, Table.get?_modify]
  by_cases hid : id = k
  · subst hid
    simp [hp, hf]
  · rw [if_neg hid, if_neg fun heq => hid heq.symm, add_zero]

/-- What a served request pays. -/
def pays (s : Option Settlement) (id : ℕ) : ℚ :=
  s.elim 0 fun s => if s.purchaseId = id then s.payAmount else 0

theorem settlement_of_supplies {profile : RetailerProfile}
    (hs : Supplies db p.supplierUserId i profile) (id : ℕ) (pay : ℚ) (method : String)
    (pid : Option String) :
    ∃ supplier, settlement db id p pay method pid =
      some ⟨id, p, supplier, profile, pay, method, pid⟩ := by
  obtain ⟨⟨user, huser, hrole⟩, hprofile⟩ := hs
  have hok : shop db p.supplierUserId = .ok (user, i, profile) := shop_eq_ok.2 ⟨huser, hrole, hprofile⟩
  refine ⟨user, ?_⟩
  unfold settlement
  rw [hok]

theorem paidOn_congr (h : t.purchases = db.purchases) (id : ℕ) : paidOn t id = paidOn db id := by
  unfold paidOn
  rw [h]

theorem isCents_paidAmount (hc : ∀ id, IsCents (paidOn db id))
    (hp : db.purchases.get? id = some p) :
    IsCents p.paidAmount := by
  have hid := hc id
  unfold paidOn at hid
  rwa [hp] at hid

/-- A payment that is served is applied to its purchase order, if the note does not name it. -/
theorem paidOn_pay {amount : Option ℚ} {method : String} {note pid : Option String}
    (hc : ∀ id, IsCents (paidOn db id)) (h : payPurchase k amount method note pid db = .ok write)
    (id : ℕ) :
    paidOn (write db) id = paidOn db id + pays (paySettlement db k amount method pid) id := by
  unfold paySettlement
  obtain ⟨p, hp, -, ⟨happlied, rfl⟩ | ⟨happlied, hguards, i, profile, hs, rfl⟩⟩ :=
    payPurchase_eq_ok.1 h
  · rw [hp, Option.bind_some, if_pos happlied]
    exact (add_zero _).symm
  · obtain ⟨supplier, hsettlement⟩ := settlement_of_supplies hs k
      (round2 (amount.getD (due p))) (payMethodOf method) pid
    rw [hp, Option.bind_some, if_neg happlied, hsettlement]
    refine paidOn_modify settle_purchases hp _ ?_ id
    exact round2_of_isCents ((isCents_paidAmount hc hp).add (isCents_round2 _))

theorem settlementOf_create {y : ℕ} {product : Product} (h : db.products.get? y = some product)
    (v : ℕ) (qty : ℤ) (unitCost : ℚ) (note : Option String) (createdBy : Option ℕ) (markPaid : Bool)
    (payMethod : Option String) (instantReceive : Bool) :
    settlementOf db (.create v y qty unitCost note createdBy markPaid payMethod instantReceive) =
      if markPaid then
        settlement db db.purchases.next (newPurchase v y product qty unitCost note createdBy)
          (round2 (unitCost * qty)) ((truthy payMethod).getD "cash") none
      else none := by
  show (db.products.get? y).bind _ = _
  rw [h]
  rfl

/-- What a served request pays is added to what was paid on the purchase order. -/
theorem paidOn_of_plan {r : Request} (hc : ∀ id, IsCents (paidOn db id))
    (h : plan env r db = .ok write) (id : ℕ) :
    paidOn (write db) id = paidOn db id + pays (settlementOf db r) id := by
  cases r with
  | create v y qty unitCost note createdBy markPaid payMethod instantReceive =>
    obtain ⟨-, -, i, profile, product, hs, -, hproduct, rfl⟩ := createPurchase_eq_ok.1 h
    obtain ⟨supplier, hsettlement⟩ := settlement_of_supplies
      (p := newPurchase v y product qty unitCost note createdBy) hs db.purchases.next
      (round2 (unitCost * qty)) ((truthy payMethod).getD "cash") none
    rw [settlementOf_create hproduct]
    cases markPaid with
    | true =>
      rw [if_pos rfl, hsettlement]
      simp only [Bool.or_true, if_true]
      exact paidOn_insert (p := receivedRow true _ _ _) receiveGoods_purchases id
    | false =>
      rw [if_neg Bool.false_ne_true]
      cases instantReceive with
      | true =>
        simp only [Bool.or_false, if_true]
        refine (paidOn_insert (p := receivedRow false _ _ _) receiveGoods_purchases id).trans ?_
        simp [receivedRow, newPurchase, pays]
      | false =>
        simp only [Bool.or_false, Bool.false_eq_true, if_false]
        refine (paidOn_insert rfl id).trans ?_
        simp [newPurchase, pays]
  | accept k v =>
    obtain ⟨p, hp, -, -, i, profile, product, -, -, rfl⟩ := acceptPurchase_eq_ok.1 h
    refine (paidOn_modify receiveGoods_purchases hp 0 ?_ id).trans ?_
    · exact (add_zero _).symm
    · simp [settlementOf, pays]
  | reject k v =>
    obtain ⟨p, hp, -, -, rfl⟩ := rejectPurchase_eq_ok.1 h
    refine (paidOn_modify rfl hp 0 ?_ id).trans ?_
    · exact (add_zero _).symm
    · simp [settlementOf, pays]
  | pay k amount payMethod note pid => exact paidOn_pay hc h id
  | createPay gateway k amount now =>
    obtain ⟨p, pay, profile, rz, hquote, -, rfl⟩ := createRazorpayPay_eq_ok h
    refine (paidOn_modify rfl (razorpayQuote_eq_ok hquote).1 0 ?_ id).trans ?_
    · exact (add_zero _).symm
    · simp [settlementOf, pays]
  | verify k roid pid signature amount =>
    obtain ⟨p, hp, hcase⟩ := verifyRazorpayPay_eq_ok.1 h
    have hverify : settlementOf db (.verify k roid pid signature amount) =
        paySettlement db k (amount.or (pendingAmount p roid)) "razorpay" (some pid) := by
      show (db.purchases.get? k).bind _ = _
      rw [hp]
      rfl
    rw [hverify]
    rcases hcase with ⟨happlied, rfl⟩ | ⟨-, -, hpay⟩
    · have hnone : paySettlement db k (amount.or (pendingAmount p roid)) "razorpay" (some pid) =
          none := by
        unfold paySettlement
        rw [hp, Option.bind_some, if_pos happlied]
      rw [hnone]
      exact (add_zero _).symm
    · exact paidOn_pay hc hpay id

theorem invoices_of_plan {r : Request} (h : plan env r db = .ok write) :
    (write db).invoices = db.invoices := by
  have hchange := change_of_plan h
  generalize write db = t at hchange
  cases hchange with
  | bought p product i profile createdBy markPaid => cases markPaid <;> rfl
  | idle | opened | received | rejected | paid | noted => rfl

end Paid

/-! ## What is issued -/

/-- What an invoice says of its payment. -/
def keyOf (v : Invoice) : Option ℕ × ℚ × Option String × Option String :=
  (v.lineItems.purchaseId, v.grandTotal, v.refType, v.refId)

def Applied.key (a : Applied) : Option ℕ × ℚ × Option String × Option String :=
  (some a.purchaseId, a.amount, some "supplier_purchase_pay", some a.ref)

section Issued

variable {env : Payment.Env} {db : Db} {s : Settlement} {stored : Bool} {ref : String}

theorem referredTo_eq_none :
    referredTo db "supplier_settlement" "supplier_purchase_pay" ref = none ↔
      ∀ v ∈ settlementInvoices db,
        ¬ (v.refType = some "supplier_purchase_pay" ∧ v.refId = some ref) := by
  have hrows : referredTo db "supplier_settlement" "supplier_purchase_pay" ref = none ↔
      ∀ r ∈ db.invoices.rows, ¬ (r.2.kind = "supplier_settlement" ∧
        r.2.refType = some "supplier_purchase_pay" ∧ r.2.refId = some ref) := by
    simp [referredTo, Table.first?, List.find?_eq_none]
  rw [hrows]
  constructor
  · intro hall v hv hand
    obtain ⟨r, hr, rfl⟩ := List.mem_map.1 hv
    obtain ⟨hmem, hkind⟩ := List.mem_filter.1 hr
    exact hall r hmem ⟨by simpa using hkind, hand⟩
  · intro hall r hr hand
    exact hall r.2 (List.mem_map.2 ⟨r, List.mem_filter.2 ⟨hr, by simpa using hand.1⟩, rfl⟩) hand.2

theorem settlementInvoices_issue (s : Settlement) (stored : Bool) (db : Db) :
    settlementInvoices (issueSupplierPayment s stored db) =
      settlementInvoices db ++
        if stored = true ∧
            referredTo db "supplier_settlement" "supplier_purchase_pay" s.ref = none then
          [invoiceRow db s.invoice]
        else [] := by
  unfold issueSupplierPayment issueInvoice
  rw [findExisting_invoice]
  cases hfound : referredTo db "supplier_settlement" "supplier_purchase_pay" s.ref with
  | some v => simp
  | none =>
    cases stored with
    | false => simp
    | true =>
      have hkind : (invoiceRow db s.invoice).kind = "supplier_settlement" := rfl
      simp [settlementInvoices, Table.select_insert, hkind]

theorem purchases_issue (s : Settlement) (stored : Bool) (db : Db) :
    (issueSupplierPayment s stored db).purchases = db.purchases := by
  unfold issueSupplierPayment issueInvoice
  split
  · rfl
  · split_ifs <;> rfl

theorem keyOf_invoiceRow (hc : IsCents s.payAmount) (db : Db) :
    keyOf (invoiceRow db s.invoice) = Applied.key ⟨s.purchaseId, s.payAmount, s.ref⟩ := by
  show (some s.purchaseId, round2 s.payAmount, _, _) = _
  rw [round2_of_isCents hc]
  rfl

theorem settlementInvoices_congr {t : Db} (h : t.invoices = db.invoices) :
    settlementInvoices t = settlementInvoices db := by
  unfold settlementInvoices
  rw [h]

theorem payAmount_settlement {p : SupplierPurchase} {id : ℕ} {pay : ℚ} {method : String}
    {pid : Option String} (h : settlement db id p pay method pid = some s) : s.payAmount = pay := by
  unfold settlement at h
  split at h
  · cases h
    rfl
  · cases h

theorem isCents_paySettlement {id : ℕ} {amount : Option ℚ} {method : String} {pid : Option String}
    (h : paySettlement db id amount method pid = some s) : IsCents s.payAmount := by
  obtain ⟨p, -, h⟩ := Option.bind_eq_some_iff.1 h
  split_ifs at h
  rw [payAmount_settlement h]
  exact isCents_round2 _

/-- Payments are in whole paise. -/
theorem isCents_settlementOf {r : Request} (h : settlementOf db r = some s) :
    IsCents s.payAmount := by
  cases r with
  | create v y qty unitCost note createdBy markPaid payMethod instantReceive =>
    obtain ⟨product, hproduct, -⟩ := Option.bind_eq_some_iff.1 h
    rw [settlementOf_create hproduct] at h
    split_ifs at h
    rw [payAmount_settlement h]
    exact isCents_round2 _
  | pay id amount payMethod note pid => exact isCents_paySettlement h
  | verify id roid pid signature amount =>
    obtain ⟨p, -, h⟩ := Option.bind_eq_some_iff.1 h
    exact isCents_paySettlement h
  | accept | reject | createPay => cases h

end Issued

/-! ## The ledger -/

/-- What was paid on a purchase order, by the payments applied. -/
def appliedTotal (applied : List Applied) (id : ℕ) : ℚ :=
  ((applied.filter fun a => a.purchaseId = id).map Applied.amount).sum

/-- What every call keeps: amounts are in whole paise, the payments applied are what was paid,
and every settlement invoice is that of one of them. -/
structure Ledger.Kept (b : Ledger) : Prop where
  cents : ∀ id, IsCents (paidOn b.db id)
  books : ∀ id, paidOn b.db id = appliedTotal b.applied id
  traced : ((settlementInvoices b.db).map keyOf).Sublist (b.applied.map Applied.key)

section Ledgers

variable {env : Payment.Env} {b : Ledger} {c : Call} {applied : List Applied}

theorem appliedTotal_concat (applied : List Applied) (a : Applied) (id : ℕ) :
    appliedTotal (applied ++ [a]) id =
      appliedTotal applied id + if a.purchaseId = id then a.amount else 0 := by
  unfold appliedTotal
  rw [List.filter_append, List.map_append, List.sum_append]
  by_cases hid : a.purchaseId = id <;> simp [hid]

/-- A call keeps the ledger. -/
theorem Ledger.kept_step (h : b.Kept) (c : Call) : (b.step env c).Kept := by
  unfold Ledger.step
  cases hplan : plan env c.request b.db with
  | error e => exact h
  | ok write =>
    have hpaid := paidOn_of_plan h.cents hplan
    have hinvoices := settlementInvoices_congr (invoices_of_plan hplan)
    cases hs : settlementOf b.db c.request with
    | none =>
      have hsame : ∀ id, paidOn (write b.db) id = paidOn b.db id := by
        intro id
        rw [hpaid, hs]
        exact add_zero _
      refine ⟨fun id => hsame id ▸ h.cents id, fun id => (hsame id).trans (h.books id), ?_⟩
      show ((settlementInvoices (write b.db)).map keyOf).Sublist _
      rw [hinvoices]
      exact h.traced
    | some s =>
      have hcents := isCents_settlementOf hs
      have hadded : ∀ id, paidOn (issueSupplierPayment s c.stored (write b.db)) id =
          paidOn b.db id + if s.purchaseId = id then s.payAmount else 0 := by
        intro id
        rw [paidOn_congr (purchases_issue s c.stored (write b.db)), hpaid, hs]
        rfl
      refine ⟨fun id => ?_, fun id => ?_, ?_⟩
      · show IsCents (paidOn (issueSupplierPayment s c.stored (write b.db)) id)
        rw [hadded]
        refine (h.cents id).add ?_
        split_ifs
        · exact hcents
        · exact isCents_zero
      · show paidOn (issueSupplierPayment s c.stored (write b.db)) id = _
        rw [hadded, h.books, appliedTotal_concat]
      · show ((settlementInvoices (issueSupplierPayment s c.stored (write b.db))).map keyOf).Sublist
          ((b.applied ++ [_]).map Applied.key)
        rw [settlementInvoices_issue, hinvoices, List.map_append, List.map_append]
        refine h.traced.append ?_
        split_ifs
        · rw [List.map_singleton, keyOf_invoiceRow hcents]
          exact List.Sublist.refl _
        · exact List.nil_sublist _

/-- One invoice for each payment is the invoice of that payment. -/
theorem keys_of_each (h : b.Kept)
    (heach : (settlementInvoices b.db).map (fun v => (v.lineItems.purchaseId, v.grandTotal)) =
      b.applied.map fun a => (some a.purchaseId, a.amount)) :
    (settlementInvoices b.db).map keyOf = b.applied.map Applied.key := by
  refine h.traced.eq_of_length ?_
  have hlength := congrArg List.length heach
  simpa using hlength

/-- Then the invoices add up to what was paid. -/
theorem total_of_each (h : b.Kept)
    (heach : (settlementInvoices b.db).map (fun v => (v.lineItems.purchaseId, v.grandTotal)) =
      b.applied.map fun a => (some a.purchaseId, a.amount)) (id : ℕ) :
    invoicedTotal b.db id = paidOn b.db id := by
  have hpairs : ∀ l : List (Option ℕ × ℚ), l = b.applied.map (fun a => (some a.purchaseId, a.amount)) →
      ((l.filter fun r => r.1 = some id).map Prod.snd).sum = appliedTotal b.applied id := by
    rintro _ rfl
    unfold appliedTotal
    rw [List.filter_map, List.map_map]
    congr 2
    refine List.filter_congr fun a _ => ?_
    simp
  rw [h.books, ← hpairs _ heach, List.filter_map, List.map_map]
  rfl

theorem invoiced_iff_each (h : b.Kept) :
    b.Invoiced ↔ (settlementInvoices b.db).map (fun v => (v.lineItems.purchaseId, v.grandTotal)) =
      b.applied.map fun a => (some a.purchaseId, a.amount) := by
  refine ⟨Ledger.Invoiced.each, fun heach => ⟨heach, fun id p hp => ?_⟩⟩
  rw [total_of_each h heach]
  unfold paidOn
  rw [hp]
  rfl

/-- The reference of a payment finds no invoice exactly if no payment before had it. -/
theorem unreferred_iff (h : b.Kept) (hb : b.Invoiced) (ref : String) :
    referredTo b.db "supplier_settlement" "supplier_purchase_pay" ref = none ↔
      ref ∉ b.applied.map Applied.ref := by
  have hkeys := keys_of_each h hb.each
  have hrefs : (settlementInvoices b.db).map (fun v => (v.refType, v.refId)) =
      b.applied.map fun a => (some "supplier_purchase_pay", some a.ref) := by
    have hmap := congrArg (List.map fun k => (k.2.2.1, k.2.2.2)) hkeys
    rw [List.map_map, List.map_map] at hmap
    exact hmap
  have hmem : (∃ v ∈ settlementInvoices b.db,
      v.refType = some "supplier_purchase_pay" ∧ v.refId = some ref) ↔
        ref ∈ b.applied.map Applied.ref := by
    have hpair : (some "supplier_purchase_pay", some ref) ∈
        (settlementInvoices b.db).map (fun v => (v.refType, v.refId)) ↔
          ref ∈ b.applied.map Applied.ref := by
      rw [hrefs]
      simp
    rw [← hpair]
    simp [Prod.ext_iff]
  rw [referredTo_eq_none, ← hmem]
  simp

/-- A call leaves one invoice for each payment exactly if its payment has a reference of its
own, and its invoice is stored. -/
theorem invoiced_step_iff (h : b.Kept) (hb : b.Invoiced) (c : Call) :
    (b.step env c).Invoiced ↔ Own env b c := by
  rw [invoiced_iff_each (Ledger.kept_step h c)]
  unfold Ledger.step Own
  cases hplan : plan env c.request b.db with
  | error e => exact iff_of_true hb.each (by simp)
  | ok write =>
    have hinvoices := settlementInvoices_congr (invoices_of_plan hplan)
    cases hs : settlementOf b.db c.request with
    | none =>
      refine iff_of_true ?_ (by simp)
      show (settlementInvoices (write b.db)).map _ = _
      rw [hinvoices]
      exact hb.each
    | some s =>
      have hcents := isCents_settlementOf hs
      have hreferred : referredTo (write b.db) "supplier_settlement" "supplier_purchase_pay" s.ref =
          none ↔ s.ref ∉ b.applied.map Applied.ref := by
        rw [← unreferred_iff h hb]
        unfold referredTo
        rw [invoices_of_plan hplan]
      show (settlementInvoices (issueSupplierPayment s c.stored (write b.db))).map _ = _ ↔ _
      rw [settlementInvoices_issue, hinvoices, List.map_append, hb.each, List.map_append,
        List.append_cancel_left_eq]
      constructor
      · rintro heq write' s' ⟨⟩ ⟨⟩
        by_contra hnot
        rw [if_neg fun hand => hnot ⟨hreferred.1 hand.2, hand.1⟩] at heq
        cases heq
      · intro hown
        obtain ⟨href, hstored⟩ := hown write s rfl rfl
        rw [if_pos ⟨hstored, hreferred.2 href⟩]
        show [(some s.purchaseId, round2 s.payAmount)] = [(some s.purchaseId, s.payAmount)]
        rw [round2_of_isCents hcents]

/-- The settlement invoices are those of the payments throughout a run exactly if each payment
of it has a reference of its own, and its invoice is stored. -/
theorem invoiced_iff (env : Payment.Env) (h : b.Kept) (hb : b.Invoiced) (cs : List Call) :
    Throughout (Ledger.step env) Ledger.Invoiced b cs ↔ Stepwise (Ledger.step env) (Own env) b cs :=
  throughout_iff_stepwise (I := Ledger.Kept) (P := Ledger.Invoiced)
    (fun _ c hk => Ledger.kept_step hk c)
    (fun _ c hk hi => invoiced_step_iff hk hi c) h hb cs

end Ledgers

/-! ## The rest of a purchase order in two equal parts -/

/-- A wholesaler, user 1, and a product; nothing was bought yet. -/
def openLedger : Ledger where
  db :=
    { Db.empty with
      users := .ofList [{ (default : User) with role := .retailer }]
      profiles := .ofList [{ (default : RetailerProfile) with userId := 1, isWholesaler := true }]
      products := .ofList [default] }
  applied := []

/-- Goods for ₹100 are bought and received. -/
def buyGoods : Call := ⟨.create 1 1 10 10 none none false none true, true⟩

/-- The admin pays a part by UPI. -/
def payPart (amount : ℚ) : Call := ⟨.pay 1 (some amount) "upi" none none, true⟩

theorem kept_openLedger : openLedger.Kept :=
  ⟨fun _ => isCents_zero, fun _ => rfl, List.nil_sublist _⟩

theorem invoiced_openLedger : openLedger.Invoiced :=
  ⟨rfl, fun _ _ hp => by cases hp⟩

theorem own_of_all {env : Payment.Env} {b : Ledger} {c : Call}
    (h : (settlementOf b.db c.request).all (fun s => s.ref ∉ b.applied.map Applied.ref) = true)
    (hstored : c.stored = true) : Own env b c := by
  intro write s _ hs
  rw [hs, Option.all_some] at h
  exact ⟨of_decide_eq_true h, hstored⟩

/-- ₹80, and then ₹20: two invoices. -/
theorem parts_invoiced : Throughout (Ledger.step Payment.plainEnv) Ledger.Invoiced openLedger
    [buyGoods, payPart 80, payPart 20] := by
  refine (invoiced_iff Payment.plainEnv kept_openLedger invoiced_openLedger _).2 ?_
  refine stepwise_cons.2 ⟨own_of_all rfl rfl, stepwise_cons.2 ⟨own_of_all ?_ rfl,
    stepwise_cons.2 ⟨own_of_all ?_ rfl, stepwise_nil _ _⟩⟩⟩
  · decide +kernel
  · decide +kernel

/-- ₹80, ₹10, and ₹10 again: the last payment has the reference of the one before, and gets no
invoice. -/
theorem rest_uninvoiced :
    (run (Ledger.step Payment.plainEnv) openLedger
      [buyGoods, payPart 80, payPart 10, payPart 10]).applied.length = 3 ∧
    ¬ Throughout (Ledger.step Payment.plainEnv) Ledger.Invoiced openLedger
      [buyGoods, payPart 80, payPart 10, payPart 10] := by
  have hthree : (run (Ledger.step Payment.plainEnv) openLedger
      [buyGoods, payPart 80, payPart 10, payPart 10]).applied.length = 3 := by decide +kernel
  refine ⟨hthree, fun h => ?_⟩
  have htwo : (settlementInvoices (run (Ledger.step Payment.plainEnv) openLedger
      [buyGoods, payPart 80, payPart 10, payPart 10]).db).length = 2 := by decide +kernel
  have hlength := congrArg List.length h.final.each
  rw [List.length_map, List.length_map, htwo, hthree] at hlength
  omega

end SupplierInvoices

end SweetCrust
