import SweetCrust.Payment.Payments
import SweetCrust.StoreOps.Purchases

/-!
# Invoices of the store-ops service: `invoices.py`

`issue_invoice` writes one row for a reference, and finds that row when it is asked again.
The invoice of a payment to a supplier is referred to by the payment's gateway id; a payment
without one, by the purchase order and the amount.

The invoice number is drawn at random and is left out; so is the mail.
-/

namespace SweetCrust

open Tabular Guard Rounding Decimal Text

namespace Invoices

/-! ## `issue_invoice` -/

/-- The arguments of `issue_invoice`.  The last four are its `meta`. -/
structure InvoiceIn where
  kind : String
  items : List InvoiceLine
  grandTotal : ℚ
  customerName : String
  customerPhone : String := ""
  customerAddress : Option String := none
  buyerUserId : Option ℕ := none
  sellerUserId : Option ℕ := none
  orderId : Option ℕ := none
  refType : Option String := none
  refId : Option String := none
  subtotal : Option ℚ := none
  discount : ℚ := 0
  gstAmount : ℚ := 0
  deliveryFee : ℚ := 0
  paymentMethod : Option String := none
  transactionId : Option String := none
  notes : Option String := none
  title : Option String := none
  purchaseId : Option ℕ := none
  billNo : Option String := none
  orderNumber : Option String := none
  orderType : Option String := none

/-- `template_for_kind`. -/
def templateForKind (kind : String) : String :=
  if kind = "subscription_pack" then "subscription_pack" else "product_payment"

/-- The invoice with a reference. -/
def referredTo (db : Db) (kind refType refId : String) : Option (ℕ × Invoice) :=
  db.invoices.first? fun v => v.kind = kind ∧ v.refType = some refType ∧ v.refId = some refId

/-- `_find_existing`: the invoice of the order, and else the one with the reference. -/
def findExisting (db : Db) (a : InvoiceIn) : Option (ℕ × Invoice) :=
  (a.orderId.bind fun o => db.invoices.first? fun v => v.orderId = some o).or
    (match truthy a.refType, truthy a.refId with
    | some refType, some refId => referredTo db a.kind refType refId
    | _, _ => none)

/-- An item as it is printed: with a name, and at least once. -/
def normItem (i : InvoiceLine) : InvoiceLine :=
  { i with name := (truthy (some i.name)).getD "Item", qty := if i.qty = 0 then 1 else i.qty }

/-- The row that `issue_invoice` writes. -/
def invoiceRow (db : Db) (a : InvoiceIn) : Invoice :=
  let settings := ((db.settings.first? fun _ => true).map Prod.snd).getD .default
  let total := round2 a.grandTotal
  { orderId := a.orderId
    kind := a.kind
    refType := a.refType
    refId := a.refId
    buyerUserId := a.buyerUserId
    sellerUserId := a.sellerUserId
    bakeryName := (truthy (some settings.bakeryName)).getD "SweetCrust"
    gstin := settings.gstin
    customerName := Payment.clip 120 ((truthy (some a.customerName)).getD "Customer")
    customerPhone := Payment.clip 20 a.customerPhone
    customerAddress := a.customerAddress
    lineItems :=
      { template := templateForKind a.kind
        kind := a.kind
        title := (truthy a.title).getD
          (String.ofList (title (replaceChar '_' ' ' a.kind.toList)))
        items := a.items.map normItem
        orderNumber := a.orderNumber
        orderType := a.orderType
        purchaseId := a.purchaseId
        billNo := a.billNo }
    subtotal := round2 (a.subtotal.getD total)
    discount := round2 a.discount
    gstAmount := round2 a.gstAmount
    deliveryFee := round2 a.deliveryFee
    grandTotal := total
    paymentMethod := a.paymentMethod
    transactionId := a.transactionId
    notes := a.notes }

/-- `issue_invoice`.  The row is not `stored` when its commit fails, as for a number that is
taken. -/
def issueInvoice (a : InvoiceIn) (stored : Bool) (db : Db) : Db :=
  match findExisting db a with
  | some _ => db
  | none => if stored then { db with invoices := db.invoices.insert (invoiceRow db a) } else db

/-! ## `issue_supplier_payment` -/

/-- What `issue_supplier_payment` is told of a payment: the purchase order, its supplier, and
what was paid. -/
structure Settlement where
  purchaseId : ℕ
  purchase : SupplierPurchase
  supplier : User
  profile : RetailerProfile
  payAmount : ℚ
  payMethod : String
  transactionId : Option String

/-- `transaction_id or f"po-{purchase_id}-pay-{pay_amount:.2f}"`, its first 80 characters. -/
def Settlement.ref (s : Settlement) : String :=
  Payment.clip 80 ((truthy s.transactionId).getD
    ("po-" ++ String.ofList (natText s.purchaseId) ++ "-pay-" ++
      String.ofList (fixed2 s.payAmount)))

/-- The invoice of a payment to a supplier. -/
def Settlement.invoice (s : Settlement) : InvoiceIn where
  kind := "supplier_settlement"
  refType := some "supplier_purchase_pay"
  refId := some s.ref
  buyerUserId := none
  sellerUserId := some s.purchase.supplierUserId
  customerName := (truthy (some s.profile.shopName)).getD "Shop"
  customerPhone := (truthy s.profile.contactPhone).getD s.supplier.phone
  items := [⟨s.purchase.productName, s.purchase.qty, s.purchase.unitCost, s.payAmount⟩]
  subtotal := some s.payAmount
  grandTotal := s.payAmount
  paymentMethod := some s.payMethod
  transactionId := s.transactionId
  title := some ("Product payment · " ++ Purchase.billNo s.purchaseId)
  notes := some ("Admin settlement for " ++ Purchase.billNo s.purchaseId)
  purchaseId := some s.purchaseId
  billNo := some (Purchase.billNo s.purchaseId)

/-- `issue_supplier_payment`. -/
def issueSupplierPayment (s : Settlement) (stored : Bool) (db : Db) : Db :=
  issueInvoice s.invoice stored db

/-! ## `issue_from_order` -/

/-- The kind of an order's invoice: a sale of the bakery to a shop, or one to a customer. -/
def kindOf (order : Order) : String :=
  if order.orderType = OrderType.b2bShopOrder.value then "b2b_wholesale" else "customer_order"

/-- The invoice of an order. -/
def orderInvoice (db : Db) (orderId : ℕ) (order : Order) : InvoiceIn :=
  let isB2b := order.orderType = OrderType.b2bShopOrder.value
  let addr := order.addressSnapshot.getD ⟨none, none, none, none, none, none, none⟩
  let buyer := db.users.get? order.userId
  let buyerName := buyer.bind fun u => truthy u.name
  let buyerProfile := (profileOf db order.userId).map Prod.snd
  let shopLabel := order.shopUserId.bind fun shopId =>
    (((profileOf db shopId).map Prod.snd).bind fun p => truthy (some p.shopName)).or
      ((db.users.get? shopId).bind fun u => truthy u.name)
  { kind := kindOf order
    orderId := some orderId
    refType := some "order"
    refId := some (String.ofList (natText orderId))
    buyerUserId := some order.userId
    sellerUserId := if isB2b then none else order.shopUserId
    customerName :=
      if isB2b then
        (((buyerProfile.bind fun p => truthy (some p.shopName)).or buyerName).or
          (truthy addr.shopName)).getD "Shop"
      else ((truthy addr.fullName).or buyerName).getD "Customer"
    customerPhone :=
      (((truthy order.customerPhone).or (truthy addr.phone)).or (buyer.map User.phone)).getD ""
    customerAddress :=
      (if isB2b then buyerProfile.bind fun p => truthy p.addressLine else none).or
        (truthy (some (Payment.joinParts
          [(truthy addr.line1).or addr.addressLine, addr.city, addr.pincode])))
    items := (db.orderItems.select fun i => i.orderId = orderId).map fun i =>
      ⟨i.2.productName, i.2.quantity, i.2.unitPrice, i.2.totalPrice⟩
    subtotal := some order.subtotal
    discount := order.discount
    gstAmount := order.gstAmount
    deliveryFee := order.deliveryFee
    grandTotal := order.finalAmount
    paymentMethod := order.paymentMethod.map PaymentMethod.value
    transactionId := (latestPayment db orderId).bind fun p => p.2.transactionId
    title := some (
      if isB2b then "Wholesale · " ++ order.orderNumber
      else "Sale · " ++ order.orderNumber ++ " · " ++ shopLabel.getD "Shop")
    orderNumber := some order.orderNumber
    orderType := some order.orderType }

/-- `issue_from_order`, where the row's commit goes through. -/
def issueFromOrder (db : Db) (orderId : ℕ) (order : Order) : Db :=
  match db.invoices.first? fun v => v.orderId = some orderId with
  | some _ => db
  | none => issueInvoice (orderInvoice db orderId order) true db

/-! ## What is issued -/

section Effects

variable {db : Db} {s : Settlement}

theorem Settlement.ref_ne_empty (s : Settlement) : s.ref ≠ "" := by
  unfold Settlement.ref Payment.clip
  have hne : ∀ t : String, t ≠ "" → String.ofList (t.toList.take 80) ≠ "" := by
    intro t ht hclip
    have htake := String.ofList_eq_empty_iff.1 hclip
    rcases List.take_eq_nil_iff.1 htake with hzero | hnil
    · cases hzero
    · exact ht (String.toList_eq_nil_iff.1 hnil)
  refine hne _ ?_
  cases h : truthy s.transactionId with
  | none => simp
  | some t =>
    have ht := (Option.filter_eq_some_iff.1 h).2
    simpa using ht

/-- The row of a payment is looked up by its reference. -/
theorem findExisting_invoice (db : Db) (s : Settlement) :
    findExisting db s.invoice =
      referredTo db "supplier_settlement" "supplier_purchase_pay" s.ref := by
  have htype : truthy s.invoice.refType = some "supplier_purchase_pay" :=
    truthy_some (by decide)
  have hid : truthy s.invoice.refId = some s.ref := truthy_some s.ref_ne_empty
  unfold findExisting
  rw [htype, hid]
  rfl

end Effects

/-! ## The invoices of orders -/

section Orders

variable {db : Db} {kind : String} {i j k : ℕ} {order : Order}

/-- There is an invoice for the order. -/
def Invoiced (db : Db) (orderId : ℕ) : Prop :=
  ∃ i v, db.invoices.get? i = some v ∧ v.orderId = some orderId

/-- There is a row with the reference of the order's invoice. -/
def Referred (db : Db) (kind : String) (orderId : ℕ) : Prop :=
  (referredTo db kind "order" (String.ofList (natText orderId))).isSome

theorem natText_inj (h : String.ofList (natText j) = String.ofList (natText k)) : j = k := by
  have hlist : natText j = natText k := String.ofList_injective h
  have hparse := parseDigits_natText j
  rw [hlist, parseDigits_natText] at hparse
  exact (Option.some.inj hparse).symm

/-- The row of an order is there already, or it is written. -/
theorem issueFromOrder_cases (db : Db) (k : ℕ) (order : Order) :
    issueFromOrder db k order = db ∧ (Invoiced db k ∨ Referred db (kindOf order) k) ∨
      issueFromOrder db k order =
        { db with invoices := db.invoices.insert (invoiceRow db (orderInvoice db k order)) } ∧
      ¬ Referred db (kindOf order) k := by
  unfold issueFromOrder
  cases hown : db.invoices.first? fun v => v.orderId = some k with
  | some r =>
    obtain ⟨hget, hp⟩ := Table.get?_of_first? hown
    exact Or.inl ⟨rfl, Or.inl ⟨r.1, r.2, hget, of_decide_eq_true hp⟩⟩
  | none =>
    have hfind : findExisting db (orderInvoice db k order) =
        referredTo db (kindOf order) "order" (String.ofList (natText k)) := by
      have htype : truthy (orderInvoice db k order).refType = some "order" :=
        truthy_some (by decide)
      have hid : truthy (orderInvoice db k order).refId = some (String.ofList (natText k)) :=
        truthy_some fun h => natText_ne_nil k (String.ofList_eq_empty_iff.1 h)
      unfold findExisting
      rw [htype, hid]
      show (db.invoices.first? fun v => v.orderId = some k).or _ = _
      rw [hown]
      rfl
    unfold issueInvoice
    dsimp only
    rw [hfind]
    unfold Referred
    cases referredTo db (kindOf order) "order" (String.ofList (natText k)) with
    | some r => exact Or.inl ⟨rfl, Or.inr rfl⟩
    | none => exact Or.inr ⟨rfl, by simp⟩

theorem issueFromOrder_rest (db : Db) (k : ℕ) (order : Order) :
    issueFromOrder db k order =
      { db with invoices := (issueFromOrder db k order).invoices } := by
  rcases issueFromOrder_cases db k order with ⟨heq, -⟩ | ⟨heq, -⟩ <;> rw [heq]

theorem invoiced_issueFromOrder : Invoiced (issueFromOrder db k order) j ↔
    Invoiced db j ∨ j = k ∧ ¬ Referred db (kindOf order) k := by
  rcases issueFromOrder_cases db k order with ⟨heq, hthere⟩ | ⟨heq, hnew⟩
  · rw [heq]
    refine ⟨Or.inl, ?_⟩
    rintro (h | ⟨rfl, hnot⟩)
    · exact h
    · exact hthere.resolve_right hnot
  · rw [heq]
    constructor
    · rintro ⟨i, v, hv, ho⟩
      rw [Table.get?_insert] at hv
      split_ifs at hv with hi
      · cases hv
        exact Or.inr ⟨(Option.some.inj ho).symm, hnew⟩
      · exact Or.inl ⟨i, v, hv, ho⟩
    · rintro (⟨i, v, hv, ho⟩ | ⟨rfl, -⟩)
      · refine ⟨i, v, ?_, ho⟩
        rw [Table.get?_insert, if_neg (Table.lt_next_of_get? hv).ne, hv]
      · exact ⟨_, _, by rw [Table.get?_insert, if_pos rfl], rfl⟩

/-- A reference stays, and no other one is made. -/
theorem referred_issueFromOrder (hj : j ≠ k) :
    Referred (issueFromOrder db k order) kind j ↔ Referred db kind j := by
  rcases issueFromOrder_cases db k order with ⟨heq, -⟩ | ⟨heq, -⟩
  · rw [heq]
  · have hother : some (String.ofList (natText k)) ≠ some (String.ofList (natText j)) :=
      fun h => hj (natText_inj (Option.some.inj h)).symm
    have hrow : (invoiceRow db (orderInvoice db k order)).refId =
        some (String.ofList (natText k)) := rfl
    unfold Referred referredTo
    rw [heq, Table.first?_insert]
    simp [hrow, hother]

theorem Referred.issueFromOrder (h : Referred db kind j) :
    Referred (issueFromOrder db k order) kind j := by
  rcases issueFromOrder_cases db k order with ⟨heq, -⟩ | ⟨heq, -⟩
  · rw [heq]
    exact h
  · obtain ⟨r, hr⟩ := Option.isSome_iff_exists.1 h
    unfold Referred
    unfold referredTo at hr ⊢
    rw [heq, Table.first?_insert_of_some _ hr]
    rfl

end Orders

end Invoices

end SweetCrust
