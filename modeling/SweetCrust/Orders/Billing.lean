import SweetCrust.Checkout.Money
import SweetCrust.Orders.Frame
import SweetCrust.StoreOps.BulkOrders
import SweetCrust.StoreOps.Instalments

/-!
# The invoice of an order

Four services write the invoice of an order, each with a function of its own: the payment service
when a payment is confirmed, the order service and the checkout service when the customer asks for
it, and store-ops when the admin does or when a collection is spread over orders.  Each looks first
whether there is one.  Orders are placed, moved and paid meanwhile.

* `Shows` — an invoice has the amounts and the lines of its order, as they are or rounded.
* `Billed` — no order has two invoices, and each invoice shows its order.
* `billed_run` — so it stays along every run, and an invoice that is there stays as it is.
-/

namespace SweetCrust

open Tabular Session Rounding Runs Guard

namespace Orders

/-! ## What an invoice shows -/

structure Amounts where
  subtotal : ℚ
  discount : ℚ
  gstAmount : ℚ
  deliveryFee : ℚ
  total : ℚ
  deriving DecidableEq

def Amounts.map (f : ℚ → ℚ) (a : Amounts) : Amounts :=
  ⟨f a.subtotal, f a.discount, f a.gstAmount, f a.deliveryFee, f a.total⟩

def amountsOf (o : Order) : Amounts :=
  ⟨o.subtotal, o.discount, o.gstAmount, o.deliveryFee, o.finalAmount⟩

def billedAmounts (v : Invoice) : Amounts :=
  ⟨v.subtotal, v.discount, v.gstAmount, v.deliveryFee, v.grandTotal⟩

/-- The lines of an order, as an invoice has them. -/
def linesOf (db : Db) (o : ℕ) : List InvoiceLine :=
  (db.orderItems.select fun i => i.orderId = o).map fun i =>
    ⟨i.2.productName, i.2.quantity, i.2.unitPrice, i.2.totalPrice⟩

/-- The invoice has the amounts and the lines of the order, as they are, or as store-ops prints
them. -/
def Shows (db : Db) (o : ℕ) (a : Order) (v : Invoice) : Prop :=
  billedAmounts v = amountsOf a ∧ v.lineItems.items = linesOf db o ∨
    billedAmounts v = (amountsOf a).map round2 ∧
      v.lineItems.items = (linesOf db o).map Invoices.normItem

/-- No order has two invoices, and each invoice shows an order that there is. -/
structure Billed (db : Db) : Prop where
  lines : ∀ r ∈ db.orderItems.rows, ∃ a, db.orders.get? r.2.orderId = some a
  single : ∀ i j v w o, db.invoices.get? i = some v → db.invoices.get? j = some w →
    v.orderId = some o → w.orderId = some o → i = j
  shows : ∀ i v o, db.invoices.get? i = some v → v.orderId = some o →
    ∃ a, db.orders.get? o = some a ∧ Shows db o a v

/-- The orders stay, with their amounts and their lines. -/
structure Kept (s t : Db) : Prop where
  amounts : ∀ o a, s.orders.get? o = some a →
    ∃ b, t.orders.get? o = some b ∧ amountsOf b = amountsOf a
  lines : ∀ o a, s.orders.get? o = some a → linesOf t o = linesOf s o
  belong : (∀ r ∈ s.orderItems.rows, ∃ a, s.orders.get? r.2.orderId = some a) →
    ∀ r ∈ t.orderItems.rows, ∃ a, t.orders.get? r.2.orderId = some a

/-- The step keeps `Billed`, and each invoice that is there. -/
structure Bills (s t : Db) : Prop where
  billed : Billed s → Billed t
  stays : ∀ i v, s.invoices.get? i = some v → t.invoices.get? i = some v

section Steps

variable {s t u : Db} {o : ℕ} {a : Order} {v : Invoice}

theorem Bills.refl (s : Db) : Bills s s := ⟨id, fun _ _ h => h⟩

theorem Bills.trans (h : Bills s t) (h' : Bills t u) : Bills s u :=
  ⟨fun hs => h'.billed (h.billed hs), fun i v hv => h'.stays i v (h.stays i v hv)⟩

/-- An order whose row is rewritten, with its amounts and its lines as they are. -/
theorem kept_of_amounts (hlines : t.orderItems = s.orderItems)
    (h : ∀ o a, s.orders.get? o = some a →
      ∃ b, t.orders.get? o = some b ∧ amountsOf b = amountsOf a) : Kept s t where
  amounts := h
  lines o a _ := by rw [linesOf, linesOf, hlines]
  belong hs r hr := by
    rw [hlines] at hr
    obtain ⟨a, ha⟩ := hs r hr
    obtain ⟨b, hb, -⟩ := h _ a ha
    exact ⟨b, hb⟩

theorem kept_of_same (hlines : t.orderItems = s.orderItems) (horders : t.orders = s.orders) :
    Kept s t :=
  kept_of_amounts hlines fun o a ha => ⟨a, by rw [horders]; exact ha, rfl⟩

theorem kept_of_modify {k : ℕ} {g : Order → Order} (hlines : t.orderItems = s.orderItems)
    (horders : t.orders = s.orders.modify k g) (hg : ∀ a, amountsOf (g a) = amountsOf a) :
    Kept s t := by
  refine kept_of_amounts hlines fun o a ha => ?_
  rw [horders]
  by_cases hk : o = k
  · subst hk
    exact ⟨g a, by rw [Table.get?_modify_self, ha]; rfl, hg a⟩
  · exact ⟨a, by rw [Table.get?_modify_of_ne _ _ hk]; exact ha, rfl⟩

/-- A step that writes no invoice. -/
theorem bills_of_kept (h : Kept s t) (hinvoices : t.invoices = s.invoices) : Bills s t where
  billed hs := by
    refine ⟨h.belong hs.lines, ?_, ?_⟩
    · rw [hinvoices]
      exact hs.single
    · intro i v o hv ho
      rw [hinvoices] at hv
      obtain ⟨a, ha, hshow⟩ := hs.shows i v o hv ho
      obtain ⟨b, hb, hamounts⟩ := h.amounts o a ha
      refine ⟨b, hb, ?_⟩
      rw [Shows, hamounts, h.lines o a ha]
      exact hshow
  stays i v hv := by rw [hinvoices]; exact hv

/-- The first invoice of an order. -/
theorem bills_issue (hnone : ∀ i w, s.invoices.get? i = some w → w.orderId ≠ some o)
    (ha : s.orders.get? o = some a) (ho : v.orderId = some o) (hshow : Shows s o a v) :
    Bills s { s with invoices := s.invoices.insert v } where
  billed hs := by
    refine ⟨hs.lines, ?_, ?_⟩
    · intro i j w x k hw hx hwk hxk
      simp only [Table.get?_insert] at hw hx
      split_ifs at hw hx with hi hj hj
      · rw [hi, hj]
      · cases hw
        rw [ho] at hwk
        cases hwk
        exact absurd hxk (hnone j x hx)
      · cases hx
        rw [ho] at hxk
        cases hxk
        exact absurd hwk (hnone i w hw)
      · exact hs.single i j w x k hw hx hwk hxk
    · intro i w k hw hwk
      simp only [Table.get?_insert] at hw
      split_ifs at hw with hi
      · cases hw
        rw [ho] at hwk
        cases hwk
        exact ⟨a, ha, hshow⟩
      · exact hs.shows i w k hw hwk
  stays i w hw := by
    rw [Table.get?_insert, if_neg (Table.lt_next_of_get? hw).ne]
    exact hw

end Steps

/-! ## The handlers that write one -/

namespace OrderService

/-- `generate_invoice` of the order service: that of the payment service, and the settings are
created when missing. -/
def generateInvoice (orderId : ℕ) (order : Order) : Service Invoice := do
  let db ← get
  match Payment.invoiceFor db orderId with
  | some existing => return existing.2
  | none =>
    let _ ← Carts.settings
    let db ← get
    modify (Payment.withInvoice orderId order)
    commit
    return Payment.invoiceOf db orderId order

/-- `get_invoice`, of the order service and of the checkout service, each with its own
`generate_invoice`. -/
def getInvoice (generate : ℕ → Order → Service Invoice) (orderId userId : ℕ) :
    Service Invoice := do
  let detail ← orderDetail orderId userId
  let db ← get
  match Payment.invoiceFor db orderId with
  | some existing => return existing.2
  | none => generate orderId detail.order

end OrderService

namespace StoreOps

/-- `make_invoice`.  An order that has its invoice is left as it is. -/
def makeInvoice (orderId : ℕ) : Service Unit := do
  let detail ← BulkOrders.orderDetail orderId
  modify fun db => Invoices.issueFromOrder db orderId detail.1
  commit

end StoreOps

section Writers

variable {db t : Db} {o u : ℕ} {order a : Order}

theorem notMem_of_invoiceFor (h : Payment.invoiceFor db o = none) (i : ℕ) (w : Invoice)
    (hw : db.invoices.get? i = some w) : w.orderId ≠ some o := by
  simpa using Table.first?_eq_none.1 h i w hw

/-- The invoice that the payment service writes, where there is none. -/
theorem bills_withInvoice (h : Payment.invoiceFor db o = none) (ha : db.orders.get? o = some a)
    (hamounts : amountsOf order = amountsOf a) : Bills db (Payment.withInvoice o order db) :=
  bills_issue (v := Payment.invoiceOf db o order) (notMem_of_invoiceFor h) ha rfl
    (.inl ⟨hamounts, rfl⟩)

theorem bills_invoiced (ha : db.orders.get? o = some a) (hamounts : amountsOf order = amountsOf a) :
    Bills db (Payment.invoiced o order db) := by
  unfold Payment.invoiced
  split
  · exact Bills.refl db
  · rename_i h
    exact bills_withInvoice h ha hamounts

theorem bills_withSettings (db : Db) : Bills db (Carts.withSettings db) := by
  unfold Carts.withSettings
  split
  · exact Bills.refl db
  · exact bills_of_kept (kept_of_same rfl rfl) rfl

theorem bills_issueFromOrder (ha : db.orders.get? o = some a) :
    Bills db (Invoices.issueFromOrder db o a) := by
  unfold Invoices.issueFromOrder
  split
  · exact Bills.refl db
  · rename_i hnone
    unfold Invoices.issueInvoice
    split
    · exact Bills.refl db
    · exact bills_issue (notMem_of_invoiceFor hnone) ha rfl
        (.inr ⟨rfl, by simp [Invoices.invoiceRow, Invoices.orderInvoice, linesOf]⟩)

/-- What the customer gets: the order's invoice, or the one that is written. -/
theorem bills_getInvoice {generate : ℕ → Order → Service Invoice}
    (h : ∀ a, db.orders.get? o = some a → Payment.invoiceFor db o = none →
      Bills db (final (generate o a) db)) :
    Bills db (final (OrderService.getInvoice generate o u) db) := by
  unfold OrderService.getInvoice
  cases ha : db.orders.get? o with
  | none =>
    have hdetail : Raises (OrderService.orderDetail o u) db db :=
      Raises.get_bind (raises_orRaise_bind ha _ _ _)
    rw [(hdetail.bind _).final]
    exact Bills.refl db
  | some a =>
    by_cases hown : a.userId ≠ u
    · have hdetail : Raises (OrderService.orderDetail o u) db db :=
        Raises.get_bind (Raises.orRaise_bind ha (raises_raiseIf_bind hown _ _ _))
      rw [(hdetail.bind _).final]
      exact Bills.refl db
    · have hdetail : Returns (OrderService.orderDetail o u) db
          ⟨a, db.orderItems.select fun i => i.orderId = o⟩ db :=
        Returns.get_bind (Returns.orRaise_bind ha (Returns.raiseIf_bind hown (returns_pure _ _)))
      rw [hdetail.final_bind, final_get_bind]
      split
      · exact Bills.refl db
      · rename_i hnone
        exact h a ha hnone

theorem bills_orderInvoice (o u : ℕ) :
    Bills db (final (OrderService.getInvoice OrderService.generateInvoice o u) db) := by
  refine bills_getInvoice fun a ha hnone => ?_
  have hfinal : final (OrderService.generateInvoice o a) db =
      Payment.withInvoice o a (Carts.withSettings db) := by
    unfold OrderService.generateInvoice
    rw [final_get_bind, hnone, (Carts.settings_returns db).final_bind]
    rfl
  have horders : (Carts.withSettings db).orders = db.orders := by
    unfold Carts.withSettings
    split <;> rfl
  have hinvoices : (Carts.withSettings db).invoices = db.invoices := by
    unfold Carts.withSettings
    split <;> rfl
  rw [hfinal]
  refine (bills_withSettings db).trans (bills_withInvoice ?_ (by rw [horders]; exact ha) rfl)
  rw [Payment.invoiceFor, hinvoices]
  exact hnone

theorem bills_checkoutInvoice (o u : ℕ) :
    Bills db (final (OrderService.getInvoice Checkout.generateInvoice o u) db) := by
  refine bills_getInvoice fun a ha hnone => ?_
  have hfinal : final (Checkout.generateInvoice o a) db =
      { Carts.withSettings db with
        invoices := (Carts.withSettings db).invoices.insert
          (Checkout.invoiceOf (Carts.withSettings db) (Carts.settingsOf db) o a) } := by
    unfold Checkout.generateInvoice
    rw [final_get_bind, hnone, (Carts.settings_returns db).final_bind]
    rfl
  have horders : (Carts.withSettings db).orders = db.orders := by
    unfold Carts.withSettings
    split <;> rfl
  have hinvoices : (Carts.withSettings db).invoices = db.invoices := by
    unfold Carts.withSettings
    split <;> rfl
  rw [hfinal]
  refine (bills_withSettings db).trans (bills_issue ?_ (by rw [horders]; exact ha) rfl
    (.inl ⟨rfl, rfl⟩))
  rw [hinvoices]
  exact notMem_of_invoiceFor hnone

theorem bills_makeInvoice (o : ℕ) : Bills db (final (StoreOps.makeInvoice o) db) := by
  unfold StoreOps.makeInvoice
  cases ha : db.orders.get? o with
  | none =>
    have hdetail : Raises (BulkOrders.orderDetail o) db db :=
      Raises.get_bind (raises_orRaise_bind ha _ _ _)
    rw [(hdetail.bind _).final]
    exact Bills.refl db
  | some a =>
    have hdetail : Returns (BulkOrders.orderDetail o) db
        (a, db.orderItems.select fun i => i.orderId = o) db :=
      Returns.get_bind (Returns.orRaise_bind ha (returns_pure _ _))
    rw [hdetail.final_bind]
    exact bills_issueFromOrder ha

end Writers

/-! ## The payment service -/

section Payments

variable {env : Payment.Env} {db t : Db} {o u : ℕ}

theorem bills_withPayment (userId k : ℕ) (order : Order) (txn : String) (db : Db) :
    Bills db (Payment.withPayment userId k order txn db) :=
  bills_of_kept (kept_of_same rfl rfl) rfl

/-- The row of an order is rewritten, and its invoice is issued from the row. -/
theorem bills_settled {a order : Order} {g : Order → Order} {s : Db} (hs : Bills db s)
    (ha : db.orders.get? o = some a) (horders : s.orders = db.orders.modify o g)
    (hg : amountsOf (g a) = amountsOf order) : Bills db (Payment.invoiced o order s) := by
  have hrow : s.orders.get? o = some (g a) := by
    rw [horders, Table.get?_modify_self, ha]
    rfl
  exact hs.trans (bills_invoiced hrow hg.symm)

theorem bills_razorpayVerify {roid pid sig txn : String}
    (ht : t ∈ commits (Payment.razorpayVerify env u o roid pid sig txn) db) : Bills db t := by
  refine Payment.rel_of_found (fun _ _ _ => Bills.trans)
    (fun db h => Payment.quiet_razorpayVerify_notFound h)
    (fun db order h hp => Payment.commits_razorpayVerify_missing h hp)
    (fun db order _ => bills_withPayment u o order txn db) ?_ ht
  intro db order i p hown hp t ht
  obtain ⟨ha, -⟩ := Payment.ownOrder_eq_some.1 hown
  obtain ⟨_, rfl | rfl⟩ := Payment.mem_commits_razorpayVerify hown hp ht
  · refine bills_settled (s := Payment.settleByVerify o i ⟨o, roid, pid, sig⟩ db) ?_ ha rfl rfl
    exact bills_of_kept (kept_of_modify rfl rfl fun _ => rfl) rfl
  · exact bills_of_kept (kept_of_modify rfl rfl fun _ => rfl) rfl

theorem bills_razorpayCreate {gateway : Payment.Gateway} {user : User} {link : Bool} {txn : String}
    (ht : t ∈ commits (Payment.razorpayCreate env gateway u user o link txn) db) : Bills db t := by
  refine Payment.rel_of_found (fun _ _ _ => Bills.trans)
    (fun db h => Payment.quiet_razorpayCreate_notFound h)
    (fun db order h hp => Payment.commits_razorpayCreate_missing h hp)
    (fun db order _ => bills_withPayment u o order txn db) ?_ ht
  intro db order i p hown hp t ht
  obtain ⟨_, rzOrder, rzLink, _, rfl⟩ := Payment.mem_commits_razorpayCreate hown hp ht
  exact bills_of_kept (kept_of_modify (g := Payment.viaRazorpay) rfl rfl fun _ => rfl) rfl

theorem bills_razorpayWebhook {body : Payment.WebhookBody} {signature : String}
    (ht : t ∈ commits (Payment.razorpayWebhook env body signature) db) : Bills db t := by
  obtain ⟨payload, event, k, order, i, p, _, _, _, _, _, rfl⟩ :=
    Payment.mem_commits_razorpayWebhook ht
  exact bills_of_kept (kept_of_modify rfl rfl fun _ => rfl) rfl

theorem bills_processPayment {method : String} {upiId : Option String} {fail : Bool}
    (ht : t ∈ commits (Payment.processPayment u o method upiId fail) db) : Bills db t := by
  have hquiet : ∀ {l : List Db}, l = [] → t ∉ l := fun h => h ▸ List.not_mem_nil
  cases hown : Payment.ownOrder db u o with
  | none => exact absurd ht (hquiet (Payment.quiet_processPayment (Or.inl hown)))
  | some order =>
    obtain ⟨ha, -⟩ := Payment.ownOrder_eq_some.1 hown
    cases hp : latestPayment db o with
    | none => exact absurd ht (hquiet (Payment.quiet_processPayment_missing hp))
    | some r =>
      obtain ⟨i, p⟩ := r
      cases hm : PaymentMethod.ofValue? method with
      | none => exact absurd ht (hquiet (Payment.quiet_processPayment (Or.inr hm)))
      | some chosen =>
        obtain ⟨after, hcommits, hafter⟩ := Payment.commits_processPayment upiId fail hown hp hm
        have hstart : Bills db (Payment.startProcessing i chosen upiId db) :=
          bills_of_kept (kept_of_same rfl rfl) rfl
        rw [hcommits, List.mem_cons] at ht
        rcases ht with rfl | ht
        · exact hstart
        · rcases hafter t ht with rfl | rfl
          · exact hstart.trans (bills_of_kept (kept_of_modify rfl rfl fun _ => rfl) rfl)
          · refine bills_settled (s := Payment.confirmPayment u o i order chosen
              (Payment.startProcessing i chosen upiId db)) ?_ ha rfl rfl
            exact hstart.trans (bills_of_kept (kept_of_modify rfl rfl fun _ => rfl) rfl)

theorem bills_final {α : Type} {m : Service α} (h : ∀ t ∈ commits m db, Bills db t) :
    Bills db (final m db) := by
  rcases final_mem_or m db with hmem | hsame
  · exact h _ hmem
  · rw [hsame]
    exact Bills.refl db

theorem bills_pay (env : Payment.Env) (db : Db) (call : Payment.Call) :
    Bills db ((call.commits env db).getLastD db) := by
  cases call with
  | create gateway u user o link txn => exact bills_final fun t ht => bills_razorpayCreate ht
  | verify u o roid pid sig txn => exact bills_final fun t ht => bills_razorpayVerify ht
  | webhook body signature => exact bills_final fun t ht => bills_razorpayWebhook ht
  | process u o method upiId fail => exact bills_final fun t ht => bills_processPayment ht

end Payments

/-! ## The other requests -/

section Requests

variable {env : Payment.Env} {w : World} {db : Db}

/-- No request rewrites the amounts of an order. -/
theorem amountsOf_rewrites {o : ℕ} {a b : Order} {r : Request} (h : Rewrites env w o a r b) :
    amountsOf b = amountsOf a := by
  cases h <;> rfl

theorem bills_served (env : Payment.Env) (w : World) (r : Request) :
    Bills w.db (served env w r) := by
  rcases invoices_served env w r with h | ⟨call, rfl⟩
  · refine bills_of_kept (kept_of_amounts ?_ fun o a ha => ?_) h
    · show (unpaid (served env w r)).orderItems = (unpaid w.db).orderItems
      rw [unpaid_served]
    · obtain ⟨b, hb, hrewrites⟩ := rewrites_step env r ha
      exact ⟨b, hb, amountsOf_rewrites hrewrites⟩
  · exact bills_pay env w.db call

/-- A new order with its lines. -/
theorem kept_of_placed {s t : Db} {row : Order} {items : List OrderItem}
    (horders : t.orders = s.orders.insert row)
    (hlines : t.orderItems = s.orderItems.insertAll items)
    (hitems : ∀ i ∈ items, i.orderId = s.orders.next) : Kept s t where
  amounts o a ha := by
    rw [horders, Table.get?_insert, if_neg (Table.lt_next_of_get? ha).ne]
    exact ⟨a, ha, rfl⟩
  lines o a ha := by
    have hne : o ≠ s.orders.next := (Table.lt_next_of_get? ha).ne
    have hline : ∀ db : Db, linesOf db o =
        ((db.orderItems.select fun i => i.orderId = o).map Prod.snd).map
          fun i => ⟨i.productName, i.quantity, i.unitPrice, i.totalPrice⟩ := fun db => by
      rw [linesOf, List.map_map]
      rfl
    have hnone : items.filter (fun i => decide (i.orderId = o)) = [] := by
      rw [List.filter_eq_nil_iff]
      intro i hi
      rw [hitems i hi, decide_eq_true_eq]
      exact hne.symm
    rw [hline, hline, hlines, Table.map_select_insertAll, hnone, List.append_nil]
  belong hs r hr := by
    rw [hlines] at hr
    rw [horders]
    rcases Table.mem_rows_insertAll hr with hr | hr
    · obtain ⟨a, ha⟩ := hs r hr
      rw [Table.get?_insert, if_neg (Table.lt_next_of_get? ha).ne]
      exact ⟨a, ha⟩
    · rw [Table.get?_insert, if_pos (hitems r.2 hr)]
      exact ⟨row, rfl⟩

theorem bills_checkout (u : ℕ) (data : Checkout.CheckoutIn) (draws : Checkout.Draws) :
    Bills db (final (Checkout.checkout u data draws) db) := by
  have hprepared : Bills db (Carts.prepared u db) := by
    obtain ⟨items, carts, settings, heq⟩ := Carts.frame_prepared u db
    rw [heq]
    exact bills_of_kept (kept_of_same rfl rfl) rfl
  cases hq : Checkout.quoted db u data with
  | none =>
    rw [(Checkout.checkout_refused hq draws).1]
    exact hprepared
  | some q =>
    rw [(Checkout.checkout_returns hq draws).final]
    refine hprepared.trans (bills_of_kept (kept_of_placed rfl rfl fun i hi => ?_) rfl)
    obtain ⟨line, -, rfl⟩ := List.mem_map.1 hi
    rfl

/-- The orders, their lines and the invoices. -/
def bookings (db : Db) : Table Order × Table OrderItem × Table Invoice :=
  (db.orders, db.orderItems, db.invoices)

/-- What is done about the payment of a bulk order books nothing. -/
theorem leaves_settle (env : Payment.Env) (gateway : Payment.Gateway) (draws : Checkout.Draws)
    (q : BulkOrders.Quote) (o i : ℕ) :
    Leaves bookings (BulkOrders.settle env gateway draws q o i) := by
  unfold BulkOrders.settle
  split_ifs
  · exact Leaves.bind ((leaves_ofExcept _).bind fun _ =>
      leaves_modify_commit (fun _ => rfl) (leaves_pure _)) fun _ => leaves_pure _
  · refine Leaves.bind (leaves_get_bind fun db => ?_) fun _ => leaves_pure _
    cases hplan : Credit.debitCredit q.userId q.final (some o)
        (some ("Order " ++ draws.orderNumber)) (some q.userId) db with
    | error e => exact leaves_raise e
    | ok write =>
      obtain ⟨j, p, -, -, rfl⟩ := Credit.debitCredit_eq_ok.1 hplan
      exact leaves_modify_commit (fun _ => rfl) (leaves_pure _)
  · exact leaves_pure _

theorem bills_createBulkOrder (env : Payment.Env) (gateway : Payment.Gateway)
    (draws : Checkout.Draws) (u : ℕ) (phone : String) (lines : List BulkOrders.BulkLine)
    (payMode : String) :
    Bills db (final (BulkOrders.createBulkOrder env gateway draws u phone lines payMode) db) := by
  cases hq : BulkOrders.quote env u phone lines payMode db with
  | error e =>
    rw [BulkOrders.final_createBulkOrder_of_error hq]
    exact Bills.refl db
  | ok q =>
    have hfinal : bookings
        (final (BulkOrders.createBulkOrder env gateway draws u phone lines payMode) db) =
        bookings (BulkOrders.furnish draws q db.orders.next (BulkOrders.place draws q db)) := by
      unfold BulkOrders.createBulkOrder
      rw [final_get_bind, hq, final_ofExcept_ok_bind, final_modify_commit_bind,
        final_modify_commit_bind]
      exact (Leaves.bind (leaves_settle env gateway draws q _ _) fun _ =>
        Leaves.bind (leaves_get_bind fun _ => (leaves_orRaise _ _).bind fun _ => leaves_pure _)
          fun _ => leaves_pure _).final _
    have horders := congrArg Prod.fst hfinal
    have hlines := congrArg (fun b => b.2.1) hfinal
    have hinvoices := congrArg (fun b => b.2.2) hfinal
    refine bills_of_kept (kept_of_placed horders hlines fun i hi => ?_) hinvoices
    obtain ⟨b, -, rfl⟩ := List.mem_map.1 hi
    rfl

/-- A collection, and the invoices that follow it. -/
theorem bills_collect {t : Db} {u : ℕ} {amount : ℚ} {note method : Option String}
    {createdBy paymentId : Option ℕ}
    (h : Instalments.collect u amount note method createdBy paymentId db = .ok t) : Bills db t := by
  have hwrites : ∀ (l : List Credit.Applied) (s : Db), Bills s (l.foldl Credit.writeApplied s) := by
    intro l
    induction l with
    | nil => exact Bills.refl
    | cons x l ih =>
      intro s
      have hrow : Bills s (Credit.writeApplied s x) :=
        bills_of_kept (kept_of_modify (k := x.orderId) (g := fun o =>
          { o with paidAmount := x.paidAmount, paymentStatus := x.paymentStatus }) rfl rfl
          fun _ => rfl) rfl
      exact hrow.trans (ih (Credit.writeApplied s x))
  have hissues : ∀ (ids : List ℕ) (s : Db), Bills s (Instalments.issueAllocated ids s) := by
    intro ids
    induction ids with
    | nil => exact Bills.refl
    | cons k ids ih =>
      intro s
      unfold Instalments.issueAllocated
      rw [List.foldl_cons]
      cases ha : s.orders.get? k with
      | none => exact ih s
      | some a => exact (bills_issueFromOrder ha).trans (ih _)
  unfold Instalments.collect at h
  rw [bind_eq_ok] at h
  obtain ⟨write, hwrite, hissue⟩ := h
  obtain ⟨i, profile, -, -, rfl⟩ := Credit.creditPaymentIn_eq_ok.1 hwrite
  cases hissue
  refine ((hwrites (Credit.allocateCollectionToOrdersIn Binary64.fl db u
    (round2 (Binary64.fl amount))) db).trans ?_).trans
    (hissues _ _)
  exact bills_of_kept (kept_of_same rfl rfl) rfl

end Requests

/-! ## Runs -/

inductive Billing
  | request (r : Request)
  | checkout (userId : ℕ) (data : Checkout.CheckoutIn) (draws : Checkout.Draws)
  | bulkOrder (gateway : Payment.Gateway) (draws : Checkout.Draws) (userId : ℕ) (phone : String)
      (lines : List BulkOrders.BulkLine) (payMode : String)
  | orderInvoice (orderId userId : ℕ)
  | checkoutInvoice (orderId userId : ℕ)
  | makeInvoice (orderId : ℕ)
  | collect (userId : ℕ) (amount : ℚ) (note method : Option String)
      (createdBy paymentId : Option ℕ)

/-- What a request leaves in the database. -/
def billed (env : Payment.Env) (w : World) : Billing → Db
  | .request r => served env w r
  | .checkout u data draws => final (Checkout.checkout u data draws) w.db
  | .bulkOrder gateway draws u phone lines payMode =>
    final (BulkOrders.createBulkOrder env gateway draws u phone lines payMode) w.db
  | .orderInvoice o u =>
    final (OrderService.getInvoice OrderService.generateInvoice o u) w.db
  | .checkoutInvoice o u => final (OrderService.getInvoice Checkout.generateInvoice o u) w.db
  | .makeInvoice o => final (StoreOps.makeInvoice o) w.db
  | .collect u amount note method createdBy paymentId =>
    match Instalments.collect u amount note method createdBy paymentId w.db with
    | .ok t => t
    | .error _ => w.db

def billingStep (env : Payment.Env) (w : World) (b : Billing) : World where
  db := billed env w b
  now := match b with
    | .request r => w.now + r.seconds
    | _ => w.now

theorem bills_step (env : Payment.Env) (w : World) (b : Billing) :
    Bills w.db (billingStep env w b).db := by
  cases b with
  | request r => exact bills_served env w r
  | checkout u data draws => exact bills_checkout u data draws
  | bulkOrder gateway draws u phone lines payMode =>
    exact bills_createBulkOrder env gateway draws u phone lines payMode
  | orderInvoice o u => exact bills_orderInvoice o u
  | checkoutInvoice o u => exact bills_checkoutInvoice o u
  | makeInvoice o => exact bills_makeInvoice o
  | collect u amount note method createdBy paymentId =>
    cases h : Instalments.collect u amount note method createdBy paymentId w.db with
    | ok t =>
      simp only [billingStep, billed, h]
      exact bills_collect h
    | error e =>
      simp only [billingStep, billed, h]
      exact Bills.refl w.db

/-- Along every run of requests, of the services that place, move and pay orders and of the four
that write invoices, no order gets a second invoice, each invoice shows its order as it is now,
and an invoice that is there stays as it is. -/
theorem billed_run {w : World} (h : Billed w.db) (env : Payment.Env) (bs : List Billing) :
    Billed (run (billingStep env) w bs).db ∧
      ∀ i v, w.db.invoices.get? i = some v →
        (run (billingStep env) w bs).db.invoices.get? i = some v := by
  have hbills : Bills w.db (run (billingStep env) w bs).db :=
    run_induction (I := fun v => Bills w.db v.db)
      (fun v b hv => hv.trans (bills_step env v b)) (Bills.refl w.db) bs
  exact ⟨hbills.billed h, hbills.stays⟩

/-- One order of user 7, of two cakes. -/
def soldDb : Db :=
  { Db.empty with
    orders := .ofList [{ (default : Order) with userId := 7, subtotal := 500, finalAmount := 500 }]
    orderItems := .ofList [{ (default : OrderItem) with
      orderId := 1, productName := "Cake", quantity := 2, unitPrice := 250, totalPrice := 500 }] }

theorem soldDb_billed : Billed soldDb where
  lines r hr := by
    have horder : r.2.orderId = 1 := by
      have hrows : soldDb.orderItems.rows.all (fun r => r.2.orderId = 1) = true := rfl
      simpa using List.all_eq_true.1 hrows r hr
    rw [horder]
    exact ⟨_, rfl⟩
  single i j v w o hv := by cases hv
  shows i v o hv := by cases hv

/-- The customer asks for the invoice, the admin makes it, and the order is cancelled. -/
theorem billed_run_soldDb :
    Billed (run (billingStep Payment.plainEnv) ⟨soldDb, 0⟩
      [.orderInvoice 1 7, .makeInvoice 1, .request (.cancel 7 1 "late")]).db :=
  (billed_run soldDb_billed Payment.plainEnv _).1

end Orders

end SweetCrust
