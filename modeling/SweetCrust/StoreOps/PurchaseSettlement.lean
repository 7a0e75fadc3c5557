import SweetCrust.Lib.Runs
import SweetCrust.StoreOps.SettlementNotes

/-!
# Settlements with suppliers, each applied once

A settlement through Razorpay is ordered at the gateway for one purchase order, captured
there, and applied when the admin verifies the signed pair of gateway ids.  Whether it
has been applied, and for how much, the service reads from the purchase order's note.

* `World`, `Act`, `World.act` — the database, the gateway's books, the payments applied so
  far, and the calls.
* `Allowed` — what the gateway and its signatures guarantee.
* `TakesItsOwn` — the condition on the calls.
* `Readable`, `Accounted` — the invariant: notes that can be read back, and each verified
  payment applied once.
* `settledOnce_of_takesItsOwn` — under the condition, every verified payment is applied
  exactly once, on its own purchase order and for its own amount.
-/

namespace SweetCrust

open Tabular Rounding Decimal Text PayRules Runs Interleave

namespace Purchase

/-- A gateway order for a purchase order. -/
structure GatewayOrder where
  roid : String
  purchaseId : ℕ
  /-- In paise. -/
  paise : ℤ
  deriving DecidableEq

/-- What the gateway order charges, in rupees. -/
def GatewayOrder.rupees (o : GatewayOrder) : ℚ := o.paise / 100

/-- A payment that the gateway took. -/
structure Capture where
  pid : String
  order : GatewayOrder

/-- A rise of the amount paid on a purchase order, with the gateway payment that a
verification presented for it. -/
structure Entry where
  pid : Option String
  purchaseId : ℕ
  amount : ℚ
  deriving DecidableEq

/-- The one rise that a captured payment is to make. -/
def Capture.entry (c : Capture) : Entry := ⟨some c.pid, c.order.purchaseId, c.order.rupees⟩

structure World where
  db : Db
  orders : List GatewayOrder
  captures : List Capture
  /-- The rises of the paid amounts, oldest first. -/
  entries : List Entry
  /-- The payments that were verified with a valid signature, each with the purchase order
  that it was verified for. -/
  verified : List (String × ℕ)

/-- A call on the settlements, or a payment at the gateway. -/
inductive Act
  | create (gateway : Integrations.Gateway) (purchaseId : ℕ) (amount : Option ℚ) (now : ℕ)
  | capture (order : GatewayOrder) (pid : String)
  | verify (purchaseId : ℕ) (roid pid signature : String) (amount : Option ℚ)
  | pay (purchaseId : ℕ) (amount : Option ℚ) (payMethod : String) (note : Option String)

/-- The amount and the gateway order of a `create_razorpay_pay` call, if the call gets as
far as ordering. -/
def asked (env : Payment.Env) (gateway : Integrations.Gateway) (purchaseId : ℕ)
    (amount : Option ℚ) (now : ℕ) (db : Db) : Option (ℚ × RazorpayOrder) :=
  match razorpayQuote env purchaseId amount db with
  | .error _ => none
  | .ok (purchase, pay, _) =>
    (Integrations.createRazorpayOrder env gateway pay (receiptNo purchaseId now)
      (settlementNotes purchaseId purchase pay)).toOption.map fun rz => (pay, rz)

/-- The amount paid on a purchase order. -/
def paidOn (db : Db) (id : ℕ) : ℚ :=
  ((db.purchases.get? id).map SupplierPurchase.paidAmount).getD 0

/-- The rise of the amount paid on a purchase order between two databases. -/
def rise (pid : Option String) (id : ℕ) (s t : Db) : List Entry :=
  if paidOn t id = paidOn s id then [] else [⟨pid, id, paidOn t id - paidOn s id⟩]

/-- The world after an act. -/
def World.act (env : Payment.Env) (w : World) : Act → World
  | .create gateway id amount now =>
    { w with
      db := step env w.db (.createPay gateway id amount now)
      orders := w.orders ++ ((asked env gateway id amount now w.db).map fun r =>
        (⟨r.2.razorpayOrderId, id, Payment.paise r.1⟩ : GatewayOrder)).toList }
  | .capture order pid => { w with captures := w.captures ++ [⟨pid, order⟩] }
  | .verify id roid pid signature amount =>
    let t := step env w.db (.verify id roid pid signature amount)
    { w with
      db := t
      entries := w.entries ++ rise (some pid) id w.db t
      verified := w.verified ++
        if Integrations.verifyPaymentSignature env roid pid signature then [(pid, id)] else [] }
  | .pay id amount payMethod note =>
    let t := step env w.db (.pay id amount payMethod note none)
    { w with db := t, entries := w.entries ++ rise none id w.db t }

/-- The rises that verifications of a payment id made. -/
def World.entriesOf (w : World) (pid : String) : List Entry :=
  w.entries.filter fun e => e.pid = some pid

/-- The payment was verified for the purchase order that it was made for. -/
def World.Verified (w : World) (c : Capture) : Prop := (c.pid, c.order.purchaseId) ∈ w.verified

instance (w : World) (c : Capture) : Decidable (w.Verified c) :=
  inferInstanceAs (Decidable (_ ∈ _))

/-- What the gateway guarantees: the ids of its orders are new and hold no blank, it takes
payments only for its orders and under new ids, and it has signed a pair of ids only of a
payment it took. -/
def Allowed (env : Payment.Env) (w : World) : Act → Prop
  | .create gateway id amount now => ∀ pay rz, asked env gateway id amount now w.db = some (pay, rz) →
      ' ' ∉ rz.razorpayOrderId.toList ∧ ∀ o ∈ w.orders, o.roid ≠ rz.razorpayOrderId
  | .capture order pid => order ∈ w.orders ∧ ∀ c ∈ w.captures, c.pid ≠ pid
  | .verify _ roid pid signature _ =>
      Integrations.verifyPaymentSignature env roid pid signature = true →
      ∃ c ∈ w.captures, c.order.roid = roid ∧ c.pid = pid
  | .pay _ _ _ _ => True

/-- Every paid amount has risen by the entries, and every verified payment made exactly one
of them, on its own purchase order and for its own amount. -/
structure SettledOnce (start : ℚ) (w : World) : Prop where
  total : w.db.purchases.total SupplierPurchase.paidAmount =
    start + (w.entries.map Entry.amount).sum
  once : ∀ c ∈ w.captures, w.Verified c → w.entriesOf c.pid = [c.entry]

/-- The purchase order takes a payment of `amount` under the id `pid`: it is open, the
amount passes the rules, its shop is there, and its note does not name the id. -/
structure Takes (db : Db) (id : ℕ) (amount : ℚ) (pid : String) (p : SupplierPurchase)
    (i : ℕ) (profile : RetailerProfile) : Prop where
  found : db.purchases.get? id = some p
  isOpen : IsOpen p
  due : 0 < due p
  rules : assertFirstOrPartialPay p.total p.paidAmount amount = .ok ()
  supplier : Supplies db p.supplierUserId i profile
  unnamed : ¬ Recorded p pid

/-- The condition on the calls.  A checkout that orders at the gateway also gets its link,
charges at least a rupee, and its gateway order is not marked in the note before.  The
first verification of a payment for its own purchase order finds that it takes the amount,
passes no other amount, and the payment id is one that trimming leaves whole.  For another
purchase order a payment is refused, or its note names the id. -/
def TakesItsOwn (env : Payment.Env) (w : World) : Act → Prop
  | .create gateway id amount now => ∀ pay rz, asked env gateway id amount now w.db = some (pay, rz) →
      (∃ write, createRazorpayPay env gateway id amount now w.db = .ok write) ∧ 1 ≤ pay ∧
      ∀ p, w.db.purchases.get? id = some p →
        ¬ Contains (pendingTag rz.razorpayOrderId) (noteText p)
  | .verify id roid pid signature amount =>
      Integrations.verifyPaymentSignature env roid pid signature = true →
      ∀ c ∈ w.captures, c.order.roid = roid → c.pid = pid →
        if c.order.purchaseId = id then
          ¬ w.Verified c → CleanId pid ∧ (∀ a, amount = some a → round2 a = c.order.rupees) ∧
            ∃ p i profile, Takes w.db id c.order.rupees pid p i profile
        else
          (∀ write, verifyRazorpayPay env id roid pid signature amount w.db ≠ .ok write) ∨
            ∃ p, w.db.purchases.get? id = some p ∧ AlreadyApplied p (some pid)
  | _ => True

/-- Nothing has been ordered at the gateway yet, and the paid amounts are in whole paise. -/
structure Opening (w : World) : Prop where
  orders : w.orders = []
  captures : w.captures = []
  entries : w.entries = []
  verified : w.verified = []
  cents : ∀ id p, w.db.purchases.get? id = some p → IsCents p.paidAmount

/-! ## The invariant -/

/-- The books are consistent, and the notes hold the amounts of the gateway orders. -/
structure Readable (start : ℚ) (w : World) : Prop where
  /-- A gateway order is made once. -/
  unique : ∀ o ∈ w.orders, ∀ o' ∈ w.orders, o.roid = o'.roid → o = o'
  nonneg : ∀ o ∈ w.orders, 0 ≤ o.paise
  tagged : ∀ o ∈ w.orders, ∃ p, w.db.purchases.get? o.purchaseId = some p ∧
    Tagged p o.roid o.rupees
  captured : ∀ c ∈ w.captures, c.order ∈ w.orders
  /-- A payment id is given once. -/
  pids : ∀ c ∈ w.captures, ∀ c' ∈ w.captures, c.pid = c'.pid → c = c'
  cents : ∀ id p, w.db.purchases.get? id = some p → IsCents p.paidAmount
  total : w.db.purchases.total SupplierPurchase.paidAmount =
    start + (w.entries.map Entry.amount).sum

/-- A payment makes its entry when it is first verified for its own purchase order, and
the note names it from then on. -/
structure Accounted (w : World) : Prop where
  settled : ∀ c ∈ w.captures, w.entriesOf c.pid = if w.Verified c then [c.entry] else []
  recorded : ∀ c ∈ w.captures, w.Verified c → c.pid ≠ "" ∧
    ∃ p, w.db.purchases.get? c.order.purchaseId = some p ∧ Recorded p c.pid
  /-- An id under which nothing was captured has neither entries nor verifications. -/
  unknown : ∀ pid, (∀ c ∈ w.captures, c.pid ≠ pid) →
    w.entriesOf pid = [] ∧ ∀ id, (pid, id) ∉ w.verified

theorem Opening.readable {w : World} (h : Opening w) :
    Readable (w.db.purchases.total SupplierPurchase.paidAmount) w where
  unique := by simp [h.orders]
  nonneg := by simp [h.orders]
  tagged := by simp [h.orders]
  captured := by simp [h.captures]
  pids := by simp [h.captures]
  cents := h.cents
  total := by simp [h.entries]

theorem Opening.accounted {w : World} (h : Opening w) : Accounted w where
  settled := by simp [h.captures]
  recorded := by simp [h.captures]
  unknown := by simp [World.entriesOf, h.entries, h.verified]

/-! ## The purchase orders over a call -/

/-- Notes stay readable, paid amounts stay in whole paise, and only the amount paid on `id`
may change. -/
structure Kept (id : ℕ) (s t : Db) : Prop where
  notes : ∀ j p, s.purchases.get? j = some p → ∃ q, t.purchases.get? j = some q ∧ NoteGrows p q
  cents : (∀ j p, s.purchases.get? j = some p → IsCents p.paidAmount) →
    ∀ j q, t.purchases.get? j = some q → IsCents q.paidAmount
  total : t.purchases.total SupplierPurchase.paidAmount =
    s.purchases.total SupplierPurchase.paidAmount + (paidOn t id - paidOn s id)

section Calls

variable {env : Payment.Env} {s t : Db} {id : ℕ} {p : SupplierPurchase}
  {f : SupplierPurchase → SupplierPurchase}

theorem NoteGrows.refl (p : SupplierPurchase) : NoteGrows p p := Or.inl rfl

theorem Kept.refl (id : ℕ) (s : Db) : Kept id s s where
  notes := fun j p hp => ⟨p, hp, NoteGrows.refl p⟩
  cents := fun h => h
  total := by ring

theorem paidOn_of_get? (hp : s.purchases.get? id = some p) : paidOn s id = p.paidAmount := by
  rw [paidOn, hp]
  rfl

theorem paidOn_of_modify (hp : s.purchases.get? id = some p)
    (ht : t.purchases = s.purchases.modify id f) : paidOn t id = (f p).paidAmount := by
  rw [paidOn, ht, Table.get?_modify_self, hp]
  rfl

theorem kept_modify (hp : s.purchases.get? id = some p)
    (ht : t.purchases = s.purchases.modify id f) (hnote : NoteGrows p (f p))
    (hcents : IsCents p.paidAmount → IsCents (f p).paidAmount) : Kept id s t where
  notes := by
    intro j q hq
    by_cases hj : j = id
    · subst hj
      rw [hp] at hq
      cases hq
      exact ⟨f p, by rw [ht, Table.get?_modify_self, hp, Option.map_some], hnote⟩
    · exact ⟨q, by rw [ht, Table.get?_modify_of_ne _ _ hj, hq], NoteGrows.refl q⟩
  cents := by
    intro hs j q hq
    rw [ht] at hq
    by_cases hj : j = id
    · subst hj
      rw [Table.get?_modify_self, hp, Option.map_some] at hq
      cases hq
      exact hcents (hs j p hp)
    · rw [Table.get?_modify_of_ne _ _ hj] at hq
      exact hs j q hq
  total := by
    rw [paidOn_of_modify hp ht, paidOn_of_get? hp, ht, Table.total_modify hp]
    ring

/-- The rises of a call add up to the change of the amount paid. -/
theorem sum_rise (pid : Option String) (id : ℕ) (s t : Db) :
    ((rise pid id s t).map Entry.amount).sum = paidOn t id - paidOn s id := by
  unfold rise
  split_ifs with h
  · rw [h]
    simp
  · simp

theorem rise_self (pid : Option String) (id : ℕ) (s : Db) : rise pid id s s = [] := if_pos rfl

theorem filter_rise_none (id : ℕ) (s t : Db) (pid : String) :
    (rise none id s t).filter (fun e => e.pid = some pid) = [] := by
  unfold rise
  split_ifs <;> simp

/-- A payment keeps the notes readable. -/
theorem kept_settle {i : ℕ} {profile : RetailerProfile} {pay : ℚ} {method : String}
    {note pid : Option String} (hp : s.purchases.get? id = some p) :
    Kept id s (settle id p i profile pay method note pid s) := by
  refine kept_modify hp settle_purchases (noteGrows_settledRow _ _ _ _ _) fun _ => ?_
  exact isCents_round2 _

theorem kept_pay {amount : Option ℚ} {payMethod : String} {note pid : Option String} :
    Kept id s (step env s (.pay id amount payMethod note pid)) := by
  rcases call_cases (plan env) s (.pay id amount payMethod note pid) with
    ⟨e, _, hcall⟩ | ⟨write, hwrite, hcall⟩
  · rw [step, hcall]
    exact Kept.refl id s
  · rw [step, hcall]
    obtain ⟨p, hp, _, ⟨_, rfl⟩ | ⟨_, _, i, profile, _, rfl⟩⟩ := payPurchase_eq_ok.1 hwrite
    · exact Kept.refl id s
    · exact kept_settle hp

/-- A verification with a wrong signature changes nothing. -/
theorem step_verify_invalid {roid pid signature : String} {amount : Option ℚ}
    (h : Integrations.verifyPaymentSignature env roid pid signature = false) :
    step env s (.verify id roid pid signature amount) = s := by
  rcases call_cases (plan env) s (.verify id roid pid signature amount) with
    ⟨e, _, hcall⟩ | ⟨write, hwrite, hcall⟩
  · exact hcall
  · obtain ⟨p, _, ⟨_, rfl⟩ | ⟨_, hvalid, _⟩⟩ := verifyRazorpayPay_eq_ok.1 hwrite
    · exact hcall
    · rw [h] at hvalid
      cases hvalid

/-- A verification of a payment that the note names changes nothing. -/
theorem step_verify_applied {roid pid signature : String} {amount : Option ℚ}
    (hp : s.purchases.get? id = some p) (h : AlreadyApplied p (some pid)) :
    step env s (.verify id roid pid signature amount) = s := by
  have hok : plan env (.verify id roid pid signature amount) s = .ok (fun t => t) :=
    verifyRazorpayPay_eq_ok.2 ⟨p, hp, Or.inl ⟨h, rfl⟩⟩
  exact call_of_ok hok

theorem alreadyApplied_of_recorded {pid : String} (hpid : pid ≠ "") (h : Recorded p pid) :
    AlreadyApplied p (some pid) := ⟨pid, by simp [truthy_some hpid], h⟩

theorem CleanId.ne_empty {pid : String} (h : CleanId pid) : pid ≠ "" := by
  rintro rfl
  obtain ⟨c, hc, _⟩ := h
  simp at hc

/-- A verification that the purchase order takes applies the amount. -/
theorem step_verify_takes {roid pid signature : String} {amount : Option ℚ} {rupees : ℚ} {i : ℕ}
    {profile : RetailerProfile}
    (hvalid : Integrations.verifyPaymentSignature env roid pid signature = true)
    (hclean : CleanId pid) (hcents : IsCents rupees)
    (hamount : ∀ a, amount = some a → round2 a = rupees)
    (hpending : pendingAmount p roid = some rupees)
    (h : Takes s id rupees pid p i profile) :
    step env s (.verify id roid pid signature amount) =
      settle id p i profile rupees "razorpay" (some ("order " ++ roid)) (some pid) s := by
  have hnew : ¬ AlreadyApplied p (some pid) := by
    rintro ⟨pid', hpid', hrec⟩
    rw [truthy_some hclean.ne_empty] at hpid'
    cases hpid'
    exact h.unnamed hrec
  have hpay : round2 ((amount.or (pendingAmount p roid)).getD (due p)) = rupees := by
    cases amount with
    | some a => exact hamount a rfl
    | none =>
      rw [Option.none_or, hpending]
      exact round2_of_isCents hcents
  have hmethod : payMethodOf "razorpay" = "razorpay" := by decide +kernel
  have hguards : PayGuards p (amount.or (pendingAmount p roid)) "razorpay" (some pid) := by
    refine ⟨h.due, by rw [hmethod]; decide, fun _ => ?_, by rw [hpay]; exact h.rules⟩
    rw [truthy_some hclean.ne_empty]
    simp
  have hok : plan env (.verify id roid pid signature amount) s =
      .ok (settle id p i profile rupees "razorpay" (some ("order " ++ roid)) (some pid)) := by
    refine verifyRazorpayPay_eq_ok.2 ⟨p, h.found, Or.inr ⟨hnew, hvalid, ?_⟩⟩
    refine payPurchase_eq_ok.2 ⟨p, h.found, h.isOpen, Or.inr ⟨hnew, hguards, i, profile,
      h.supplier, ?_⟩⟩
    rw [hpay, hmethod]
  exact call_of_ok hok

/-- What is charged for an amount of whole paise from a rupee on. -/
theorem paise_of_isCents {pay : ℚ} (hc : IsCents pay) (h : 1 ≤ pay) :
    ((Payment.paise pay : ℤ) : ℚ) / 100 = pay ∧ 0 ≤ Payment.paise pay := by
  obtain ⟨n, rfl⟩ := hc
  have hn : 100 ≤ n := by
    have : (100 : ℚ) ≤ n := by linarith
    exact_mod_cast this
  have hpaise : Payment.paise ((n : ℚ) / 100) = n := by
    unfold Payment.paise
    rw [show (n : ℚ) / 100 * 100 = n by ring, roundHalfEven_intCast]
    omega
  rw [hpaise]
  exact ⟨rfl, by omega⟩

/-- A checkout either leaves the database, or marks the note with what was asked for. -/
theorem step_createPay (env : Payment.Env) (gateway : Integrations.Gateway) (id : ℕ)
    (amount : Option ℚ) (now : ℕ) (s : Db) :
    step env s (.createPay gateway id amount now) = s ∧
        (∀ write, createRazorpayPay env gateway id amount now s ≠ .ok write) ∨
      ∃ p pay rz, s.purchases.get? id = some p ∧ IsCents pay ∧
        asked env gateway id amount now s = some (pay, rz) ∧
        step env s (.createPay gateway id amount now) =
          rewrite id (notedRow (pendingNote (noteText p) rz.razorpayOrderId pay)) s := by
  rcases call_cases (plan env) s (.createPay gateway id amount now) with
    ⟨e, herr, hcall⟩ | ⟨write, hwrite, hcall⟩
  · left
    refine ⟨hcall, fun write hok => ?_⟩
    rw [show createRazorpayPay env gateway id amount now s = .error e from herr] at hok
    cases hok
  · right
    obtain ⟨p, pay, profile, rz, hquote, hrz, rfl⟩ := createRazorpayPay_eq_ok hwrite
    obtain ⟨hp, _, _, rfl, _⟩ := razorpayQuote_eq_ok hquote
    refine ⟨p, _, rz, hp, isCents_round2 _, ?_, hcall⟩
    simp only [asked, hquote, hrz, Except.toOption, Option.map_some]

end Calls

/-! ## Acts -/

section Acts

variable {env : Payment.Env} {start : ℚ} {w : World} {t : Db} {id : ℕ}

/-- The notes of the gateway orders stay readable over a call. -/
theorem Kept.tagged (hk : Kept id w.db t) (h : Readable start w) :
    ∀ o ∈ w.orders, ∃ p, t.purchases.get? o.purchaseId = some p ∧ Tagged p o.roid o.rupees := by
  intro o ho
  obtain ⟨p, hp, htag⟩ := h.tagged o ho
  obtain ⟨q, hq, hgrow⟩ := hk.notes _ p hp
  exact ⟨q, hq, htag.grow hgrow⟩

/-- A payment id that a note names stays named over a call. -/
theorem Kept.recorded (hk : Kept id w.db t) {j : ℕ} {pid : String}
    (h : ∃ p, w.db.purchases.get? j = some p ∧ Recorded p pid) :
    ∃ p, t.purchases.get? j = some p ∧ Recorded p pid := by
  obtain ⟨p, hp, hrec⟩ := h
  obtain ⟨q, hq, hgrow⟩ := hk.notes j p hp
  exact ⟨q, hq, hrec.grow hgrow⟩

/-- A call that keeps the notes readable keeps the books, whatever it is recorded as. -/
theorem Readable.call (h : Readable start w) (hk : Kept id w.db t) (pid : Option String)
    (verified : List (String × ℕ)) :
    Readable start { w with db := t, entries := w.entries ++ rise pid id w.db t, verified } where
  unique := h.unique
  nonneg := h.nonneg
  tagged := hk.tagged h
  captured := h.captured
  pids := h.pids
  cents := hk.cents h.cents
  total := by
    show t.purchases.total _ = start + ((w.entries ++ rise pid id w.db t).map Entry.amount).sum
    rw [hk.total, h.total, List.map_append, List.sum_append, sum_rise]
    ring

/-- A manual payment is none of a gateway payment's entries. -/
theorem Accounted.pay (h : Accounted w) (hk : Kept id w.db t) :
    Accounted { w with db := t, entries := w.entries ++ rise none id w.db t } where
  settled := by
    intro c hc
    have := h.settled c hc
    show (w.entries ++ rise none id w.db t).filter _ = _
    rw [List.filter_append, filter_rise_none, List.append_nil]
    exact this
  recorded := fun c hc hv => ⟨(h.recorded c hc hv).1, hk.recorded (h.recorded c hc hv).2⟩
  unknown := by
    intro pid hpid
    obtain ⟨hentries, hverified⟩ := h.unknown pid hpid
    refine ⟨?_, hverified⟩
    show (w.entries ++ rise none id w.db t).filter _ = _
    rw [List.filter_append, filter_rise_none, List.append_nil]
    exact hentries

/-- A verification of `c` for the purchase order `id` was recorded. -/
theorem verified_append {db : Db} {es : List Entry} {c : Capture} {pid : String} :
    World.Verified { w with db := db, entries := es, verified := w.verified ++ [(pid, id)] } c ↔
      w.Verified c ∨ c.pid = pid ∧ c.order.purchaseId = id := by
  unfold World.Verified
  simp

theorem filter_rise_of_ne {pid pid' : String} (h : pid ≠ pid') (s : Db) :
    (rise (some pid) id s t).filter (fun e => e.pid = some pid') = [] := by
  unfold rise
  split_ifs <;> simp [h]

/-- A valid verification of a captured payment: it makes the payment's entry and names it
in the note when it is the first for the payment's own purchase order, and nothing else
does. -/
theorem Accounted.verify (h : Accounted w) (hr : Readable start w) (hk : Kept id w.db t)
    {c : Capture} (hc : c ∈ w.captures)
    (hcase : (c.order.purchaseId = id ∧ ¬ w.Verified c ∧ rise (some c.pid) id w.db t = [c.entry] ∧
        c.pid ≠ "" ∧ ∃ p, t.purchases.get? id = some p ∧ Recorded p c.pid) ∨
      rise (some c.pid) id w.db t = [] ∧ (c.order.purchaseId = id → w.Verified c)) :
    Accounted { w with
      db := t
      entries := w.entries ++ rise (some c.pid) id w.db t
      verified := w.verified ++ [(c.pid, id)] } where
  settled := by
    intro d hd
    have hentries := h.settled d hd
    show (w.entries ++ rise (some c.pid) id w.db t).filter (fun e => e.pid = some d.pid) = _
    rw [List.filter_append, show w.entries.filter (fun e => e.pid = some d.pid) = _ from hentries]
    simp only [verified_append]
    by_cases hpid : d.pid = c.pid
    · have hdc := hr.pids d hd c hc hpid
      subst hdc
      rcases hcase with ⟨hid, hfirst, hrise, _⟩ | ⟨hrise, hown⟩
      · rw [hrise, if_neg hfirst, if_pos (Or.inr ⟨rfl, hid⟩)]
        simp [Capture.entry]
      · rw [hrise, List.filter_nil, List.append_nil]
        by_cases hid : d.order.purchaseId = id
        · rw [if_pos (hown hid), if_pos (Or.inl (hown hid))]
        · simp only [hid, and_false, or_false]
    · rw [filter_rise_of_ne (Ne.symm hpid), List.append_nil]
      simp only [hpid, false_and, or_false]
  recorded := by
    intro d hd hv
    rcases verified_append.1 hv with hold | ⟨hpid, hid⟩
    · exact ⟨(h.recorded d hd hold).1, hk.recorded (h.recorded d hd hold).2⟩
    · have hdc := hr.pids d hd c hc hpid
      subst hdc
      rcases hcase with ⟨_, _, _, hne, hrec⟩ | ⟨_, hown⟩
      · exact ⟨hne, hid ▸ hrec⟩
      · have hold := hown hid
        exact ⟨(h.recorded d hd hold).1, hk.recorded (h.recorded d hd hold).2⟩
  unknown := by
    intro pid hpid
    obtain ⟨hentries, hverified⟩ := h.unknown pid hpid
    have hne : c.pid ≠ pid := hpid c hc
    refine ⟨?_, fun j => ?_⟩
    · show (w.entries ++ rise (some c.pid) id w.db t).filter (fun e => e.pid = some pid) = _
      rw [List.filter_append, filter_rise_of_ne hne, List.append_nil]
      exact hentries
    · rw [List.mem_append, List.mem_singleton]
      rintro (hold | hnew)
      · exact hverified j hold
      · exact hne (Prod.mk.inj hnew).1.symm

/-- A call that changes no database and verifies nothing changes no world. -/
theorem act_verify_invalid {roid pid signature : String} {amount : Option ℚ}
    (h : Integrations.verifyPaymentSignature env roid pid signature = false) :
    w.act env (.verify id roid pid signature amount) = w := by
  simp only [World.act, step_verify_invalid h, rise_self, List.append_nil, h, Bool.false_eq_true,
    if_false]

/-- The invariant over a verification that meets the condition. -/
theorem sound_verify (hr : Readable start w) (ha : Accounted w) {roid pid signature : String}
    {amount : Option ℚ} (hallowed : Allowed env w (.verify id roid pid signature amount))
    (hown : TakesItsOwn env w (.verify id roid pid signature amount)) :
    Readable start (w.act env (.verify id roid pid signature amount)) ∧
      Accounted (w.act env (.verify id roid pid signature amount)) := by
  cases hvalid : Integrations.verifyPaymentSignature env roid pid signature with
  | false =>
    rw [act_verify_invalid hvalid]
    exact ⟨hr, ha⟩
  | true =>
    obtain ⟨c, hc, rfl, rfl⟩ := hallowed hvalid
    set t := step env w.db (.verify id c.order.roid c.pid signature amount) with ht
    have hact : w.act env (.verify id c.order.roid c.pid signature amount) =
        { w with
          db := t
          entries := w.entries ++ rise (some c.pid) id w.db t
          verified := w.verified ++ [(c.pid, id)] } := by
      simp only [World.act, hvalid, if_true, ← ht]
    have hcond := hown hvalid c hc rfl rfl
    -- the database stays, or the payment is applied
    have hcases : t = w.db ∧ (c.order.purchaseId = id → w.Verified c) ∨
        c.order.purchaseId = id ∧ ¬ w.Verified c ∧ CleanId c.pid ∧
          ∃ p i profile, Takes w.db id c.order.rupees c.pid p i profile ∧
            t = settle id p i profile c.order.rupees "razorpay" (some ("order " ++ c.order.roid))
              (some c.pid) w.db := by
      by_cases hid : c.order.purchaseId = id
      · rw [if_pos hid] at hcond
        by_cases hv : w.Verified c
        · obtain ⟨hne, p, hp, hrec⟩ := ha.recorded c hc hv
          rw [hid] at hp
          exact Or.inl ⟨step_verify_applied hp (alreadyApplied_of_recorded hne hrec), fun _ => hv⟩
        · obtain ⟨hclean, hamount, p, i, profile, htakes⟩ := hcond hv
          obtain ⟨q, hq, htag⟩ := hr.tagged _ (hr.captured c hc)
          rw [hid, htakes.found] at hq
          cases hq
          have hcents : IsCents c.order.rupees := ⟨c.order.paise, rfl⟩
          exact Or.inr ⟨hid, hv, hclean, p, i, profile, htakes, step_verify_takes hvalid hclean
            hcents hamount (pendingAmount_of_tagged hcents htag) htakes⟩
      · rw [if_neg hid] at hcond
        refine Or.inl ⟨?_, fun h => absurd h hid⟩
        rcases hcond with hrefused | ⟨p, hp, happlied⟩
        · rcases call_cases (plan env) w.db (.verify id c.order.roid c.pid signature amount) with
            ⟨e, _, hcall⟩ | ⟨write, hwrite, _⟩
          · exact hcall
          · exact absurd hwrite (hrefused write)
        · exact step_verify_applied hp happlied
    rw [hact]
    rcases hcases with ⟨hsame, hverified⟩ | ⟨hid, hv, hclean, p, i, profile, htakes, hsettle⟩
    · have hk : Kept id w.db t := hsame ▸ Kept.refl id w.db
      refine ⟨hr.call hk _ _, ha.verify hr hk hc (Or.inr ⟨?_, hverified⟩)⟩
      rw [hsame, rise_self]
    · have hk : Kept id w.db t := hsettle ▸ kept_settle htakes.found
      have hcents := hr.cents id p htakes.found
      have hrupees : IsCents c.order.rupees := ⟨c.order.paise, rfl⟩
      have hpos := pos_of_rules hrupees htakes.rules
      have hwrite : t.purchases = w.db.purchases.modify id _ :=
        (congrArg Db.purchases hsettle).trans settle_purchases
      have hpaid : paidOn t id = p.paidAmount + c.order.rupees := by
        rw [paidOn_of_modify htakes.found hwrite]
        exact round2_of_isCents (hcents.add hrupees)
      have hrise : rise (some c.pid) id w.db t = [c.entry] := by
        have hne : ¬ paidOn t id = paidOn w.db id := by
          rw [hpaid, paidOn_of_get? htakes.found]
          linarith
        rw [rise, if_neg hne, hpaid, paidOn_of_get? htakes.found, add_sub_cancel_left, Capture.entry,
          hid]
      have hrec : ∃ q, t.purchases.get? id = some q ∧ Recorded q c.pid := by
        rw [hwrite, Table.get?_modify_self, htakes.found, Option.map_some]
        exact ⟨_, rfl, recorded_settledRow hclean _ _ _⟩
      exact ⟨hr.call hk _ _, ha.verify hr hk hc
        (Or.inl ⟨hid, hv, hrise, hclean.ne_empty, hrec⟩)⟩

/-- The invariant over a checkout that meets the condition. -/
theorem sound_create (hr : Readable start w) (ha : Accounted w) {gateway : Integrations.Gateway}
    {amount : Option ℚ} {now : ℕ} (hallowed : Allowed env w (.create gateway id amount now))
    (hown : TakesItsOwn env w (.create gateway id amount now)) :
    Readable start (w.act env (.create gateway id amount now)) ∧
      Accounted (w.act env (.create gateway id amount now)) := by
  rcases step_createPay env gateway id amount now w.db with
    ⟨hsame, hrefused⟩ | ⟨p, pay, rz, hp, hcents, hask, hstep⟩
  · have hnone : asked env gateway id amount now w.db = none := by
      cases hask : asked env gateway id amount now w.db with
      | none => rfl
      | some r =>
        obtain ⟨write, hok⟩ := (hown r.1 r.2 hask).1
        exact absurd hok (hrefused write)
    have hact : w.act env (.create gateway id amount now) = w := by
      simp only [World.act, hsame, hnone, Option.map_none, Option.toList_none, List.append_nil]
    rw [hact]
    exact ⟨hr, ha⟩
  · obtain ⟨hblank, hfresh⟩ := hallowed pay rz hask
    obtain ⟨_, hrupee, hunmarked⟩ := hown pay rz hask
    obtain ⟨hpaise, hnn⟩ := paise_of_isCents hcents hrupee
    set t := rewrite id (notedRow (pendingNote (noteText p) rz.razorpayOrderId pay)) w.db with ht
    have hact : w.act env (.create gateway id amount now) =
        { w with
          db := t
          orders := w.orders ++ [⟨rz.razorpayOrderId, id, Payment.paise pay⟩] } := by
      simp only [World.act, hstep, hask, Option.map_some, Option.toList_some]
    have hk : Kept id w.db t :=
      kept_modify hp rfl (noteGrows_pendingNote (hunmarked p hp)) fun h => h
    have hpaid : paidOn t id = paidOn w.db id := by
      rw [paidOn_of_modify hp rfl, paidOn_of_get? hp]
      rfl
    rw [hact]
    refine ⟨⟨?_, ?_, ?_, fun c hc => List.mem_append_left _ (hr.captured c hc), hr.pids,
      hk.cents hr.cents, ?_⟩, ⟨ha.settled, fun c hc hv => ⟨(ha.recorded c hc hv).1,
        hk.recorded (ha.recorded c hc hv).2⟩, ha.unknown⟩⟩
    · intro o ho o' ho' heq
      rcases List.mem_append.1 ho with ho | ho <;> rcases List.mem_append.1 ho' with ho' | ho'
      · exact hr.unique o ho o' ho' heq
      · rw [List.mem_singleton.1 ho'] at heq
        exact absurd heq (hfresh o ho)
      · rw [List.mem_singleton.1 ho] at heq
        exact absurd heq.symm (hfresh o' ho')
      · rw [List.mem_singleton.1 ho, List.mem_singleton.1 ho']
    · intro o ho
      rcases List.mem_append.1 ho with ho | ho
      · exact hr.nonneg o ho
      · rw [List.mem_singleton.1 ho]
        exact hnn
    · intro o ho
      rcases List.mem_append.1 ho with ho | ho
      · exact hk.tagged hr o ho
      · rw [List.mem_singleton.1 ho]
        refine ⟨notedRow (pendingNote (noteText p) rz.razorpayOrderId pay) p, ?_, ?_⟩
        · show (w.db.purchases.modify id _).get? id = _
          rw [Table.get?_modify_self, hp, Option.map_some]
        · show Tagged _ _ (((Payment.paise pay : ℤ) : ℚ) / 100)
          rw [hpaise]
          exact tagged_pendingNote hblank (hunmarked p hp)
    · show t.purchases.total _ = _
      rw [hk.total, hpaid, sub_self, add_zero]
      exact hr.total

/-- Every act that the gateway allows and that meets the condition keeps the invariant. -/
theorem sound_act (hr : Readable start w) (ha : Accounted w) {a : Act} (hallowed : Allowed env w a)
    (hown : TakesItsOwn env w a) : Readable start (w.act env a) ∧ Accounted (w.act env a) := by
  cases a with
  | create gateway id amount now => exact sound_create hr ha hallowed hown
  | capture order pid =>
    obtain ⟨horder, hfresh⟩ := hallowed
    obtain ⟨hentries, hunverified⟩ := ha.unknown pid hfresh
    refine ⟨⟨hr.unique, hr.nonneg, hr.tagged, ?_, ?_, hr.cents, hr.total⟩, ⟨?_, ?_, ?_⟩⟩
    · intro c hc
      rcases List.mem_append.1 hc with hc | hc
      · exact hr.captured c hc
      · rw [List.mem_singleton.1 hc]
        exact horder
    · intro c hc c' hc' heq
      rcases List.mem_append.1 hc with hc | hc <;> rcases List.mem_append.1 hc' with hc' | hc'
      · exact hr.pids c hc c' hc' heq
      · rw [List.mem_singleton.1 hc'] at heq
        exact absurd heq (hfresh c hc)
      · rw [List.mem_singleton.1 hc] at heq
        exact absurd heq.symm (hfresh c' hc')
      · rw [List.mem_singleton.1 hc, List.mem_singleton.1 hc']
    · intro c hc
      rcases List.mem_append.1 hc with hc | hc
      · exact ha.settled c hc
      · rw [List.mem_singleton.1 hc]
        have hnot : ¬ World.Verified (w.act env (.capture order pid)) ⟨pid, order⟩ := hunverified _
        rw [if_neg hnot]
        exact hentries
    · intro c hc hv
      rcases List.mem_append.1 hc with hc | hc
      · exact ha.recorded c hc hv
      · rw [List.mem_singleton.1 hc] at hv
        exact absurd hv (hunverified _)
    · intro pid' hpid'
      exact ha.unknown pid' fun c hc => hpid' c (List.mem_append_left _ hc)
  | verify id roid pid signature amount => exact sound_verify hr ha hallowed hown
  | pay id amount payMethod note => exact ⟨hr.call kept_pay _ _, ha.pay kept_pay⟩

/-- In every run from a world where nothing has been ordered at the gateway, in which the
calls meet the condition, every captured payment that was verified for its own purchase
order has been applied exactly once, on that purchase order and for its own amount. -/
theorem settledOnce_of_takesItsOwn (hw : Opening w) (acts : List Act)
    (hallowed : Stepwise (World.act env) (Allowed env) w acts)
    (hown : Stepwise (World.act env) (TakesItsOwn env) w acts) :
    Throughout (World.act env)
      (SettledOnce (w.db.purchases.total SupplierPurchase.paidAmount)) w acts := by
  have hsteps : Stepwise (World.act env) (fun s a => Allowed env s a ∧ TakesItsOwn env s a) w acts :=
    fun pre a hpre => ⟨hallowed pre a hpre, hown pre a hpre⟩
  have hsound := throughout_of_stepwise
    (P := fun s => Readable (w.db.purchases.total SupplierPurchase.paidAmount) s ∧ Accounted s)
    (fun s a hs ha => sound_act hs.1 hs.2 ha.1 ha.2) ⟨hw.readable, hw.accounted⟩ hsteps
  intro pre hpre
  obtain ⟨hr, ha⟩ := hsound pre hpre
  refine ⟨hr.total, fun c hc hv => ?_⟩
  rw [ha.settled c hc, if_pos hv]

end Acts

/-! ## A settlement verified for another amount -/

/-- A shop, user 1, with a received purchase order of ₹100. -/
def receivedWorld : World where
  db :=
    { Db.empty with
      users := .ofList [{ (default : User) with role := .retailer }]
      profiles := .ofList
        [{ (default : RetailerProfile) with userId := 1, payableBalance := 100 }]
      purchases := .ofList
        [{ (default : SupplierPurchase) with
            supplierUserId := 1, status := .received, total := 100 }] }
  orders := []
  captures := []
  entries := []
  verified := []

/-- A gateway that answers every order request with one id, and every link request. -/
def gatewayGiving (roid : String) : Integrations.Gateway where
  orders := fun request => .ok ⟨roid, request.amount, "INR", none, some request.receipt, none⟩
  paymentLinks := fun request =>
    .ok ⟨some "plink_A", none, some request.amount, none, some request.referenceId⟩

/-- A checkout for all that is due, and its payment. -/
def paidAtGateway : List Act :=
  [.create (gatewayGiving "order_A") 1 none 0, .capture ⟨"order_A", 1, 10000⟩ "pay_A"]

/-- The verification of the payment, with an amount or without. -/
def verifyCall (amount : Option ℚ) : Act :=
  .verify 1 "order_A" "pay_A" "secret#order_A|pay_A" amount

theorem opening_receivedWorld : Opening receivedWorld := by
  refine ⟨rfl, rfl, rfl, rfl, ?_⟩
  intro id p hp
  have hrows : receivedWorld.db.purchases.rows.all (fun r => r.2.paidAmount = 0) := by
    decide +kernel
  have hzero := List.all_eq_true.1 hrows _ (Table.get?_eq_some.1 hp)
  rw [of_decide_eq_true hzero]
  exact isCents_zero

theorem asked_receivedWorld {pay : ℚ} {rz : RazorpayOrder}
    (h : asked Payment.plainEnv (gatewayGiving "order_A") 1 none 0 receivedWorld.db =
      some (pay, rz)) : pay = 100 ∧ rz.razorpayOrderId = "order_A" := by
  have hask : (asked Payment.plainEnv (gatewayGiving "order_A") 1 none 0 receivedWorld.db).map
      (fun r => (r.1, r.2.razorpayOrderId)) = some (100, "order_A") := by decide +kernel
  rw [h, Option.map_some] at hask
  exact Prod.mk.inj (Option.some.inj hask)

/-- The gateway's guarantees allow the run, whatever amounts the verifications pass. -/
theorem allowed_verifyCalls (amount amount' : Option ℚ) :
    Stepwise (World.act Payment.plainEnv) (Allowed Payment.plainEnv) receivedWorld
      (paidAtGateway ++ [verifyCall amount, verifyCall amount']) := by
  refine stepwise_cons.2 ⟨?_, stepwise_cons.2 ⟨?_, stepwise_cons.2 ⟨?_, stepwise_cons.2 ⟨?_,
    stepwise_nil _ _⟩⟩⟩⟩
  · intro pay rz hask
    rw [(asked_receivedWorld hask).2]
    exact ⟨by decide, by simp [receivedWorld]⟩
  · have horder : (⟨"order_A", 1, 10000⟩ : GatewayOrder) ∈
        (run (World.act Payment.plainEnv) receivedWorld (paidAtGateway.take 1)).orders := by
      decide +kernel
    exact ⟨horder, fun c hc => absurd hc List.not_mem_nil⟩
  · intro _
    exact ⟨_, List.mem_singleton_self _, rfl, rfl⟩
  · intro _
    exact ⟨_, List.mem_singleton_self _, rfl, rfl⟩

/-- The world after the checkout and its payment. -/
def paidWorld : World := run (World.act Payment.plainEnv) receivedWorld paidAtGateway

/-- The purchase order takes the payment that was made for it. -/
theorem takes_paidWorld :
    ∃ p i profile, Takes paidWorld.db 1 (GatewayOrder.rupees ⟨"order_A", 1, 10000⟩) "pay_A"
      p i profile := by
  have hrupees : GatewayOrder.rupees ⟨"order_A", 1, 10000⟩ = 100 := by
    norm_num [GatewayOrder.rupees]
  have hrow : (paidWorld.db.purchases.get? 1).any (fun p => decide (IsOpen p ∧ 0 < due p ∧
      p.paidAmount = 0 ∧ p.total = 100 ∧ p.supplierUserId = 1 ∧ ¬ Recorded p "pay_A")) = true := by
    decide +kernel
  have hprofile : (profileOf paidWorld.db 1).isSome = true := by decide +kernel
  obtain ⟨p, hp, hcase⟩ := (Option.any_eq_true _ _).1 hrow
  obtain ⟨hopen, hdue, hpaid, htotal, hsupplier, hunnamed⟩ := of_decide_eq_true hcase
  obtain ⟨⟨i, profile⟩, hq⟩ := Option.isSome_iff_exists.1 hprofile
  have huser : paidWorld.db.users.get? 1 = some { (default : User) with role := .retailer } := by
    decide +kernel
  refine ⟨p, i, profile, hp, hopen, hdue, ?_, ?_, hunnamed⟩
  · rw [hrupees, htotal, hpaid]
    decide +kernel
  · rw [hsupplier]
    exact ⟨⟨_, huser, rfl⟩, hq⟩

theorem settledOnce_paidAtGateway :
    Throughout (World.act Payment.plainEnv)
      (SettledOnce (receivedWorld.db.purchases.total SupplierPurchase.paidAmount)) receivedWorld
      (paidAtGateway ++ [verifyCall none, verifyCall none]) := by
  refine settledOnce_of_takesItsOwn opening_receivedWorld _ (allowed_verifyCalls none none) ?_
  refine stepwise_cons.2 ⟨?_, stepwise_cons.2 ⟨trivial, stepwise_cons.2 ⟨?_, stepwise_cons.2 ⟨?_,
    stepwise_nil _ _⟩⟩⟩⟩
  · intro pay rz hask
    obtain ⟨rfl, hroid⟩ := asked_receivedWorld hask
    have hok : (createRazorpayPay Payment.plainEnv (gatewayGiving "order_A") 1 none 0
        receivedWorld.db).isOk = true := by decide +kernel
    refine ⟨?_, by norm_num, fun p hp => ?_⟩
    · cases hcall : createRazorpayPay Payment.plainEnv (gatewayGiving "order_A") 1 none 0
        receivedWorld.db with
      | error e => rw [hcall] at hok; cases hok
      | ok write => exact ⟨write, rfl⟩
    have hrow : (receivedWorld.db.purchases.get? 1).all
        (fun p => decide (¬ Contains (pendingTag "order_A") (noteText p))) = true := by
      decide +kernel
    rw [hp] at hrow
    rw [hroid]
    exact of_decide_eq_true hrow
  · intro _ c hc _ _
    rw [List.mem_singleton.1 hc, if_pos rfl]
    intro _
    exact ⟨⟨'A', by decide, by decide⟩, fun a ha => absurd ha (by simp), takes_paidWorld⟩
  · intro _ c hc _ _
    rw [List.mem_singleton.1 hc, if_pos rfl]
    have hverified : ("pay_A", 1) ∈ (paidWorld.act Payment.plainEnv (verifyCall none)).verified := by
      decide +kernel
    exact fun hnot => absurd hverified hnot

/-- Of the ₹100 captured, the verification applies the ₹80 that it passes. -/
theorem verifyCall_not_settledOnce :
    Stepwise (World.act Payment.plainEnv) (Allowed Payment.plainEnv) receivedWorld
        (paidAtGateway ++ [verifyCall (some 80), verifyCall none]) ∧
      ¬ Throughout (World.act Payment.plainEnv)
        (SettledOnce (receivedWorld.db.purchases.total SupplierPurchase.paidAmount)) receivedWorld
        (paidAtGateway ++ [verifyCall (some 80), verifyCall none]) := by
  refine ⟨allowed_verifyCalls (some 80) none, ?_⟩
  intro h
  have hentries := h.final.once ⟨"pay_A", "order_A", 1, 10000⟩ (List.mem_singleton_self _)
    (by decide +kernel)
  revert hentries
  decide +kernel

end Purchase

end SweetCrust
