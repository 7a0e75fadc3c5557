import SweetCrust.Lib.Runs
import SweetCrust.Payment.Frames

/-!
# Which order a gateway payment pays

Razorpay keeps its own books: the gateway orders it created, each with the notes
the service sent, and the payments it took.  Its signature binds the two gateway
ids and nothing else, so that a gateway payment pays the order it was made for is
up to the service.  `razorpay_create` stores the gateway order it got for an order,
but `razorpay_verify` never compares the signed gateway order with the stored one.

* `Books`, `World`, `Act`, `step` — the database, Razorpay's books, and the calls and
  payments that move them.
* `Allowed` — what Razorpay and its signatures guarantee of an act.
* `Sound` — the invariant that ties the stored gateway orders to the books.
* `boundRun_of_paysItsOwn` — when verifications present the gateway order stored for
  their order, every payment pays its own order, and no payment pays two.
-/

namespace SweetCrust

open Tabular Session Decimal Runs Text

namespace Payment

/-- A payment that Razorpay took: its id, the gateway order it pays (a payment link
pays none), and the order that the notes name. -/
structure Capture where
  pid : String
  roid : Option String
  note : String

/-- Razorpay's books. -/
structure Books where
  /-- The gateway orders, each with the order its notes name. -/
  orders : List (String × String)
  /-- The orders that the notes of the payment links name. -/
  links : List String
  captures : List Capture

structure World where
  db : Db
  books : Books

/-- A call of the payment API, or a payment at Razorpay. -/
inductive Act
  | create (gateway : Gateway) (userId : ℕ) (user : User) (orderId : ℕ) (usePaymentLink : Bool)
      (txn : String)
  | capture (roid pid note : String)
  | captureLink (pid note : String)
  | verify (userId orderId : ℕ) (roid pid signature txn : String)
  | webhook (body : WebhookBody) (signature : String)

/-- The text under which the notes name an order. -/
def noteText (o : ℕ) : String := String.ofList (natText o)

/-- The gateway order that Razorpay answers to a `razorpay_create` call, if the call
gets as far as asking for one. -/
def answered (env : Env) (gateway : Gateway) (db : Db) (userId o : ℕ) : Option RazorpayOrder :=
  match ownOrder db userId o with
  | none => none
  | some order =>
    if (latestPayment db o).any fun r => r.2.status = .paid then none
    else (createOrder env gateway order.finalAmount order.orderNumber
      (notesOf userId o order)).toOption

/-- The world after an act. -/
def step (env : Env) (w : World) : Act → World
  | .create gateway userId user o link txn =>
    let asked := answered env gateway w.db userId o
    { db := final (razorpayCreate env gateway userId user o link txn) w.db
      books :=
        { w.books with
          orders := w.books.orders ++
            (asked.map fun rz => (rz.razorpayOrderId, noteText o)).toList
          links := w.books.links ++ if link ∧ asked.isSome then [noteText o] else [] } }
  | .capture roid pid note =>
    { w with books := { w.books with captures := w.books.captures ++ [⟨pid, some roid, note⟩] } }
  | .captureLink pid note =>
    { w with books := { w.books with captures := w.books.captures ++ [⟨pid, none, note⟩] } }
  | .verify userId o roid pid signature txn =>
    { w with db := final (razorpayVerify env userId o roid pid signature txn) w.db }
  | .webhook body signature => { w with db := final (razorpayWebhook env body signature) w.db }

/-- What Razorpay guarantees: ids are new and hold no bar; it takes payments only for
gateway orders and links of its books; a signed pair of ids is that of a payment it
took, and so is what a signed webhook body reports. -/
def Allowed (env : Env) (w : World) : Act → Prop
  | .create gateway userId _ o _ _ => ∀ rz, answered env gateway w.db userId o = some rz →
      '|' ∉ rz.razorpayOrderId.toList ∧ ∀ note, (rz.razorpayOrderId, note) ∉ w.books.orders
  | .capture roid pid note => (roid, note) ∈ w.books.orders ∧ '|' ∉ pid.toList ∧
      ∀ c ∈ w.books.captures, c.pid ≠ pid
  | .captureLink pid note => note ∈ w.books.links ∧ '|' ∉ pid.toList ∧
      ∀ c ∈ w.books.captures, c.pid ≠ pid
  | .verify _ _ roid pid signature _ => verifyPaymentSignature env roid pid signature = true →
      ∃ c ∈ w.books.captures, ∃ r, c.roid = some r ∧ r ++ "|" ++ c.pid = roid ++ "|" ++ pid
  | .webhook body signature => verifyWebhookSignature env body.raw signature = true →
      ∀ payload event o, Announces body payload event o →
        ∃ c ∈ w.books.captures, payload.paymentId = some c.pid ∧ payload.orderId = some c.note

/-- The newest payment of the order is paid. -/
def PaidOrder (db : Db) (o : ℕ) : Prop := ∃ i p, latestPayment db o = some (i, p) ∧ p.status = .paid

theorem paidOrder_iff {db : Db} {o : ℕ} :
    PaidOrder db o ↔ (latestPayment db o).map (fun r => r.2.status) = some .paid := by
  unfold PaidOrder
  cases latestPayment db o with
  | none => simp
  | some r => simp [Prod.ext_iff, eq_comm]

instance (db : Db) (o : ℕ) : Decidable (PaidOrder db o) := decidable_of_iff' _ paidOrder_iff

/-- The gateway order that `razorpay_create` stored for an order last. -/
def storedOrder (db : Db) (o : ℕ) : Option String :=
  (latestPayment db o).bind fun r =>
    r.2.gatewayResponse.razorpayOrder.map RazorpayOrder.razorpayOrderId

/-- An order's payment becomes paid. -/
def BecomesPaid (o : ℕ) (db t : Db) : Prop := ¬ PaidOrder db o ∧ PaidOrder t o

instance (o : ℕ) (db t : Db) : Decidable (BecomesPaid o db t) := inferInstanceAs (Decidable (_ ∧ _))

/-- The payment id that an act presents. -/
def Act.paymentId : Act → Option String
  | .verify _ _ _ pid _ _ => some pid
  | .webhook body _ => body.payload.bind WebhookPayload.paymentId
  | _ => none

/-- The act marks order `o` paid with the payment `pid`. -/
def Marks (env : Env) (w : World) (a : Act) (pid : String) (o : ℕ) : Prop :=
  a.paymentId = some pid ∧ BecomesPaid o w.db (step env w a).db

/-- In a run of acts, every payment pays the order it was made for. -/
structure BoundRun (env : Env) (w : World) (acts : List Act) : Prop where
  /-- A verification marks an order paid only with the gateway order stored for it. -/
  verified : ∀ pre userId o o' roid pid signature txn,
    pre ++ [Act.verify userId o' roid pid signature txn] <+: acts →
    BecomesPaid o (run (step env) w pre).db
      (step env (run (step env) w pre) (.verify userId o' roid pid signature txn)).db →
    storedOrder (run (step env) w pre).db o = some roid
  /-- No payment id marks two orders. -/
  exclusive : ∀ pre pre' a b pid o o', pre ++ [a] <+: acts → pre' ++ [b] <+: acts →
    Marks env (run (step env) w pre) a pid o → Marks env (run (step env) w pre') b pid o' → o = o'

/-- The condition on the calls: a verification that gets as far as a valid signature
presents the gateway order stored for its order, and webhooks are checked. -/
def PaysItsOwn (env : Env) (w : World) : Act → Prop
  | .verify userId o roid pid signature _ => (ownOrder w.db userId o).isSome → ¬ PaidOrder w.db o →
      verifyPaymentSignature env roid pid signature = true → storedOrder w.db o = some roid
  | .webhook _ _ => (truthy env.settings.razorpayWebhookSecret).isSome
  | _ => True

/-- Nothing has been ordered at Razorpay yet. -/
structure Unused (w : World) : Prop where
  orders : w.books.orders = []
  links : w.books.links = []
  captures : w.books.captures = []
  stored : ∀ o, storedOrder w.db o = none

/-! ## What the handlers store and mark -/

section Effects

variable {env : Env} {db t : Db} {o o' userId : ℕ}

theorem paidOrder_of_latest {i : ℕ} {p : SweetCrust.Payment}
    (hp : latestPayment db o = some (i, p)) : PaidOrder db o ↔ p.status = .paid := by
  constructor
  · rintro ⟨j, q, hq, hpaid⟩
    rw [hp] at hq
    cases hq
    exact hpaid
  · exact fun h => ⟨i, p, hp, h⟩

theorem Same.paidOrder (h : Same o db t) : PaidOrder t o ↔ PaidOrder db o := by
  unfold PaidOrder
  rw [h.payment]

theorem Same.storedOrder (h : Same o db t) :
    Payment.storedOrder t o = Payment.storedOrder db o := by
  unfold Payment.storedOrder
  rw [h.payment]

/-- Rewriting a payment without touching its stored gateway order. -/
theorem storedOrder_of_write {i : ℕ} {p : SweetCrust.Payment}
    {f : SweetCrust.Payment → SweetCrust.Payment} (hp : latestPayment db o' = some (i, p))
    (ht : t.payments = db.payments.modify i f) (hf : ∀ q, (f q).orderId = q.orderId)
    (hg : ∀ q, (f q).gatewayResponse.razorpayOrder = q.gatewayResponse.razorpayOrder) (o : ℕ) :
    storedOrder t o = storedOrder db o := by
  unfold storedOrder
  by_cases h : o = o'
  · subst h
    rw [latestPayment_modify hp ht hf, hp, Option.bind_some, Option.bind_some, hg]
  · rw [latestPayment_modify_of_ne hp ht hf h]

theorem storedOrder_withPayment {order : Order} {txn : String}
    (hp : latestPayment db o' = none) (o : ℕ) :
    storedOrder (withPayment userId o' order txn db) o = storedOrder db o := by
  by_cases h : o = o'
  · subst h
    unfold storedOrder
    rw [latestPayment_withPayment, hp]
    rfl
  · exact (same_withPayment h).storedOrder

/-- A verification stores no other gateway order. -/
theorem storedOrder_razorpayVerify {roid pid sig txn : String}
    (ht : t ∈ commits (razorpayVerify env userId o' roid pid sig txn) db) (o : ℕ) :
    storedOrder t o = storedOrder db o := by
  have hrel : ∀ o, storedOrder t o = storedOrder db o := by
    refine rel_of_found (P := fun a b => ∀ o, storedOrder b o = storedOrder a o)
      (fun a b c hab hbc o => (hbc o).trans (hab o))
      (fun db h => quiet_razorpayVerify_notFound h)
      (fun db order h hp => commits_razorpayVerify_missing h hp)
      (fun db order hp => storedOrder_withPayment hp) ?_ ht
    intro db order i p hown hp t ht
    obtain ⟨_, rfl | rfl⟩ := mem_commits_razorpayVerify hown hp ht
    · exact storedOrder_of_write hp (invoiced_payments _ _ _) (fun q => rfl) fun q => rfl
    · exact storedOrder_of_write hp rfl (fun q => rfl) fun q => rfl
  exact hrel o

/-- A verification with a wrong signature marks nothing. -/
theorem not_paidOrder_of_invalid {roid pid sig txn : String}
    (hsig : verifyPaymentSignature env roid pid sig = false)
    (ht : t ∈ commits (razorpayVerify env userId o roid pid sig txn) db)
    (hdb : ¬ PaidOrder db o) : ¬ PaidOrder t o := by
  have hrel : ¬ PaidOrder db o → ¬ PaidOrder t o := by
    refine rel_of_found (P := fun a b => ¬ PaidOrder a o → ¬ PaidOrder b o)
      (fun a b c hab hbc h => hbc (hab h))
      (fun db h => quiet_razorpayVerify_notFound h)
      (fun db order h hp => commits_razorpayVerify_missing h hp) ?_ ?_ ht
    · intro db order _ _
      rw [paidOrder_of_latest (latestPayment_withPayment userId o order txn db)]
      simp [openedPayment]
    · intro db order i p hown hp t ht hopen
      rw [paidOrder_of_latest hp] at hopen
      rw [commits_razorpayVerify_invalid hown hp hopen hsig, List.mem_singleton] at ht
      have hp' : latestPayment (failByVerify o i db) o =
          some (i, failedPayment "Invalid Razorpay signature" p) :=
        latestPayment_modify hp rfl fun q => rfl
      rw [ht, paidOrder_of_latest hp']
      simp [failedPayment]
  exact hrel hdb

/-- What a verification that marks an order must have passed. -/
theorem verify_of_becomesPaid {roid pid sig txn : String}
    (h : BecomesPaid o db (final (razorpayVerify env userId o' roid pid sig txn) db)) :
    o' = o ∧ (ownOrder db userId o).isSome ∧ verifyPaymentSignature env roid pid sig = true := by
  obtain ⟨hopen, hpaid⟩ := h
  rcases final_mem_or (razorpayVerify env userId o' roid pid sig txn) db with hmem | heq
  swap
  · rw [heq] at hpaid
    exact absurd hpaid hopen
  have ho : o' = o := by
    by_contra hne
    exact hopen ((same_razorpayVerify_of_ne (Ne.symm hne) hmem).paidOrder.1 hpaid)
  subst ho
  refine ⟨rfl, ?_, ?_⟩
  · cases hown : ownOrder db userId o' with
    | some order => rfl
    | none => exact absurd hmem ((quiet_razorpayVerify_notFound hown).notMem_commits _)
  · by_contra hsig
    exact not_paidOrder_of_invalid (by simpa using hsig) hmem hopen hpaid

/-- A webhook delivery stores no other gateway order. -/
theorem storedOrder_razorpayWebhook {body : WebhookBody} {signature : String}
    (ht : t ∈ commits (razorpayWebhook env body signature) db) (o : ℕ) :
    storedOrder t o = storedOrder db o := by
  obtain ⟨payload, event, o', order, i, p, _, _, _, hp, _, rfl⟩ := mem_commits_razorpayWebhook ht
  exact storedOrder_of_write (f := reportedPayment event payload.paymentId) hp rfl
    (fun q => rfl) (fun q => rfl) o

/-- What a webhook delivery that marks an order must have passed and announced. -/
theorem webhook_of_becomesPaid {body : WebhookBody} {signature : String}
    (h : BecomesPaid o db (final (razorpayWebhook env body signature) db)) :
    WebhookPasses env body signature ∧ ∃ payload event, Announces body payload event o := by
  obtain ⟨hopen, hpaid⟩ := h
  by_cases hquiet : Quiet (razorpayWebhook env body signature) db
  · rw [hquiet.final] at hpaid
    exact absurd hpaid hopen
  obtain ⟨payload, event, o', order, i, p, hpass, hbody, hord, hp, hunpaid⟩ :=
    razorpayWebhook_commits hquiet
  have hfinal : final (razorpayWebhook env body signature) db =
      settleByWebhook o' i order event payload.paymentId db := by
    unfold Session.final
    rw [commits_razorpayWebhook hpass hbody hord hp, if_neg hunpaid]
    rfl
  have ho : o' = o := by
    by_contra hne
    have hsame : Same o db (settleByWebhook o' i order event payload.paymentId db) :=
      same_of_write hp (Ne.symm hne) rfl (fun q => rfl)
        (Table.get?_modify_of_ne _ _ (Ne.symm hne))
    rw [hfinal] at hpaid
    exact hopen (hsame.paidOrder.1 hpaid)
  subst ho
  exact ⟨hpass, payload, event, hbody⟩

/-- After a `razorpay_create` call an order's stored gateway order is the one it was,
or the one that Razorpay just answered for it. -/
theorem storedOrder_razorpayCreate {gateway : Gateway} {user : User} {link : Bool} {txn r : String}
    (ht : t ∈ commits (razorpayCreate env gateway userId user o' link txn) db)
    (hr : storedOrder t o = some r) :
    storedOrder db o = some r ∨
      o = o' ∧ ∃ rz, answered env gateway db userId o' = some rz ∧ rz.razorpayOrderId = r := by
  by_cases hne : o = o'
  swap
  · left
    rw [← (same_razorpayCreate_of_ne hne ht).storedOrder, hr]
  subst hne
  -- once the payment row is there
  have hfound : ∀ (db : Db) {order : Order} {i : ℕ} {p : SweetCrust.Payment},
      ownOrder db userId o = some order → latestPayment db o = some (i, p) →
      t ∈ commits (razorpayCreate env gateway userId user o link txn) db →
      ∃ rz, createOrder env gateway order.finalAmount order.orderNumber
        (notesOf userId o order) = .ok rz ∧ rz.razorpayOrderId = r ∧ p.status ≠ .paid := by
    intro db order i p hown hp ht
    obtain ⟨hpaid, rz, rzLink, hrz, rfl⟩ := mem_commits_razorpayCreate hown hp ht
    have hp' : latestPayment (storeCreated o i rz rzLink db) o =
        some (i, orderedPayment rz rzLink p) := latestPayment_modify hp rfl fun q => rfl
    unfold storedOrder at hr
    rw [hp'] at hr
    exact ⟨rz, hrz, by simpa [orderedPayment] using hr, hpaid⟩
  cases hown : ownOrder db userId o with
  | none => exact absurd ht ((quiet_razorpayCreate_notFound hown).notMem_commits t)
  | some order =>
    right
    refine ⟨rfl, ?_⟩
    unfold answered
    simp only [hown]
    cases hp : latestPayment db o with
    | some q =>
      obtain ⟨rz, hrz, hroid, hpaid⟩ := hfound db hown hp ht
      exact ⟨rz, by simp [hpaid, hrz, Except.toOption], hroid⟩
    | none =>
      rw [commits_razorpayCreate_missing hown hp, List.mem_cons] at ht
      rcases ht with rfl | ht
      · rw [storedOrder_withPayment hp] at hr
        unfold storedOrder at hr
        rw [hp] at hr
        cases hr
      · obtain ⟨rz, hrz, hroid, _⟩ :=
          hfound (withPayment userId o order txn db) hown
            (latestPayment_withPayment userId o order txn db) ht
        exact ⟨rz, by simp [hrz, Except.toOption], hroid⟩

end Effects

/-! ## The invariant -/

theorem noteText_injective {o o' : ℕ} (h : noteText o = noteText o') : o = o' := by
  have hlist : natText o = natText o' := by simpa [noteText] using congrArg String.toList h
  have hparse := parseInt_natText o
  rw [hlist, parseInt_natText o'] at hparse
  exact_mod_cast (Option.some.inj hparse).symm

theorem parseInt_noteText (o : ℕ) : parseInt (noteText o).toList = some (o : ℤ) := by
  rw [noteText, String.toList_ofList]
  exact parseInt_natText o

/-- The signed text determines the two ids it joins when those hold no bar. -/
theorem signed_injective {r p r' p' : String} (hr : '|' ∉ r.toList) (hp : '|' ∉ p.toList)
    (h : r ++ "|" ++ p = r' ++ "|" ++ p') : r = r' ∧ p = p' := by
  have hlist : r.toList ++ '|' :: p.toList = r'.toList ++ '|' :: p'.toList := by
    have := congrArg String.toList h
    simpa using this
  obtain ⟨hrr, _, hpp⟩ := (List.append_cons_inj_of_notMem hr hp).1 hlist
  exact ⟨String.toList_inj.1 hrr, String.toList_inj.1 hpp⟩

/-- The books are consistent, and the gateway order stored for an order is one that
the books hold for it. -/
structure Sound (w : World) : Prop where
  orderNote : ∀ e ∈ w.books.orders, ∃ o, e.2 = noteText o
  orderBar : ∀ e ∈ w.books.orders, '|' ∉ e.1.toList
  /-- A gateway order has one set of notes. -/
  functional : ∀ r n n', (r, n) ∈ w.books.orders → (r, n') ∈ w.books.orders → n = n'
  linkNote : ∀ n ∈ w.books.links, ∃ o, n = noteText o
  captureNote : ∀ c ∈ w.books.captures, ∃ o, c.note = noteText o
  captureBar : ∀ c ∈ w.books.captures, '|' ∉ c.pid.toList
  /-- A payment carries the notes of the gateway order it pays. -/
  captureOrder : ∀ c ∈ w.books.captures, ∀ r, c.roid = some r → (r, c.note) ∈ w.books.orders
  /-- A payment id is given once. -/
  unique : ∀ c ∈ w.books.captures, ∀ c' ∈ w.books.captures, c.pid = c'.pid → c = c'
  stored : ∀ o r, storedOrder w.db o = some r → (r, noteText o) ∈ w.books.orders

theorem Unused.sound {w : World} (h : Unused w) : Sound w where
  orderNote := by simp [h.orders]
  orderBar := by simp [h.orders]
  functional := by simp [h.orders]
  linkNote := by simp [h.links]
  captureNote := by simp [h.captures]
  captureBar := by simp [h.captures]
  captureOrder := by simp [h.captures]
  unique := by simp [h.captures]
  stored := by simp [h.stored]

section Invariant

variable {env : Env} {w : World}

/-- A change of the database that keeps the stored gateway orders keeps the invariant. -/
theorem Sound.withDb {db : Db} (h : Sound w) (hdb : ∀ o, storedOrder db o = storedOrder w.db o) :
    Sound { w with db := db } where
  orderNote := h.orderNote
  orderBar := h.orderBar
  functional := h.functional
  linkNote := h.linkNote
  captureNote := h.captureNote
  captureBar := h.captureBar
  captureOrder := h.captureOrder
  unique := h.unique
  stored := fun o r hr => h.stored o r (by rw [← hdb o]; exact hr)

/-- A new payment for a gateway order or a link of the books keeps the invariant. -/
theorem Sound.withCapture (h : Sound w) (c : Capture) (hnote : ∃ o, c.note = noteText o)
    (hbar : '|' ∉ c.pid.toList) (horder : ∀ r, c.roid = some r → (r, c.note) ∈ w.books.orders)
    (hnew : ∀ c' ∈ w.books.captures, c'.pid ≠ c.pid) :
    Sound { w with books := { w.books with captures := w.books.captures ++ [c] } } where
  orderNote := h.orderNote
  orderBar := h.orderBar
  functional := h.functional
  linkNote := h.linkNote
  captureNote := by
    intro d hd
    rcases List.mem_append.1 hd with hd | hd
    · exact h.captureNote d hd
    · rw [List.mem_singleton.1 hd]
      exact hnote
  captureBar := by
    intro d hd
    rcases List.mem_append.1 hd with hd | hd
    · exact h.captureBar d hd
    · rw [List.mem_singleton.1 hd]
      exact hbar
  captureOrder := by
    intro d hd
    rcases List.mem_append.1 hd with hd | hd
    · exact h.captureOrder d hd
    · rw [List.mem_singleton.1 hd]
      exact horder
  unique := by
    intro d hd d' hd' heq
    rcases List.mem_append.1 hd with hd | hd <;> rcases List.mem_append.1 hd' with hd' | hd'
    · exact h.unique d hd d' hd' heq
    · rw [List.mem_singleton.1 hd'] at heq
      exact absurd heq (hnew d hd)
    · rw [List.mem_singleton.1 hd] at heq
      exact absurd heq.symm (hnew d' hd')
    · rw [List.mem_singleton.1 hd, List.mem_singleton.1 hd']
  stored := h.stored

/-- The gateway order answered to a call enters the books before it is stored. -/
theorem Sound.withCreate (h : Sound w) {gateway : Gateway} {userId : ℕ} {user : User} {o : ℕ}
    {link : Bool} {txn : String}
    (hallowed : Allowed env w (.create gateway userId user o link txn)) :
    Sound (step env w (.create gateway userId user o link txn)) := by
  have hadded : ∀ e ∈ ((answered env gateway w.db userId o).map fun rz =>
      (rz.razorpayOrderId, noteText o)).toList,
      e.2 = noteText o ∧ '|' ∉ e.1.toList ∧ ∀ note, (e.1, note) ∉ w.books.orders := by
    intro e he
    rw [Option.mem_toList, Option.map_eq_some_iff] at he
    obtain ⟨rz, hrz, rfl⟩ := he
    exact ⟨rfl, hallowed rz hrz⟩
  refine ⟨?_, ?_, ?_, ?_, h.captureNote, h.captureBar, ?_, h.unique, ?_⟩
  · intro e he
    rcases List.mem_append.1 he with he | he
    · exact h.orderNote e he
    · exact ⟨o, (hadded e he).1⟩
  · intro e he
    rcases List.mem_append.1 he with he | he
    · exact h.orderBar e he
    · exact (hadded e he).2.1
  · intro r n n' hn hn'
    rcases List.mem_append.1 hn with hn | hn <;> rcases List.mem_append.1 hn' with hn' | hn'
    · exact h.functional r n n' hn hn'
    · exact absurd hn ((hadded _ hn').2.2 n)
    · exact absurd hn' ((hadded _ hn).2.2 n')
    · exact (hadded _ hn).1.trans (hadded _ hn').1.symm
  · intro n hn
    rcases List.mem_append.1 hn with hn | hn
    · exact h.linkNote n hn
    · split_ifs at hn
      · exact ⟨o, List.mem_singleton.1 hn⟩
      · exact absurd hn (by simp)
  · intro c hc r hr
    exact List.mem_append_left _ (h.captureOrder c hc r hr)
  · intro o' r hr
    rcases final_mem_or (razorpayCreate env gateway userId user o link txn) w.db with hmem | heq
    · rcases storedOrder_razorpayCreate hmem hr with hold | ⟨rfl, rz, hrz, rfl⟩
      · exact List.mem_append_left _ (h.stored o' r hold)
      · refine List.mem_append_right _ ?_
        rw [Option.mem_toList, hrz]
        rfl
    · refine List.mem_append_left _ (h.stored o' r ?_)
      rw [← hr]
      exact congrArg (fun db => storedOrder db o') heq.symm

/-- Every act that Razorpay's guarantees allow keeps the invariant. -/
theorem Sound.step (h : Sound w) {a : Act} (hallowed : Allowed env w a) :
    Sound (Payment.step env w a) := by
  cases a with
  | create gateway userId user o link txn => exact h.withCreate hallowed
  | capture roid pid note =>
    obtain ⟨horder, hbar, hnew⟩ := hallowed
    refine h.withCapture ⟨pid, some roid, note⟩ (h.orderNote _ horder) hbar ?_ hnew
    rintro r ⟨⟩
    exact horder
  | captureLink pid note =>
    obtain ⟨hlink, hbar, hnew⟩ := hallowed
    refine h.withCapture ⟨pid, none, note⟩ (h.linkNote _ hlink) hbar ?_ hnew
    rintro r ⟨⟩
  | verify userId o roid pid signature txn =>
    refine h.withDb fun o' => ?_
    rcases final_mem_or (razorpayVerify env userId o roid pid signature txn) w.db with hmem | heq
    · exact storedOrder_razorpayVerify hmem o'
    · rw [heq]
  | webhook body signature =>
    refine h.withDb fun o' => ?_
    rcases final_mem_or (razorpayWebhook env body signature) w.db with hmem | heq
    · exact storedOrder_razorpayWebhook hmem o'
    · rw [heq]

/-- An act that meets the condition marks an order paid only with a payment that
Razorpay took for that order. -/
theorem captured_of_marks (h : Sound w) {a : Act} (hallowed : Allowed env w a)
    (hown : PaysItsOwn env w a) {pid : String} {o : ℕ} (hmarks : Marks env w a pid o) :
    ∃ c ∈ w.books.captures, c.pid = pid ∧ c.note = noteText o := by
  obtain ⟨hid, hbecomes⟩ := hmarks
  cases a with
  | create => cases hid
  | capture => cases hid
  | captureLink => cases hid
  | verify userId o' roid pid' signature txn =>
    cases hid
    obtain ⟨rfl, hcaller, hsig⟩ := verify_of_becomesPaid hbecomes
    obtain ⟨c, hc, r, hr, hsigned⟩ := hallowed hsig
    have hbook := h.captureOrder c hc r hr
    obtain ⟨rfl, hpid⟩ := signed_injective (h.orderBar _ hbook) (h.captureBar c hc) hsigned
    have hstored := h.stored o' r (hown hcaller hbecomes.1 hsig)
    exact ⟨c, hc, hpid, h.functional r _ _ hbook hstored⟩
  | webhook body signature =>
    obtain ⟨hpass, payload, event, hbody⟩ := webhook_of_becomesPaid hbecomes
    obtain ⟨c, hc, hpid, hnote⟩ := hallowed (hpass hown) payload event o hbody
    obtain ⟨text, htext, hparse⟩ := hbody.noted
    have hid' : payload.paymentId = some pid := by
      rw [Act.paymentId, hbody.payload_eq, Option.bind_some] at hid
      exact hid
    refine ⟨c, hc, Option.some.inj (hpid.symm.trans hid'), ?_⟩
    obtain ⟨o', ho'⟩ := h.captureNote c hc
    have htext' : text = noteText o' := by
      rw [hnote, ho'] at htext
      unfold truthy at htext
      exact (Option.some.inj (Option.eq_some_of_filter_eq_some htext)).symm
    rw [htext', parseInt_noteText] at hparse
    have hoo : o' = o := by exact_mod_cast Option.some.inj hparse
    rw [ho', hoo]

/-- The books only grow. -/
theorem captures_run (w : World) (acts : List Act) :
    w.books.captures ⊆ (run (Payment.step env) w acts).books.captures := by
  induction acts generalizing w with
  | nil => exact List.Subset.refl _
  | cons a acts ih =>
    refine List.Subset.trans ?_ (ih (Payment.step env w a))
    cases a with
    | create => exact List.Subset.refl _
    | capture => exact List.subset_append_left _ _
    | captureLink => exact List.subset_append_left _ _
    | verify => exact List.Subset.refl _
    | webhook => exact List.Subset.refl _

theorem captures_initial {pre acts : List Act} (h : pre <+: acts) :
    (run (Payment.step env) w pre).books.captures ⊆
      (run (Payment.step env) w acts).books.captures := by
  obtain ⟨rest, rfl⟩ := h
  rw [run_append]
  exact captures_run _ rest

/-- In every run from a world where nothing has been ordered at Razorpay, in which
each verification presents the gateway order stored for its order and webhooks are
checked, every payment pays its own order and no payment id marks two orders. -/
theorem boundRun_of_paysItsOwn (hw : Unused w) (acts : List Act)
    (hallowed : Stepwise (Payment.step env) (Allowed env) w acts)
    (hown : Stepwise (Payment.step env) (PaysItsOwn env) w acts) : BoundRun env w acts := by
  have hsound : ∀ pre, pre <+: acts → Sound (run (Payment.step env) w pre) :=
    throughout_of_stepwise (fun s c hs hc => hs.step hc) hw.sound hallowed
  have hinit : ∀ {pre : List Act} {a : Act}, pre ++ [a] <+: acts → pre <+: acts :=
    fun h => (List.prefix_append _ _).trans h
  refine ⟨?_, ?_⟩
  · intro pre userId o o' roid pid signature txn hpre hbecomes
    obtain ⟨rfl, hcaller, hsig⟩ := verify_of_becomesPaid hbecomes
    exact hown pre _ hpre hcaller hbecomes.1 hsig
  · intro pre pre' a b pid o o' hpre hpre' ha hb
    obtain ⟨c, hc, hcp, hcn⟩ :=
      captured_of_marks (hsound pre (hinit hpre)) (hallowed pre a hpre) (hown pre a hpre) ha
    obtain ⟨c', hc', hcp', hcn'⟩ :=
      captured_of_marks (hsound pre' (hinit hpre')) (hallowed pre' b hpre') (hown pre' b hpre') hb
    have hall := hsound acts (List.prefix_refl acts)
    have heq : c = c' := hall.unique c (captures_initial (hinit hpre) hc)
      c' (captures_initial (hinit hpre') hc') (hcp.trans hcp'.symm)
    rw [heq] at hcn
    exact noteText_injective (hcn.symm.trans hcn')

end Invariant

/-! ## A cheap payment that pays a dear order -/

/-- Two placed orders of user 7, of ₹150 and ₹5000, with open payments. -/
def twoOrders : World where
  db :=
    { Db.empty with
      orders := .ofList
        [{ (default : Order) with userId := 7, finalAmount := 150 },
          { (default : Order) with userId := 7, finalAmount := 5000 }]
      payments := .ofList
        [{ (default : SweetCrust.Payment) with orderId := 1, userId := 7, amount := 150 },
          { (default : SweetCrust.Payment) with orderId := 2, userId := 7, amount := 5000 }] }
  books := ⟨[], [], []⟩

/-- A gateway that answers an order request with the given id, and makes no links. -/
def gatewayGiving (roid : String) : Gateway where
  orders := fun request => .ok ⟨roid, request.amount, "INR", none, some request.receipt, none⟩
  paymentLinks := fun _ => .error "payment links are disabled"

/-- Both orders are ordered at Razorpay, and the cheap one is paid there. -/
def cheapPaid : List Act :=
  [.create (gatewayGiving "order_A") 7 default 1 false "TXN1",
    .create (gatewayGiving "order_B") 7 default 2 false "TXN2",
    .capture "order_A" "pay_A" "1"]

/-- The customer's verification of a payment by its signed pair of ids. -/
def verifyCall (o : ℕ) : Act := .verify 7 o "order_A" "pay_A" "secret#order_A|pay_A" "TXN3"

theorem unused_twoOrders : Unused twoOrders := by
  refine ⟨rfl, rfl, rfl, ?_⟩
  intro o
  unfold storedOrder
  cases h : latestPayment twoOrders.db o with
  | none => rfl
  | some r =>
    obtain ⟨i, p⟩ := r
    have hmem := Table.get?_eq_some.1 (latestPayment_orderId h).1
    have hrows : twoOrders.db.payments.rows.all
        (fun r => r.2.gatewayResponse.razorpayOrder = none) := by decide +kernel
    have hnone := List.all_eq_true.1 hrows _ hmem
    simp only [decide_eq_true_eq] at hnone
    simp [hnone]

/-- Whichever order the verification names, Razorpay's guarantees allow the run. -/
theorem allowed_cheapPaid (o : ℕ) :
    Stepwise (step plainEnv) (Allowed plainEnv) twoOrders (cheapPaid ++ [verifyCall o]) := by
  have hA : (answered plainEnv (gatewayGiving "order_A") twoOrders.db 7 1).map
      RazorpayOrder.razorpayOrderId = some "order_A" := by decide +kernel
  have hB : (answered plainEnv (gatewayGiving "order_B")
      (run (step plainEnv) twoOrders (cheapPaid.take 1)).db 7 2).map
      RazorpayOrder.razorpayOrderId = some "order_B" := by decide +kernel
  have hbooks : (run (step plainEnv) twoOrders (cheapPaid.take 1)).books.orders =
      [("order_A", "1")] := by decide +kernel
  have hbooks' : (run (step plainEnv) twoOrders (cheapPaid.take 2)).books.orders =
      [("order_A", "1"), ("order_B", "2")] := by decide +kernel
  refine stepwise_cons.2 ⟨?_, stepwise_cons.2 ⟨?_, stepwise_cons.2 ⟨?_, stepwise_cons.2
    ⟨?_, stepwise_nil _ _⟩⟩⟩⟩
  · intro rz hrz
    rw [hrz, Option.map_some] at hA
    rw [Option.some.inj hA]
    exact ⟨by decide, fun note h => absurd h (by simp [twoOrders])⟩
  · intro rz hrz
    have hid : rz.razorpayOrderId = "order_B" := by
      have hrz' := hB
      rw [show answered plainEnv (gatewayGiving "order_B")
        (run (step plainEnv) twoOrders (cheapPaid.take 1)).db 7 2 = some rz from hrz] at hrz'
      exact Option.some.inj hrz'
    rw [hid]
    refine ⟨by decide, fun note h => ?_⟩
    have hmem : ("order_B", note) ∈
        (run (step plainEnv) twoOrders (cheapPaid.take 1)).books.orders := h
    rw [hbooks] at hmem
    simp at hmem
  · refine ⟨?_, by decide, fun c hc => absurd hc List.not_mem_nil⟩
    show ("order_A", "1") ∈ (run (step plainEnv) twoOrders (cheapPaid.take 2)).books.orders
    rw [hbooks']
    simp
  · intro _
    exact ⟨⟨"pay_A", some "order_A", "1"⟩, List.mem_singleton_self _, "order_A", rfl, rfl⟩

theorem boundRun_cheapPaid : BoundRun plainEnv twoOrders (cheapPaid ++ [verifyCall 1]) := by
  refine boundRun_of_paysItsOwn unused_twoOrders _ (allowed_cheapPaid 1) ?_
  refine stepwise_cons.2 ⟨trivial, stepwise_cons.2 ⟨trivial, stepwise_cons.2 ⟨trivial,
    stepwise_cons.2 ⟨?_, stepwise_nil _ _⟩⟩⟩⟩
  intro _ _ _
  show storedOrder (run (step plainEnv) twoOrders cheapPaid).db 1 = some "order_A"
  decide +kernel

/-- The ₹150 payment verifies the ₹5000 order. -/
theorem cheapPaid_not_bound :
    Stepwise (step plainEnv) (Allowed plainEnv) twoOrders (cheapPaid ++ [verifyCall 2]) ∧
      ¬ BoundRun plainEnv twoOrders (cheapPaid ++ [verifyCall 2]) := by
  refine ⟨allowed_cheapPaid 2, ?_⟩
  intro hbound
  have hbecomes : BecomesPaid 2 (run (step plainEnv) twoOrders cheapPaid).db
      (step plainEnv (run (step plainEnv) twoOrders cheapPaid) (verifyCall 2)).db := by
    decide +kernel
  have hstored := hbound.verified cheapPaid 7 2 2 "order_A" "pay_A" "secret#order_A|pay_A" "TXN3"
    (List.prefix_refl _) hbecomes
  revert hstored
  decide +kernel

end Payment

end SweetCrust
