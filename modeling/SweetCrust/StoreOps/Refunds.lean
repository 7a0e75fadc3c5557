import SweetCrust.Lib.Runs
import SweetCrust.Lib.Session
import SweetCrust.StoreOps.Integrations

/-!
# Refunds: `refund_payment`

The admin refunds a payment, whole or in part, and as often as he likes.  A payment made
through the gateway is refunded there; the row gets the amount and its new status.

The books of a payment are right when what the gateway gave back is within the payment and
on its row, when the status says how much of it that was, and when the order says the same
(`Accounted`).  The handler looks at none of this: it sets the amount instead of adding it,
calls every payment refunded, and leaves the order alone.

* `refundsAccounted_iff` — the books stay right through exactly the runs in which the
  gateway refuses every refund, and nothing but a whole payment that it never saw is
  refunded again.
* `refunded_twice` — a payment that is refunded in full, twice.
-/

namespace SweetCrust

open Tabular Session Rounding Text Runs

namespace Refunds

/-! ## The handler -/

/-- `amount or p.amount`. -/
def refundAmt (p : Payment) (amount : Option ℚ) : ℚ := (amount.filter fun a => a ≠ 0).getD p.amount

/-- The payment was made through the gateway, which can be asked to refund it. -/
def ViaGateway (env : Payment.Env) (p : Payment) : Prop :=
  p.method = some .razorpay ∧ (∃ t ∈ truthy p.transactionId, "pay_".toList <+: t.toList) ∧
    env.settings.razorpayConfigured

instance (env : Payment.Env) (p : Payment) : Decidable (ViaGateway env p) :=
  inferInstanceAs (Decidable (_ ∧ _ ∧ _))

/-- What the gateway is asked for, if it is asked. -/
def asked (env : Payment.Env) (p : Payment) (amount : Option ℚ) : Option Integrations.RefundRequest :=
  if ViaGateway env p then
    some (Integrations.refundRequest (p.transactionId.getD "") (some (refundAmt p amount)))
  else none

/-- What the gateway answers; nothing, when it is not asked. -/
def gatewayRefund (env : Payment.Env) (gateway : Integrations.RefundGateway) (p : Payment)
    (amount : Option ℚ) : Except AppError RefundDocument :=
  if ViaGateway env p then
    Integrations.refundPayment env gateway (p.transactionId.getD "") (some (refundAmt p amount))
  else .ok []

/-- The row of a refunded payment; an answer without keys is not kept. -/
def refunded (amt : ℚ) (answer : RefundDocument) (p : Payment) : Payment :=
  { p with
    refundAmount := amt
    status := .refunded
    gatewayResponse :=
      if answer = [] then p.gatewayResponse
      else { p.gatewayResponse with refund := some answer } }

/-- Rewrite the row of a payment. -/
def writePayment (paymentId : ℕ) (f : Payment → Payment) (db : Db) : Db :=
  { db with payments := db.payments.modify paymentId f }

/-- `refund_payment`: the payment's row as it is then. -/
def refundPayment (env : Payment.Env) (gateway : Integrations.RefundGateway) (paymentId : ℕ)
    (amount : Option ℚ) : Sess AppError Db (Option Payment) := do
  let db ← get
  let p ← orRaise (db.payments.get? paymentId) (.notFound "Payment not found")
  let answer ← ofExcept (gatewayRefund env gateway p amount)
  modify (writePayment paymentId (refunded (refundAmt p amount) answer))
  commit
  let db ← get
  return db.payments.get? paymentId

/-! ## The books of a payment -/

/-- The database, and what the gateway has given back for the payment, in paise. -/
structure World where
  db : Db
  returned : List ℤ

/-- One call: the amount, if there is one, and how the gateway answers. -/
structure Call where
  amount : Option ℚ
  gateway : Integrations.RefundGateway

/-- What the gateway gives back in a call, in paise. -/
def takenFor (env : Payment.Env) (p : Payment) (c : Call) : Option ℤ :=
  (asked env p c.amount).bind fun r =>
    match c.gateway r with
    | .ok _ => r.amount
    | .error _ => none

/-- A call on the payment `k`. -/
def step (env : Payment.Env) (k : ℕ) (w : World) (c : Call) : World where
  db := final (refundPayment env c.gateway k c.amount) w.db
  returned := w.returned ++ ((w.db.payments.get? k).bind fun p => takenFor env p c).toList

/-- What the gateway has given back, in rupees. -/
def total (returned : List ℤ) : ℚ := returned.sum / 100

/-- The payment's row accounts for what the gateway has given back. -/
structure Books (returned : List ℤ) (p : Payment) : Prop where
  within : total returned ≤ p.amount
  recorded : p.refundAmount = total returned
  whole : p.status = .refunded ↔ 0 < total returned ∧ total returned = p.amount
  partly : p.status = .partiallyRefunded ↔ 0 < total returned ∧ total returned < p.amount

/-- The order says of a refund what the payment says. -/
structure Follows (order : Order) (p : Payment) : Prop where
  whole : order.paymentStatus = .refunded ↔ p.status = .refunded
  partly : order.paymentStatus = .partiallyRefunded ↔ p.status = .partiallyRefunded

/-- The books of the payment `k` are right. -/
def Accounted (k : ℕ) (w : World) : Prop :=
  ∀ p, w.db.payments.get? k = some p →
    Books w.returned p ∧ ∃ order, w.db.orders.get? p.orderId = some order ∧ Follows order p

/-- The payment is settled, and something of it is left. -/
def Due (returned : List ℤ) (p : Payment) : Prop :=
  p.status ∈ [PaymentStatus.paid, .partiallyRefunded] ∧ total returned < p.amount

/-- The gateway is asked for a refund only when one is due. -/
def AsksWhenDue (env : Payment.Env) (k : ℕ) (w : World) (c : Call) : Prop :=
  ∀ p, w.db.payments.get? k = some p → (asked env p c.amount).isSome → Due w.returned p

/-- Throughout a run of calls, refunds are asked for only when they are due, and the books
are right. -/
structure RefundsAccounted (env : Payment.Env) (k : ℕ) (w : World) (cs : List Call) : Prop where
  books : Throughout (step env k) (Accounted k) w cs
  due : Stepwise (step env k) (AsksWhenDue env k) w cs

/-- The call leaves the books as they are: the gateway refuses a refund that is due, or the
whole of a payment that it never saw is refunded again. -/
def Idle (env : Payment.Env) (k : ℕ) (w : World) (c : Call) : Prop :=
  ∀ p, w.db.payments.get? k = some p →
    match asked env p c.amount with
    | some r => Due w.returned p ∧ ∃ text, c.gateway r = .error text
    | none => p.status = .refunded ∧ refundAmt p c.amount = p.amount

/-! ## One call -/

section Steps

variable {env : Payment.Env} {k : ℕ} {w : World} {c : Call} {p : Payment}
  {r : Integrations.RefundRequest} {answer : RefundDocument} {amt : ℚ} {l : List ℤ}

theorem viaGateway_of_asked (h : asked env p c.amount = some r) :
    ViaGateway env p ∧
      r = Integrations.refundRequest (p.transactionId.getD "") (some (refundAmt p c.amount)) := by
  unfold asked at h
  split_ifs at h with hvia
  exact ⟨hvia, (Option.some.inj h).symm⟩

/-- The gateway is not asked: the row is rewritten. -/
theorem step_unasked (hp : w.db.payments.get? k = some p) (h : asked env p c.amount = none) :
    step env k w c = ⟨writePayment k (refunded (refundAmt p c.amount) []) w.db, w.returned⟩ := by
  have hvia : ¬ ViaGateway env p := fun hvia => by simp [asked, hvia] at h
  have hdb : final (refundPayment env c.gateway k c.amount) w.db =
      writePayment k (refunded (refundAmt p c.amount) []) w.db := by
    unfold refundPayment
    rw [final_get_bind, hp, final_orRaise_some_bind, gatewayRefund, if_neg hvia,
      final_ofExcept_ok_bind]
    rfl
  simp [step, hdb, hp, takenFor, h]

/-- The gateway refuses: nothing happens. -/
theorem step_refused {text : String} (hp : w.db.payments.get? k = some p)
    (h : asked env p c.amount = some r) (hr : c.gateway r = .error text) :
    step env k w c = w := by
  obtain ⟨hvia, rfl⟩ := viaGateway_of_asked h
  have hdb : final (refundPayment env c.gateway k c.amount) w.db = w.db := by
    unfold refundPayment
    rw [final_get_bind, hp, final_orRaise_some_bind, gatewayRefund, if_pos hvia,
      Integrations.refundPayment, Integrations.post, if_pos hvia.2.2, hr]
    rfl
  simp [step, hdb, hp, takenFor, h, hr]

/-- The gateway gives the money back, and the row is rewritten. -/
theorem step_taken (hp : w.db.payments.get? k = some p) (h : asked env p c.amount = some r)
    (hr : c.gateway r = .ok answer) :
    step env k w c = ⟨writePayment k (refunded (refundAmt p c.amount) answer) w.db,
      w.returned ++ [Payment.paise (refundAmt p c.amount)]⟩ := by
  obtain ⟨hvia, rfl⟩ := viaGateway_of_asked h
  have hdb : final (refundPayment env c.gateway k c.amount) w.db =
      writePayment k (refunded (refundAmt p c.amount) answer) w.db := by
    unfold refundPayment
    rw [final_get_bind, hp, final_orRaise_some_bind, gatewayRefund, if_pos hvia,
      Integrations.refundPayment, Integrations.post, if_pos hvia.2.2, hr, final_ofExcept_ok_bind]
    rfl
  have htaken : takenFor env p c = some (Payment.paise (refundAmt p c.amount)) := by
    rw [takenFor, h, Option.bind_some, hr]
    rfl
  simp [step, hdb, hp, htaken]

theorem step_unknown (hp : w.db.payments.get? k = none) : step env k w c = w := by
  have hdb : final (refundPayment env c.gateway k c.amount) w.db = w.db := by
    unfold refundPayment
    rw [final_get_bind, hp, final_orRaise_none_bind]
  simp [step, hdb, hp]

/-- The books once the row is rewritten. -/
theorem accounted_write (hp : w.db.payments.get? k = some p) :
    Accounted k ⟨writePayment k (refunded amt answer) w.db, l⟩ ↔
      Books l (refunded amt answer p) ∧ ∃ order, w.db.orders.get? p.orderId = some order ∧
        Follows order (refunded amt answer p) := by
  have hget : (writePayment k (refunded amt answer) w.db).payments.get? k =
      some (refunded amt answer p) := by
    simp [writePayment, hp]
  constructor
  · intro h
    exact h _ hget
  · intro h q hq
    have hpq : refunded amt answer p = q := Option.some.inj (hget.symm.trans hq)
    subst hpq
    exact h

/-- Where the gateway is not asked, only the whole of a payment that is refunded already can
be refunded. -/
theorem books_unasked_iff (h : Books l p) :
    Books l (refunded amt answer p) ↔ p.status = .refunded ∧ amt = p.amount := by
  constructor
  · intro hafter
    have hall := hafter.whole.1 rfl
    exact ⟨h.whole.2 hall, hafter.recorded.trans hall.2⟩
  · rintro ⟨hst, rfl⟩
    have hall := h.whole.1 hst
    refine ⟨h.within, hall.2.symm, iff_of_true rfl hall, ?_⟩
    exact iff_of_false (by simp [refunded]) fun hless => hless.2.ne hall.2

/-- Where the gateway gives money back, the payment's own row is right only after the first
refund, of the whole payment and in whole paise. -/
theorem books_taken_iff (h : Books l p) (hl : ∀ n ∈ l, 100 ≤ n) :
    Books (l ++ [Payment.paise amt]) (refunded amt answer p) ↔
      l = [] ∧ amt = p.amount ∧ total [Payment.paise amt] = amt := by
  have hsplit : total (l ++ [Payment.paise amt]) = total l + total [Payment.paise amt] := by
    simp [total, add_div]
  have hleast : (100 : ℤ) ≤ Payment.paise amt := le_max_left _ _
  have hpos : 1 ≤ total [Payment.paise amt] := by
    have hcast : (100 : ℚ) ≤ Payment.paise amt := by exact_mod_cast hleast
    simp only [total, List.sum_singleton]
    linarith
  constructor
  · intro hafter
    have hall := (hafter.whole.1 rfl).2
    have hamt : amt = total l + total [Payment.paise amt] := hafter.recorded.trans hsplit
    have hwhole : amt = p.amount := hafter.recorded.trans hall
    have hnone : l = [] := by
      by_contra hne
      -- an earlier refund gave back a rupee at least, more than rounding can hide
      obtain ⟨n, l', rfl⟩ := List.exists_cons_of_ne_nil hne
      have hearlier : (1 : ℚ) ≤ total (n :: l') := by
        have hn : 100 ≤ n := hl n (by simp)
        have hrest : 0 ≤ l'.sum := List.sum_nonneg fun m hm => by
          have := hl m (by simp [hm])
          omega
        have hsum : (100 : ℤ) ≤ (n :: l').sum := by
          rw [List.sum_cons]
          omega
        have hcast : (100 : ℚ) ≤ ((n :: l').sum : ℤ) := by exact_mod_cast hsum
        simp only [total]
        linarith
      have hround : amt * 100 - 1 / 2 ≤ Payment.paise amt := by
        have hnear := (abs_le.1 (abs_roundHalfEven_sub_le (amt * 100))).1
        have hle : (roundHalfEven (amt * 100) : ℚ) ≤ Payment.paise amt := by
          exact_mod_cast le_max_right _ _
        linarith
      have hone : total [Payment.paise amt] = Payment.paise amt / 100 := by simp [total]
      rw [hone] at hamt
      linarith
    subst hnone
    have hzero : total [] = 0 := by simp [total]
    exact ⟨rfl, hwhole, by linarith⟩
  · rintro ⟨rfl, hamt, hcents⟩
    have hall : total ([] ++ [Payment.paise amt]) = p.amount := by
      rw [List.nil_append, hcents, hamt]
    refine ⟨hall.le, ?_, iff_of_true rfl ⟨?_, hall⟩, iff_of_false (by simp [refunded]) ?_⟩
    · rw [List.nil_append, hcents]
      rfl
    · rw [List.nil_append]
      linarith
    · exact fun hless => hless.2.ne hall

/-- A call keeps the books, and asks only when a refund is due, exactly if it changes
nothing. -/
theorem accounted_step_iff (h : Accounted k w) :
    Accounted k (step env k w c) ∧ AsksWhenDue env k w c ↔ Idle env k w c := by
  cases hp : w.db.payments.get? k with
  | none =>
    rw [step_unknown hp]
    exact iff_of_true ⟨h, by simp [AsksWhenDue, hp]⟩ (by simp [Idle, hp])
  | some p =>
    obtain ⟨hbooks, order, horder, hfollows⟩ := h p hp
    cases hasked : asked env p c.amount with
    | none =>
      have hidle : Idle env k w c ↔ p.status = .refunded ∧ refundAmt p c.amount = p.amount := by
        simp [Idle, hp, hasked]
      have hdue : AsksWhenDue env k w c := by simp [AsksWhenDue, hp, hasked]
      rw [step_unasked hp hasked, accounted_write hp, books_unasked_iff hbooks, hidle]
      constructor
      · rintro ⟨⟨hwhole, _⟩, _⟩
        exact hwhole
      · intro hwhole
        have hsame : Follows order (refunded (refundAmt p c.amount) [] p) := by
          refine ⟨iff_of_true (hfollows.whole.2 hwhole.1) rfl, iff_of_false ?_ (by simp [refunded])⟩
          rw [hfollows.partly, hwhole.1]
          simp
        exact ⟨⟨hwhole, order, horder, hsame⟩, hdue⟩
    | some r =>
      have hdue : AsksWhenDue env k w c ↔ Due w.returned p := by
        simp [AsksWhenDue, hp, hasked]
      have hidle : Idle env k w c ↔
          Due w.returned p ∧ ∃ text, c.gateway r = .error text := by
        simp [Idle, hp, hasked]
      cases hr : c.gateway r with
      | error text =>
        rw [step_refused hp hasked hr, hdue, hidle]
        simp [hr, h]
      | ok answer =>
        rw [step_taken hp hasked hr, accounted_write hp, hdue, hidle]
        refine iff_of_false ?_ (by simp [hr])
        rintro ⟨⟨_, order', horder', hfollows'⟩, hsettled, _⟩
        -- a settled payment is not refunded yet, and the order will not say that it is
        rw [horder] at horder'
        cases horder'
        have hst : p.status = .refunded := hfollows.whole.1 (hfollows'.whole.2 rfl)
        rw [hst] at hsettled
        simp at hsettled

end Steps

/-! ## A run of calls -/

/-- A payment of 100 through the gateway, and its order. -/
def paidWorld : World where
  db :=
    { Db.empty with
      orders := .ofList [{ (default : Order) with paymentStatus := .paid, finalAmount := 100 }]
      payments := .ofList
        [{ (default : Payment) with
            orderId := 1, amount := 100, method := some .razorpay, status := .paid
            transactionId := some "pay_A" }] }
  returned := []

/-- The admin refunds the whole payment, and the gateway does it. -/
def refundAll : Call where
  amount := none
  gateway := fun _ => .ok [("id", "rfnd_A")]

/-- Before the first refund, the books are right. -/
theorem accounted_paidWorld : Accounted 1 paidWorld := by
  intro p hp
  cases hp
  refine ⟨⟨by decide +kernel, by decide +kernel, by decide +kernel, by decide +kernel⟩, _, rfl, ?_⟩
  exact ⟨by decide +kernel, by decide +kernel⟩

/-- The admin asks for it, and the gateway refuses. -/
def refusedAll : Call where
  amount := none
  gateway := fun _ => .error "insufficient balance"

/-- The books of a payment stay right through exactly the runs whose calls all change
nothing. -/
theorem refundsAccounted_iff (env : Payment.Env) (k : ℕ) {w : World} (h : Accounted k w)
    (cs : List Call) :
    RefundsAccounted env k w cs ↔ Stepwise (step env k) (Idle env k) w cs := by
  rw [← throughout_and_stepwise_iff (fun _ _ hs => accounted_step_iff hs) h cs]
  exact ⟨fun hrun => ⟨hrun.books, hrun.due⟩, fun hrun => ⟨hrun.1, hrun.2⟩⟩

theorem accounted_refused : RefundsAccounted Payment.plainEnv 1 paidWorld [refusedAll] := by
  refine (refundsAccounted_iff Payment.plainEnv 1 accounted_paidWorld [refusedAll]).2
    (stepwise_cons.2 ⟨?_, stepwise_nil _ _⟩)
  intro p hp
  cases hp
  exact ⟨⟨by decide +kernel, by decide +kernel⟩, _, rfl⟩

/-- The gateway gives back twice what was paid. -/
theorem refunded_twice :
    total (run (step Payment.plainEnv 1) paidWorld [refundAll, refundAll]).returned = 200 ∧
      ¬ RefundsAccounted Payment.plainEnv 1 paidWorld [refundAll, refundAll] := by
  have htwice : total (run (step Payment.plainEnv 1) paidWorld [refundAll, refundAll]).returned =
      200 := by decide +kernel
  refine ⟨htwice, fun h => ?_⟩
  have hbooks := h.books _ (List.prefix_refl _)
  have hrow : ((run (step Payment.plainEnv 1) paidWorld [refundAll, refundAll]).db.payments.get?
      1).map Payment.amount = some 100 := by decide +kernel
  obtain ⟨p, hp, hamount⟩ := Option.map_eq_some_iff.1 hrow
  have hwithin := (hbooks p hp).1.within
  rw [htwice, hamount] at hwithin
  norm_num at hwithin

end Refunds

end SweetCrust
