import SweetCrust.Lib.Runs
import SweetCrust.Sell.Subscription

/-!
# Does paying for a plan extend it?

A shop that pays for a plan before the old one has run out is to have what is left of the old
one and the new one after it: `_activate_paid` counts from the old end if the shop is *approved*
and the end is still to come.  But the status and the end are written apart: an admin may take
the approval away and leave the end, or give it back with an end that has long passed.

* `PayingExtends` — a plan that is paid for now ends a month or a year after the old end, or
  after now.
* `ApprovalOpens` — a shop that an admin approves passes `_selling_shop` next.
* `payingExtends_iff` — both hold throughout a run exactly if an admin never takes the approval
  of a plan with time left, and never approves a shop whose plan has run out.
-/

namespace SweetCrust

open Tabular Session Text Payment Runs Sell

namespace PlanTime

/-! ## The subscriptions and what may happen to them -/

structure World where
  db : Db
  now : ℕ

inductive Request
  | read (userId : ℕ)
  /-- An operation of a seller, up to the end of its guard. -/
  | sell (userId : ℕ)
  | request (userId : ℕ)
  | create (userId : ℕ) (cadence : String) (gateway : LinkGateway)
  | confirm (userId : ℕ) (gateway : LinkGateway)
  | set (userId : ℕ) (status : String)
  | wait (seconds : ℕ)

variable (env : Env)

/-- One request, or a pause. -/
def step (w : World) : Request → World
  | .read u => { w with db := final (readSubscription env u w.now) w.db }
  | .sell u => { w with db := final (sellingShop u w.now) w.db }
  | .request u => { w with db := final (requestSellSubscription u) w.db }
  | .create u cadence gateway =>
    { w with db := final (createSellSubscriptionPayment env gateway u w.now cadence) w.db }
  | .confirm u gateway =>
    { w with db := final (confirmSellSubscriptionPayment env gateway u w.now) w.db }
  | .set u status => { w with db := final (setSellSubscription u w.now status) w.db }
  | .wait seconds => { w with now := w.now + seconds }

/-- An activation leaves a shop approved until the time it had left, and the time it pays for,
are over. -/
def PayingExtends (w : World) : Prop :=
  ∀ u i p, profileOf w.db u = some (i, p) →
    ∀ paid : Pending, paid.cadence ∈ ["monthly", "yearly"] →
      ∃ q, profileOf (activatePaid w.now (i, p) paid w.db) u = some (i, q) ∧
        q.sellSubscriptionStatus = "approved" ∧
        q.sellSubscriptionExpiresAt =
          some (max w.now (p.sellSubscriptionExpiresAt.getD w.now) + planDays paid.cadence * day)

/-- A shop that an admin has just approved gets through the guard of a seller, unless it is
blocked or not KYC-approved. -/
def ApprovalOpens (w : World) : Request → Prop
  | .set u status => normal status = "approved" →
    ∀ i p, Approved (step env w (.set u status)).db u i p →
      Returns (sellingShop u w.now) (step env w (.set u status)).db (i, p)
        (step env w (.set u status)).db
  | _ => True

/-- An admin takes no approval away while there is time left, and gives none back after it. -/
def Orderly (w : World) : Request → Prop
  | .set u status => ∀ i p, profileOf w.db u = some (i, p) →
    (normal status ∈ ["rejected", "pending", "none", "expired"] →
      ∀ exp ∈ p.sellSubscriptionExpiresAt, exp ≤ w.now) ∧
    (normal status = "approved" → p.isBlocked = false → p.approvalStatus = "approved" →
      ∀ exp ∈ p.sellSubscriptionExpiresAt, w.now ≤ exp)
  | _ => True

/-! ## The time that is left -/

/-- The time that is left of a plan is counted when the next one is paid. -/
def Counted (now : ℕ) (p : RetailerProfile) : Prop :=
  p.sellSubscriptionStatus = "approved" ∨ ∀ exp ∈ p.sellSubscriptionExpiresAt, exp ≤ now

section Time

variable {now i u : ℕ} {p : RetailerProfile} {db : Db}

theorem planEnd_eq_iff (cadence : String) :
    planEnd now cadence p =
        max now (p.sellSubscriptionExpiresAt.getD now) + planDays cadence * day ↔
      Counted now p := by
  unfold planEnd Counted
  cases hexp : p.sellSubscriptionExpiresAt with
  | none => simp
  | some exp =>
    simp only [Option.getD_some, Option.mem_some_iff, forall_eq', Nat.add_right_cancel_iff]
    by_cases hstatus : p.sellSubscriptionStatus = "approved"
    · simp only [hstatus, true_and, true_or, iff_true]
      split_ifs <;> omega
    · simp only [hstatus, false_and, if_false, false_or]
      omega

theorem subscriptionStatus_eq_approved :
    subscriptionStatus p = "approved" ↔ p.sellSubscriptionStatus = "approved" := by
  unfold subscriptionStatus
  by_cases hempty : p.sellSubscriptionStatus = ""
  · rw [hempty]
    decide
  · rw [truthy_some hempty, Option.getD_some]

theorem profileOf_activatePaid (hp : profileOf db u = some (i, p)) (paid : Pending) :
    profileOf (activatePaid now (i, p) paid db) u = some (i, activated now paid.cadence p) :=
  profileOf_modify hp rfl fun _ => rfl

end Time

theorem payingExtends_iff_counted {w : World} :
    PayingExtends w ↔ ∀ u i p, profileOf w.db u = some (i, p) → Counted w.now p := by
  constructor
  · intro h u i p hp
    obtain ⟨q, hq, -, hend⟩ := h u i p hp ⟨"", "monthly", 0⟩ (by simp)
    rw [profileOf_activatePaid hp] at hq
    cases hq
    exact (planEnd_eq_iff "monthly").1 (Option.some.inj hend)
  · intro h u i p hp paid _
    refine ⟨_, profileOf_activatePaid hp paid, rfl, ?_⟩
    exact congrArg some ((planEnd_eq_iff paid.cadence).2 (h u i p hp))

/-! ## One request -/

section Steps

variable {env} {w : World} {u i : ℕ} {p : RetailerProfile}

/-- Rewriting one profile so that its time still counts. -/
theorem counted_rewrite {t : Db} {f : RetailerProfile → RetailerProfile}
    (h : ∀ v j q, profileOf w.db v = some (j, q) → Counted w.now q)
    (hp : profileOf w.db u = some (i, p)) (ht : t.profiles = w.db.profiles.modify i f)
    (hf : ∀ q, (f q).userId = q.userId) (hone : Counted w.now (f p)) :
    ∀ v j q, profileOf t v = some (j, q) → Counted w.now q := by
  intro v j q hq
  by_cases hv : v = u
  · subst hv
    rw [profileOf_modify hp ht hf] at hq
    cases hq
    exact hone
  · rw [profileOf_modify_of_ne hp ht hf hv] at hq
    exact h v j q hq

theorem counted_expired (hout : RunOut w.now p) : Counted w.now (expired p) := by
  obtain ⟨-, exp, hexp, hlt⟩ := hout
  right
  intro end' hend
  change end' ∈ p.sellSubscriptionExpiresAt at hend
  obtain rfl := Option.mem_unique hend hexp
  omega

/-- A shop that only asks for a plan keeps its approval, if it has one. -/
theorem counted_of_not_approved {q : RetailerProfile} (h : Counted w.now p)
    (hend : q.sellSubscriptionExpiresAt = p.sellSubscriptionExpiresAt)
    (hstatus : p.sellSubscriptionStatus = "approved" → q.sellSubscriptionStatus = "approved") :
    Counted w.now q := by
  unfold Counted
  rw [hend]
  exact h.imp_left hstatus

/-- Only an admin makes the time of a plan not count. -/
theorem counted_step (h : ∀ v j q, profileOf w.db v = some (j, q) → Counted w.now q) {r : Request}
    (hr : ∀ u status, r ≠ .set u status) :
    ∀ v j q, profileOf (step env w r).db v = some (j, q) → Counted (step env w r).now q := by
  cases r with
  | read u =>
    simp only [step]
    rcases read_cases env w.db u w.now with hsame | ⟨i, p, hp, hout, ht⟩
    · rw [hsame]
      exact h
    · rw [ht]
      exact counted_rewrite h hp rfl (fun _ => rfl) (counted_expired hout)
  | sell u =>
    simp only [step]
    rcases sellingShop_cases w.db u w.now with hsame | ⟨i, p, hp, hout, ht⟩
    · rw [hsame]
      exact h
    · rw [ht]
      exact counted_rewrite h hp rfl (fun _ => rfl) (counted_expired hout)
  | request u =>
    simp only [step]
    rcases request_cases w.db u with hsame | ⟨i, p, hp, hstatus, ht⟩
    · rw [hsame]
      exact h
    · rw [ht]
      rw [ne_eq, subscriptionStatus_eq_approved] at hstatus
      refine counted_rewrite h hp rfl (fun _ => rfl) ?_
      exact counted_of_not_approved (h u i p hp) rfl fun happroved => absurd happroved hstatus
  | create u cadence gateway =>
    simp only [step]
    rcases create_cases env gateway w.db u w.now cadence with
      hraises | ⟨i, p, request, link, pending, happroved, -, -, -, -, -, -, -, hreturns⟩
    · rw [hraises.final]
      exact h
    · rw [hreturns.final]
      refine counted_rewrite h happroved.found rfl (fun _ => rfl) ?_
      refine counted_of_not_approved (h u i p happroved.found) rfl fun hstatus => ?_
      simp only [awaiting, ne_eq, subscriptionStatus_eq_approved, hstatus, not_true, if_false]
  | confirm u gateway =>
    simp only [step]
    rcases confirm_cases env gateway w.db u w.now with hsame | ⟨i, p, hp, hout, ht⟩ |
      ⟨i, p, pending, status, happroved, -, -, -, -, ht⟩
    · rw [hsame]
      exact h
    · rw [ht]
      exact counted_rewrite h hp rfl (fun _ => rfl) (counted_expired hout)
    · rw [ht]
      exact counted_rewrite h happroved.found rfl (fun _ => rfl) (Or.inl rfl)
  | set u status => exact absurd rfl (hr u status)
  | wait seconds =>
    intro v j q hq
    refine (h v j q hq).imp_right fun hend exp hexp => ?_
    have hle := hend exp hexp
    simp only [step]
    omega

/-- What is left of the plan of a shop after an admin has written its status. -/
theorem counted_overridden_iff (status : String) :
    Counted w.now (overridden w.now status p) ↔
      (status ≠ "approved" → ∀ exp ∈ p.sellSubscriptionExpiresAt, exp ≤ w.now) := by
  unfold overridden
  by_cases hstatus : status = "approved"
  · simp [Counted, hstatus]
  · simp [Counted, hstatus]

/-- What holds of the one profile of a shop. -/
theorem forall_profileOf {C : RetailerProfile → Prop} (hp : profileOf w.db u = some (i, p)) :
    (∀ j q, profileOf w.db u = some (j, q) → C q) ↔ C p := by
  constructor
  · intro h
    exact h i p hp
  · intro h j q hq
    rw [hp] at hq
    cases hq
    exact h

theorem expiresAt_overridden :
    ∀ exp ∈ p.sellSubscriptionExpiresAt,
      (overridden w.now "approved" p).sellSubscriptionExpiresAt = some exp := by
  intro exp hexp
  simp [overridden, Option.mem_def.1 hexp]

/-- What an approval leaves of the time of a plan is still to come, unless it has passed. -/
theorem le_expiresAt_overridden (h : ∀ exp ∈ p.sellSubscriptionExpiresAt, w.now ≤ exp) :
    ∀ exp ∈ (overridden w.now "approved" p).sellSubscriptionExpiresAt, w.now ≤ exp := by
  intro exp hexp
  cases hend : p.sellSubscriptionExpiresAt with
  | none =>
    have hnew : exp = w.now + 30 * day := by
      simpa [overridden, hend, eq_comm] using hexp
    omega
  | some old =>
    rw [expiresAt_overridden old hend] at hexp
    exact h exp (hend.trans hexp)

/-- An approval opens the shop unless its end has passed. -/
theorem returns_sellingShop_iff (hp : profileOf w.db u = some (i, p)) :
    (∀ j q, Approved (withProfile i (overridden w.now "approved") w.db) u j q →
        Returns (sellingShop u w.now) (withProfile i (overridden w.now "approved") w.db) (j, q)
          (withProfile i (overridden w.now "approved") w.db)) ↔
      (p.isBlocked = false → p.approvalStatus = "approved" →
        ∀ exp ∈ p.sellSubscriptionExpiresAt, w.now ≤ exp) := by
  have hfound : profileOf (withProfile i (overridden w.now "approved") w.db) u =
      some (i, overridden w.now "approved" p) := profileOf_withProfile hp fun _ => rfl
  constructor
  · intro h hopen happroved exp hexp
    have hreturns := h i _ ⟨hfound, hopen, happroved⟩
    by_contra hlt
    have hnot : ∀ j q,
        ¬ MaySell (withProfile i (overridden w.now "approved") w.db) u w.now j q := by
      intro j q hsell
      have hsame := hsell.found
      rw [hfound] at hsame
      cases hsame
      exact hlt (hsell.current exp (expiresAt_overridden exp hexp))
    obtain ⟨t, hraises, -⟩ := sellingShop_refuses hnot
    exact hraises.not_ok ⟨_, hreturns.outcome⟩
  · intro h j q happroved
    have hsame := happroved.found
    rw [hfound] at hsame
    cases hsame
    refine sellingShop_returns ⟨happroved, rfl, ?_⟩
    exact le_expiresAt_overridden (h happroved.unblocked happroved.approved)

/-- An admin keeps the time of every plan counted, and opens the shop with an approval, exactly if
the approvals of plans with time left are left alone and no plan that has run out is approved. -/
theorem set_iff (h : ∀ v j q, profileOf w.db v = some (j, q) → Counted w.now q) (u : ℕ)
    (status : String) :
    (∀ v j q, profileOf (step env w (.set u status)).db v = some (j, q) → Counted w.now q) ∧
        ApprovalOpens env w (.set u status) ↔ Orderly w (.set u status) := by
  simp only [ApprovalOpens, Orderly, step]
  by_cases hraises : profileOf w.db u = none ∨
      normal status ∉ ["approved", "rejected", "pending", "none", "expired"]
  · rw [(set_raises hraises).final]
    rcases hraises with hnone | hstatus
    · simp only [hnone, reduceCtorEq, false_implies, implies_true, iff_true]
      refine ⟨h, fun _ i p happroved => ?_⟩
      rw [happroved.found] at hnone
      cases hnone
    · have hother : normal status ≠ "approved" ∧
          normal status ∉ ["rejected", "pending", "none", "expired"] := by
        simpa only [List.mem_cons, not_or] using hstatus
      simp only [hother, false_implies, implies_true, and_true, iff_true]
      exact h
  · simp only [not_or, not_not] at hraises
    obtain ⟨⟨i, p⟩, hp⟩ := Option.ne_none_iff_exists'.1 hraises.1
    have hset := hraises.2
    rw [(set_returns hp hset).final]
    have hone : (∀ v j q, profileOf (withProfile i (overridden w.now (normal status)) w.db) v =
        some (j, q) → Counted w.now q) ↔ Counted w.now (overridden w.now (normal status) p) := by
      have huser : ∀ q, (overridden w.now (normal status) q).userId = q.userId := by
        intro q
        unfold overridden
        split_ifs <;> rfl
      exact ⟨fun hall => hall u i _ (profileOf_withProfile hp huser),
        fun hone => counted_rewrite h hp rfl huser hone⟩
    rw [hone, counted_overridden_iff, forall_profileOf hp]
    by_cases happroved : normal status = "approved"
    · have hother : "approved" ∉ ["rejected", "pending", "none", "expired"] := by decide
      simp only [happroved, ne_eq, not_true, hother, false_implies, true_and, forall_const]
      exact returns_sellingShop_iff hp
    · have hother : normal status ∈ ["rejected", "pending", "none", "expired"] :=
        (List.mem_cons.1 hset).resolve_left happroved
      simp only [happroved, ne_eq, not_false_eq_true, hother, false_implies, and_true,
        forall_const]

/-- A request keeps the time of every plan counted, and an approval opens the shop, exactly if an
admin leaves plans with time left alone and approves no shop whose plan has run out. -/
theorem step_iff (h : PayingExtends w) (r : Request) :
    PayingExtends (step env w r) ∧ ApprovalOpens env w r ↔ Orderly w r := by
  rw [payingExtends_iff_counted] at h ⊢
  cases r with
  | set u status => exact set_iff h u status
  | wait seconds =>
    exact ⟨fun _ => trivial, fun _ => ⟨@counted_step env w h (.wait seconds) (by simp), trivial⟩⟩
  | _ => exact ⟨fun _ => trivial, fun _ => ⟨counted_step h (by simp), trivial⟩⟩

/-- Where no shop has a plan yet, paying extends plans and approving opens shops throughout a run
exactly if an admin leaves the approval of every plan with time left alone, and approves no shop
whose plan has run out. -/
theorem payingExtends_iff
    (hnew : ∀ u i p, profileOf w.db u = some (i, p) → p.sellSubscriptionExpiresAt = none)
    (rs : List Request) :
    Throughout (step env) PayingExtends w rs ∧ Stepwise (step env) (ApprovalOpens env) w rs ↔
      Stepwise (step env) Orderly w rs := by
  refine throughout_and_stepwise_iff (fun s r h => step_iff h r) ?_ rs
  rw [payingExtends_iff_counted]
  intro u i p hp
  right
  simp [hnew u i p hp]

end Steps

/-! ## Time that is kept, and time that is lost -/

/-- An approved shop that does not sell yet. -/
def bakery : RetailerProfile where
  userId := 1
  shopName := "Bakery"
  creditAllowed := false
  creditLimit := 0
  outstandingBalance := 0
  payableBalance := 0
  isWholesaler := false
  isBlocked := false

def opening : World where
  db := { Db.empty with profiles := .ofList [bakery] }
  now := 1000

/-- Razorpay, where every link is paid at once. -/
def gateway : LinkGateway where
  paymentLinks request := .ok
    { paymentLinkId := some "p0"
      shortUrl := none
      amount := some request.amount
      status := some "created"
      referenceId := some request.referenceId }
  status _ := .ok (some "paid")

theorem expiresAt_opening (u i : ℕ) (p : RetailerProfile)
    (hp : profileOf opening.db u = some (i, p)) : p.sellSubscriptionExpiresAt = none := by
  have hrow := Table.get?_eq_some.1 (profileOf_userId hp).1
  have hrows : opening.db.profiles.rows = [(1, bakery)] := by decide
  rw [hrows, List.mem_singleton] at hrow
  cases hrow
  rfl

/-- Two months are paid for, and the shop is rejected once they have run out. -/
def payTwice : List Request :=
  [.create 1 "Monthly" gateway, .confirm 1 gateway, .wait (20 * day), .create 1 "monthly" gateway,
    .confirm 1 gateway, .wait (41 * day), .sell 1, .set 1 "rejected"]

theorem payTwice_extends :
    Throughout (step plainEnv) PayingExtends opening payTwice ∧
      Stepwise (step plainEnv) (ApprovalOpens plainEnv) opening payTwice := by
  refine (payingExtends_iff expiresAt_opening payTwice).2 ?_
  have hend : profileOf (run (step plainEnv) opening (payTwice.take 7)).db 1 =
      some (1, { bakery with
        sellSubscriptionStatus := "expired"
        sellPlan := some "monthly"
        sellSubscriptionExpiresAt := some (1000 + 60 * day) }) := by decide +kernel
  unfold payTwice
  simp only [stepwise_cons]
  refine ⟨trivial, trivial, trivial, trivial, trivial, trivial, trivial, ?_, stepwise_nil _ _⟩
  intro i p hp
  have hsame := hend.symm.trans hp
  cases hsame
  exact ⟨fun _ exp hexp => by cases hexp; decide, fun h => absurd h (by decide)⟩

/-- A year is paid for, and an admin sets the shop to pending. -/
def paidThenPending : List Request :=
  [.create 1 "yearly" gateway, .confirm 1 gateway, .set 1 "pending"]

/-- A shop is approved for a month, and once more after it. -/
def approvedLate : List Request := [.set 1 "approved", .wait (31 * day), .set 1 "approved"]

/-- A month that is paid for now would end a year that is paid for, and a shop that has just been
approved is refused. -/
theorem planTime_lost :
    ¬ Throughout (step plainEnv) PayingExtends opening paidThenPending ∧
      ¬ Stepwise (step plainEnv) (ApprovalOpens plainEnv) opening approvedLate := by
  constructor
  · intro h
    have hend : profileOf (run (step plainEnv) opening paidThenPending).db 1 =
        some (1, { bakery with
          sellSubscriptionStatus := "pending"
          sellPlan := some "yearly"
          sellSubscriptionExpiresAt := some (1000 + 365 * day) }) := by decide +kernel
    have hcounted := payingExtends_iff_counted.1 h.final 1 1 _ hend
    have hnow : (run (step plainEnv) opening paidThenPending).now = 1000 := by decide +kernel
    simp [Counted, hnow, day] at hcounted
  · intro h
    have hlast := h [.set 1 "approved", .wait (31 * day)] (.set 1 "approved") (List.prefix_refl _)
    have hshop : profileOf (run (step plainEnv) opening approvedLate).db 1 =
        some (1, { bakery with
          sellSubscriptionStatus := "approved"
          sellPlan := some "monthly"
          sellSubscriptionExpiresAt := some (1000 + 30 * day) }) := by decide +kernel
    have hreturns := hlast (by decide +kernel) 1 _ ⟨hshop, rfl, rfl⟩
    have hfinal := congrArg (fun db => (profileOf db 1).map fun r => r.2.sellSubscriptionStatus)
      hreturns.final
    revert hfinal
    decide +kernel

end PlanTime

end SweetCrust
