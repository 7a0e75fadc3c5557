import SweetCrust.Sell.Shop
import SweetCrust.StoreOps.Integrations

/-!
# The sell plan of a shop

A shop pays for selling by a Razorpay payment link: `create_sell_subscription_payment`
asks for the link and notes it in the one slot `sell_rz_pending` of the profile,
`confirm_sell_subscription_payment` asks Razorpay for the state of the link noted there,
and activates the plan once it is paid.  An admin sets the status by hand.

* `Pending.text`, `pendingPayment` — what the slot says, written and read back.
* `create_cases`, `confirm_cases`, `request_cases`, `set_cases` — everything each of the
  requests may do to the database.
* `confirm_of_paid` — a confirmation that finds its link paid activates the plan.

The invoice that follows an activation is issued under a `try` of its own, after the
commit, and touches neither the profile nor the billing record; it is not part of this.
-/

namespace SweetCrust

open Tabular Session Text Decimal Rounding Payment

namespace Sell

/-! ## Plans and their prices -/

def defaultMonthly : ℚ := 499

def defaultYearly : ℚ := 4990

/-- The price of a plan, by its cadence. -/
structure PlanPrices where
  monthly : ℚ
  yearly : ℚ
  deriving DecidableEq

def PlanPrices.of (prices : PlanPrices) (cadence : String) : ℚ :=
  if cadence = "yearly" then prices.yearly else prices.monthly

/-- `float(tax.get(key) or default)`. -/
def priceOr (price : Option ℚ) (default : ℚ) : ℚ := (price.filter fun x => x ≠ 0).getD default

/-- `_plan_prices`. -/
def planPrices (db : Db) : PlanPrices :=
  let row := (db.settings.first? fun _ => true).map Prod.snd
  { monthly := priceOr (row.bind (·.sellMonthlyPrice)) defaultMonthly
    yearly := priceOr (row.bind (·.sellYearlyPrice)) defaultYearly }

/-- `(text or "").strip().lower()`. -/
def normal (text : String) : String := String.ofList (lower (strip isSpace text.toList))

/-! ## The slot of the profile -/

/-- A payment that is to be confirmed. -/
structure Pending where
  linkId : String
  cadence : String
  amount : ℚ
  deriving DecidableEq

/-- `f"{link_id}:{cadence}:{amount:.2f}"`. -/
def Pending.text (p : Pending) : String :=
  String.ofList (p.linkId.toList ++ ':' :: (p.cadence.toList ++ ':' :: fixed2 p.amount))

/-- `pending.split(":", 2)`, with the last part read as a number. -/
def pendingPayment (pending : List Char) : Option Pending := do
  let link ← splitAt? ':' pending
  let cadence ← splitAt? ':' link.2
  let amount ← parseFloat cadence.2
  return ⟨String.ofList link.1, String.ofList cadence.1, amount⟩

/-- `(profile.sell_rz_pending or "").strip()`. -/
def pendingText (p : RetailerProfile) : List Char :=
  strip isSpace ((p.sellRzPending.getD "").toList)

/-! ## Razorpay -/

/-- The notes of a link for a sell plan. -/
structure PlanNotes where
  kind : String
  userId : String
  cadence : String
  amount : String
  shopName : String

structure PlanLinkRequest where
  /-- In paise. -/
  amount : ℤ
  currency : String
  acceptPartial : Bool
  description : String
  referenceId : String
  reminderEnable : Bool
  notes : PlanNotes
  customerContact : Option String

/-- Razorpay's payment links: its answer to a request, and the `status` of a link, or the text
of a refusal. -/
structure LinkGateway where
  /-- `POST /payment_links`. -/
  paymentLinks : PlanLinkRequest → Except String PaymentLink
  /-- `GET /payment_links/{id}`. -/
  status : String → Except String (Option String)

/-- `create_payment_link`, for a sell plan. -/
def createPlanLink (env : Env) (gateway : LinkGateway) (amountInr : ℚ)
    (description referenceId : String) (customerPhone : Option String) (notes : PlanNotes) :
    Except AppError PaymentLink :=
  Integrations.post env gateway.paymentLinks
    { amount := paise amountInr
      currency := "INR"
      acceptPartial := false
      description := clip 2048 description
      referenceId := clip 40 referenceId
      reminderEnable := false
      notes
      customerContact := razorpayContact customerPhone }
    "Razorpay payment link failed: "

/-- `get_payment_link`: the status. -/
def getPaymentLink (env : Env) (gateway : LinkGateway) (paymentLinkId : String) :
    Except AppError (Option String) :=
  Integrations.post env gateway.status paymentLinkId "Razorpay payment link fetch failed: "

/-! ## The state of a subscription -/

/-- The database with one profile rewritten. -/
def withProfile (i : ℕ) (f : RetailerProfile → RetailerProfile) (db : Db) : Db :=
  { db with profiles := db.profiles.modify i f }

/-- What a shop is told of its subscription. -/
structure SubscriptionView where
  approvalStatus : String
  sellSubscriptionStatus : String
  sellPlan : Option String
  sellSubscriptionExpiresAt : Option ℕ
  canSell : Bool
  plans : PlanPrices
  razorpayConfigured : Bool

/-- The profile, marked as expired when its subscription has run out. -/
def markExpired (now : ℕ) (r : ℕ × RetailerProfile) : Service RetailerProfile :=
  if RunOut now r.2 then do
    modify (withExpired r.1)
    commit
    return expired r.2
  else
    return r.2

/-- `subscription_status`. -/
def readSubscription (env : Env) (userId now : ℕ) : Service SubscriptionView := do
  let r ← shop userId
  let p ← markExpired now r
  let db ← get
  return {
    approvalStatus := p.approvalStatus
    sellSubscriptionStatus := subscriptionStatus p
    sellPlan := p.sellPlan
    sellSubscriptionExpiresAt := p.sellSubscriptionExpiresAt
    canSell := p.approvalStatus = "approved" ∧ subscriptionStatus p = "approved" ∧
      p.isBlocked = false
    plans := planPrices db
    razorpayConfigured := env.settings.razorpayConfigured }

/-- A shop that waits for its subscription. -/
def asPending (p : RetailerProfile) : RetailerProfile :=
  { p with sellSubscriptionStatus := "pending" }

/-- `request_sell_subscription`: the status and the message. -/
def requestSellSubscription (userId : ℕ) : Service (String × String) := do
  let r ← approvedShop userId
  if subscriptionStatus r.2 = "approved" then
    return ("approved", "Already approved to sell")
  else
    modify (withProfile r.1 asPending)
    commit
    return ("pending", "Submitted for admin approval")

/-! ## Paying for a plan -/

/-- What a shop is told of the link it is to pay. -/
structure PlanPayment where
  cadence : String
  amount : ℚ
  currency : String
  paymentLink : PaymentLink
  sellSubscriptionStatus : String
  message : String

/-- A profile with a payment to be confirmed. -/
def awaiting (pending : Pending) (p : RetailerProfile) : RetailerProfile :=
  { p with
    sellRzPending := some pending.text
    sellSubscriptionStatus :=
      if subscriptionStatus p ≠ "approved" then "pending" else p.sellSubscriptionStatus }

/-- The answer to a shop that is to pay a link. -/
def planPayment (pending : Pending) (link : PaymentLink) (p : RetailerProfile) : PlanPayment where
  cadence := pending.cadence
  amount := pending.amount
  currency := "INR"
  paymentLink := link
  sellSubscriptionStatus := (awaiting pending p).sellSubscriptionStatus
  message := "Pay with Razorpay to activate your sell plan"

/-- The link that a shop asks for. -/
def requestPlanLink (env : Env) (gateway : LinkGateway) (userId now : ℕ) (cadence : String)
    (shop : RetailerProfile) (db : Db) : Except AppError PaymentLink :=
  let amount := (planPrices db).of cadence
  createPlanLink env gateway amount
    ("SweetCrust sell plan · " ++ cadence ++ " · " ++ shop.shopName)
    (clip 40 ("sell-" ++ toString userId ++ "-" ++ cadence ++ "-" ++ toString now))
    ((truthy shop.contactPhone).or ((db.users.get? userId).map (·.phone)))
    { kind := "sell_subscription"
      userId := toString userId
      cadence
      amount := String.ofList (fixed2 amount)
      shopName := shop.shopName }

/-- `create_sell_subscription_payment`. -/
def createSellSubscriptionPayment (env : Env) (gateway : LinkGateway) (userId now : ℕ)
    (cadence : String) : Service PlanPayment := do
  let r ← approvedShop userId
  let cadence := normal cadence
  raiseIf (cadence ∉ ["monthly", "yearly"]) (.badRequest "cadence must be monthly or yearly")
  raiseIf (¬ env.settings.razorpayConfigured)
    (.unavailable "Razorpay not configured — ask admin to enable payments")
  let db ← get
  let link ← ofExcept (requestPlanLink env gateway userId now cadence r.2 db)
  let linkId ← orRaise (truthy link.paymentLinkId)
    (.badRequest "Could not create Razorpay payment link")
  let pending : Pending := ⟨linkId, cadence, (planPrices db).of cadence⟩
  modify (withProfile r.1 (awaiting pending))
  commit
  return planPayment pending link r.2

/-- A day, in seconds. -/
def day : ℕ := 86400

/-- How long a plan lasts. -/
def planDays (cadence : String) : ℕ := if cadence = "yearly" then 365 else 30

/-- The end of a plan that is paid for now. -/
def planEnd (now : ℕ) (cadence : String) (p : RetailerProfile) : ℕ :=
  let base :=
    match p.sellSubscriptionExpiresAt with
    | some exp => if p.sellSubscriptionStatus = "approved" ∧ now < exp then exp else now
    | none => now
  base + planDays cadence * day

/-- The profile of a shop whose plan is paid. -/
def activated (now : ℕ) (cadence : String) (p : RetailerProfile) : RetailerProfile :=
  { p with
    sellSubscriptionStatus := "approved"
    sellPlan := some cadence
    sellSubscriptionExpiresAt := some (planEnd now cadence p)
    sellRzPending := none }

/-- `date().isoformat()` of a time in seconds. -/
def isoDate (time : ℕ) : String :=
  -- days are counted from the first of March of the year 0, in eras of 400 years
  let days := time / day + 719468
  let ofEra := days % 146097
  let year := (ofEra - ofEra / 1460 + ofEra / 36524 - ofEra / 146096) / 365
  let ofYear := ofEra - (365 * year + year / 4 - year / 100)
  let month := (5 * ofYear + 2) / 153
  let dayOfMonth := ofYear - (153 * month + 2) / 5 + 1
  let pad (n : ℕ) : List Char := if n < 10 then '0' :: natText n else natText n
  let y := year + days / 146097 * 400 + if month < 10 then 0 else 1
  let m := if month < 10 then month + 3 else month - 9
  String.ofList (natText y ++ '-' :: (pad m ++ '-' :: pad dayOfMonth))

example : isoDate 1709164800 = "2024-02-29" := by decide +kernel

/-- The billing record of a paid plan. -/
def planBill (now : ℕ) (paid : Pending) (p : RetailerProfile) : Notification where
  userId := p.userId
  type := .payment
  title := "Sell plan · " ++ paid.cadence
  body := "Paid ₹" ++ String.ofList (fixed0 paid.amount) ++ " via Razorpay · active until " ++
    isoDate (planEnd now paid.cadence p)
  data := some
    { amount := some paid.amount
      subscription := some
        { cadence := paid.cadence
          amount := paid.amount
          paymentRef := paid.linkId
          expiresAt := planEnd now paid.cadence p
          paidAt := now } }

/-- `_activate_paid`, in one commit. -/
def activatePaid (now : ℕ) (r : ℕ × RetailerProfile) (paid : Pending) (db : Db) : Db :=
  { withProfile r.1 (activated now paid.cadence) db with
    notifications := db.notifications.insert (planBill now paid r.2) }

/-- What a shop is told after a confirmation. -/
structure ConfirmAnswer where
  view : SubscriptionView
  paymentStatus : Option String
  message : String

/-- `str(data.get("status") or "").lower()`. -/
def linkStatus (status : Option String) : String :=
  String.ofList (lower ((status.getD "").toList))

/-- `confirm_sell_subscription_payment`. -/
def confirmSellSubscriptionPayment (env : Env) (gateway : LinkGateway) (userId now : ℕ) :
    Service ConfirmAnswer := do
  let r ← approvedShop userId
  if pendingText r.2 = [] then
    raiseIf (r.2.sellSubscriptionStatus ≠ "approved")
      (.badRequest "No pending sell payment — start checkout again")
    let view ← readSubscription env userId now
    return ⟨view, none, "Already active"⟩
  else
    let pending ← orRaise (pendingPayment (pendingText r.2))
      (.badRequest "Invalid pending payment state")
    let data ← ofExcept (getPaymentLink env gateway pending.linkId)
    if linkStatus data = "paid" then
      modify (activatePaid now r pending)
      commit
      let view ← readSubscription env userId now
      return ⟨view, some "paid", "Sell subscription activated"⟩
    else
      let view ← readSubscription env userId now
      return ⟨view, some ((truthy (some (linkStatus data))).getD "created"),
        "Payment not completed yet — finish Razorpay checkout, then tap Confirm payment"⟩

/-! ## The admin's override -/

/-- A profile with the status that an admin gave it. -/
def overridden (now : ℕ) (status : String) (p : RetailerProfile) : RetailerProfile :=
  let p := { p with sellSubscriptionStatus := status }
  if status = "approved" then
    { p with
      sellPlan :=
        if p.sellSubscriptionExpiresAt = none then some ((truthy p.sellPlan).getD "monthly")
        else p.sellPlan
      sellSubscriptionExpiresAt :=
        if p.sellSubscriptionExpiresAt = none then some (now + 30 * day)
        else p.sellSubscriptionExpiresAt
      sellRzPending := none }
  else p

/-- `set_sell_subscription`: the status. -/
def setSellSubscription (retailerUserId now : ℕ) (status : String) : Service String := do
  let db ← get
  let r ← orRaise (profileOf db retailerUserId) (.notFound "Shop not found")
  let status := normal status
  raiseIf (status ∉ ["approved", "rejected", "pending", "none", "expired"])
    (.badRequest "status must be approved|rejected|pending|none|expired")
  modify (withProfile r.1 (overridden now status))
  commit
  return status

/-! ## The slot, read back -/

/-- A text that can be the id of a payment link: not empty, without spaces and colons. -/
def PlainId (id : String) : Prop := id ≠ "" ∧ ∀ c ∈ id.toList, c ≠ ':' ∧ isSpace c = false

theorem plainId_cadence {cadence : String} (h : cadence ∈ ["monthly", "yearly"]) :
    PlainId cadence := by
  simp only [List.mem_cons, List.not_mem_nil, or_false] at h
  rcases h with rfl | rfl <;> simp [PlainId, isSpace]

section Slot

variable (pending : Pending) {p : RetailerProfile}

theorem strip_text (hid : PlainId pending.linkId) (hcadence : PlainId pending.cadence) :
    strip isSpace pending.text.toList =
      pending.linkId.toList ++ ':' :: (pending.cadence.toList ++ ':' :: fixed2 pending.amount) := by
  rw [Pending.text, String.toList_ofList]
  refine strip_eq_self fun c hc => ?_
  simp only [List.mem_append, List.mem_cons] at hc
  rcases hc with hc | rfl | hc | rfl | hc
  · exact (hid.2 c hc).2
  · decide
  · exact (hcadence.2 c hc).2
  · decide
  · exact isSpace_of_mem_fixed2 hc

/-- What was written into the slot is read back, with the amount in whole paise. -/
theorem pendingPayment_text (hid : PlainId pending.linkId) (hcadence : PlainId pending.cadence)
    (hslot : p.sellRzPending = some pending.text) :
    pendingPayment (pendingText p) = some { pending with amount := round2 pending.amount } := by
  have hlink : ':' ∉ pending.linkId.toList := fun h => (hid.2 _ h).1 rfl
  have hcolon : ':' ∉ pending.cadence.toList := fun h => (hcadence.2 _ h).1 rfl
  unfold pendingText pendingPayment
  rw [hslot, Option.getD_some, strip_text pending hid hcadence, splitAt?_append hlink]
  simp only [Option.bind_eq_bind, Option.bind_some]
  rw [splitAt?_append hcolon]
  simp only [Option.bind_some]
  rw [parseFloat_fixed2_eq_round2]
  simp

theorem pendingText_ne_nil (hid : PlainId pending.linkId) (hcadence : PlainId pending.cadence)
    (hslot : p.sellRzPending = some pending.text) : pendingText p ≠ [] := by
  unfold pendingText
  rw [hslot, Option.getD_some, strip_text pending hid hcadence]
  simp

theorem pendingText_eq_nil (hslot : p.sellRzPending = none) : pendingText p = [] := by
  unfold pendingText
  rw [hslot]
  rfl

/-- Different links are written differently. -/
theorem linkId_eq_of_text_eq (q : Pending) (hp : PlainId pending.linkId) (hq : PlainId q.linkId)
    (h : pending.text = q.text) : pending.linkId = q.linkId := by
  have hlist := congrArg String.toList h
  simp only [Pending.text, String.toList_ofList] at hlist
  have hsplit := congrArg (splitAt? ':') hlist
  rw [splitAt?_append fun hc => (hp.2 _ hc).1 rfl, splitAt?_append fun hc => (hq.2 _ hc).1 rfl]
    at hsplit
  exact String.toList_inj.1 (Prod.mk.inj (Option.some.inj hsplit)).1

end Slot

/-! ## What the requests do -/

section Requests

variable {env : Env} {gateway : LinkGateway} {s : Db} {u now i : ℕ} {p : RetailerProfile}

theorem profileOf_withProfile {f : RetailerProfile → RetailerProfile}
    (hp : profileOf s u = some (i, p)) (hf : ∀ q, (f q).userId = q.userId) :
    profileOf (withProfile i f s) u = some (i, f p) := profileOf_modify hp rfl hf

theorem profileOf_withProfile_of_ne {f : RetailerProfile → RetailerProfile} {v : ℕ}
    (hp : profileOf s u = some (i, p)) (hf : ∀ q, (f q).userId = q.userId) (hne : v ≠ u) :
    profileOf (withProfile i f s) v = profileOf s v := profileOf_modify_of_ne hp rfl hf hne

theorem markExpired_returns (now i : ℕ) (p : RetailerProfile) (s : Db) :
    Returns (markExpired now (i, p)) s (if RunOut now p then expired p else p)
      (if RunOut now p then withExpired i s else s) := by
  unfold markExpired
  by_cases hout : RunOut now p
  · simp only [if_pos hout]
    exact Returns.modify_commit (returns_pure _ _)
  · simp only [if_neg hout]
    exact returns_pure _ s

/-- Looking at a subscription marks at most one that has run out. -/
theorem read_cases (env : Env) (s : Db) (u now : ℕ) :
    final (readSubscription env u now) s = s ∨
      ∃ i p, profileOf s u = some (i, p) ∧ RunOut now p ∧
        final (readSubscription env u now) s = withExpired i s := by
  unfold readSubscription
  by_cases hshop : ∀ i p, profileOf s u = some (i, p) → p.isBlocked = true
  · exact Or.inl ((shop_raises hshop).bind _).final
  · simp only [not_forall, Bool.not_eq_true] at hshop
    obtain ⟨i, p, hp, hopen⟩ := hshop
    have hmark := markExpired_returns now i p s
    rw [(shop_returns hp hopen).final_bind, hmark.final_bind, final_get_bind,
      (returns_pure _ _).final]
    by_cases hout : RunOut now p
    · rw [if_pos hout]
      exact Or.inr ⟨i, p, hp, hout, rfl⟩
    · rw [if_neg hout]
      exact Or.inl rfl

theorem request_cases (s : Db) (u : ℕ) :
    final (requestSellSubscription u) s = s ∨
      ∃ i p, profileOf s u = some (i, p) ∧ subscriptionStatus p ≠ "approved" ∧
        final (requestSellSubscription u) s = withProfile i asPending s := by
  unfold requestSellSubscription
  by_cases happroved : ∃ i p, Approved s u i p
  · obtain ⟨i, p, happroved⟩ := happroved
    rw [(approvedShop_returns happroved).final_bind]
    by_cases hsub : subscriptionStatus p = "approved"
    · rw [if_pos hsub]
      exact Or.inl (returns_pure _ s).final
    · rw [if_neg hsub]
      exact Or.inr ⟨i, p, happroved.found, hsub, (Returns.modify_commit (returns_pure _ _)).final⟩
  · simp only [not_exists] at happroved
    exact Or.inl ((approvedShop_raises happroved).bind _).final

/-- A status that an admin may set is set. -/
theorem set_returns {status : String} (hp : profileOf s u = some (i, p))
    (hstatus : normal status ∈ ["approved", "rejected", "pending", "none", "expired"]) :
    Returns (setSellSubscription u now status) s (normal status)
      (withProfile i (overridden now (normal status)) s) := by
  unfold setSellSubscription
  refine Returns.get_bind (Returns.orRaise_bind hp ?_)
  exact Returns.raiseIf_bind (not_not.2 hstatus) (Returns.modify_commit (returns_pure _ _))

theorem set_raises {status : String} (h : profileOf s u = none ∨
      normal status ∉ ["approved", "rejected", "pending", "none", "expired"]) :
    Raises (setSellSubscription u now status) s s := by
  unfold setSellSubscription
  cases hp : profileOf s u with
  | none => exact Raises.get_bind (raises_orRaise_bind hp _ _ s)
  | some r =>
    rw [hp] at h
    have hstatus := h.resolve_left (by simp)
    exact Raises.get_bind (Raises.orRaise_bind hp (raises_raiseIf_bind hstatus _ _ s))

theorem set_cases (s : Db) (u now : ℕ) (status : String) :
    final (setSellSubscription u now status) s = s ∨
      ∃ i p, profileOf s u = some (i, p) ∧
        final (setSellSubscription u now status) s =
          withProfile i (overridden now (normal status)) s := by
  by_cases hraises : profileOf s u = none ∨
      normal status ∉ ["approved", "rejected", "pending", "none", "expired"]
  · exact Or.inl (set_raises hraises).final
  · simp only [not_or, not_not] at hraises
    obtain ⟨⟨i, p⟩, hp⟩ := Option.ne_none_iff_exists'.1 hraises.1
    exact Or.inr ⟨i, p, hp, (set_returns hp hraises.2).final⟩

/-- The link that a shop is given is for the price of its plan, in paise. -/
theorem requestPlanLink_eq_ok {cadence : String} {link : PaymentLink}
    (h : requestPlanLink env gateway u now cadence p s = .ok link) :
    ∃ request, request.amount = paise ((planPrices s).of cadence) ∧
      gateway.paymentLinks request = .ok link := by
  unfold requestPlanLink createPlanLink Integrations.post at h
  split_ifs at h
  dsimp only at h
  split at h
  · rename_i data hdata
    cases h
    exact ⟨_, rfl, hdata⟩
  · cases h

/-- What a request for a link asks for, and what it does: it is refused, or it writes the link
into the slot of the profile. -/
theorem create_cases (env : Env) (gateway : LinkGateway) (s : Db) (u now : ℕ) (cadence : String) :
    Raises (createSellSubscriptionPayment env gateway u now cadence) s s ∨
      ∃ i p request link pending, Approved s u i p ∧ pending.cadence = normal cadence ∧
        pending.amount = (planPrices s).of (normal cadence) ∧
        normal cadence ∈ ["monthly", "yearly"] ∧ env.settings.razorpayConfigured ∧
        request.amount = paise pending.amount ∧ gateway.paymentLinks request = .ok link ∧
        truthy link.paymentLinkId = some pending.linkId ∧
        Returns (createSellSubscriptionPayment env gateway u now cadence) s
          (planPayment pending link p) (withProfile i (awaiting pending) s) := by
  unfold createSellSubscriptionPayment
  by_cases happroved : ∃ i p, Approved s u i p
  swap
  · simp only [not_exists] at happroved
    exact Or.inl ((approvedShop_raises happroved).bind _)
  obtain ⟨i, p, happroved⟩ := happroved
  have hshop := approvedShop_returns happroved
  by_cases hcadence : normal cadence ∉ ["monthly", "yearly"]
  · exact Or.inl (hshop.bind_raises (raises_raiseIf_bind hcadence _ _ s))
  by_cases hconfigured : ¬ env.settings.razorpayConfigured
  · left
    refine hshop.bind_raises (Raises.raiseIf_bind hcadence ?_)
    exact raises_raiseIf_bind hconfigured _ _ s
  cases hlink : requestPlanLink env gateway u now (normal cadence) p s with
  | error e =>
    left
    refine hshop.bind_raises (Raises.raiseIf_bind hcadence (Raises.raiseIf_bind hconfigured ?_))
    exact Raises.get_bind (raises_ofExcept_bind hlink _ s)
  | ok link =>
    obtain ⟨request, hamount, hrequest⟩ := requestPlanLink_eq_ok hlink
    cases hid : truthy link.paymentLinkId with
    | none =>
      left
      refine hshop.bind_raises (Raises.raiseIf_bind hcadence (Raises.raiseIf_bind hconfigured ?_))
      exact Raises.get_bind (Raises.ofExcept_bind hlink (raises_orRaise_bind hid _ _ s))
    | some linkId =>
      refine Or.inr ⟨i, p, request, link, ⟨linkId, normal cadence, _⟩, happroved, rfl, rfl,
        not_not.1 hcadence, not_not.1 hconfigured, hamount, hrequest, hid, ?_⟩
      refine hshop.bind (Returns.raiseIf_bind hcadence (Returns.raiseIf_bind hconfigured ?_))
      refine Returns.get_bind (Returns.ofExcept_bind hlink (Returns.orRaise_bind hid ?_))
      exact Returns.modify_commit (returns_pure _ _)

/-- What an activation writes of the subscription has not run out. -/
theorem not_runOut_activated (now : ℕ) (cadence : String) (p : RetailerProfile) :
    ¬ RunOut now (activated now cadence p) := by
  rintro ⟨_, exp, hexp, hlt⟩
  obtain rfl := Option.mem_some.1 hexp
  have hbase : now ≤ planEnd now cadence p := by
    unfold planEnd
    cases p.sellSubscriptionExpiresAt with
    | none => exact Nat.le_add_right _ _
    | some exp =>
      simp only
      split_ifs with h
      · omega
      · omega
  omega

/-- The database after a confirmation that finds the link in the slot paid. -/
theorem confirm_of_paid {pending : Pending} {status : Option String} (happroved : Approved s u i p)
    (hslot : pendingText p ≠ []) (hpending : pendingPayment (pendingText p) = some pending)
    (hstatus : getPaymentLink env gateway pending.linkId = .ok status)
    (hpaid : linkStatus status = "paid") :
    final (confirmSellSubscriptionPayment env gateway u now) s =
      activatePaid now (i, p) pending s := by
  have hread : final (readSubscription env u now) (activatePaid now (i, p) pending s) =
      activatePaid now (i, p) pending s := by
    rcases read_cases env (activatePaid now (i, p) pending s) u now with hsame | ⟨j, q, hq, hout, -⟩
    · exact hsame
    · have hp : profileOf (activatePaid now (i, p) pending s) u =
          some (i, activated now pending.cadence p) :=
        profileOf_modify happroved.found rfl fun _ => rfl
      rw [hp] at hq
      cases hq
      exact absurd hout (not_runOut_activated now pending.cadence p)
  unfold confirmSellSubscriptionPayment
  rw [(approvedShop_returns happroved).final_bind]
  simp only [if_neg hslot]
  rw [hpending, final_orRaise_some_bind, hstatus, final_ofExcept_ok_bind, if_pos hpaid,
    final_modify_commit_bind, final_bind_of_reads fun _ t => reads_pure _ t]
  exact hread

/-- A confirmation does nothing, marks a subscription that has run out, or activates the plan
whose link it finds paid. -/
theorem confirm_cases (env : Env) (gateway : LinkGateway) (s : Db) (u now : ℕ) :
    final (confirmSellSubscriptionPayment env gateway u now) s = s ∨
      (∃ i p, profileOf s u = some (i, p) ∧ RunOut now p ∧
        final (confirmSellSubscriptionPayment env gateway u now) s = withExpired i s) ∨
      ∃ i p pending status, Approved s u i p ∧ pendingText p ≠ [] ∧
        pendingPayment (pendingText p) = some pending ∧
        getPaymentLink env gateway pending.linkId = .ok status ∧ linkStatus status = "paid" ∧
        final (confirmSellSubscriptionPayment env gateway u now) s =
          activatePaid now (i, p) pending s := by
  -- what a confirmation that activates nothing ends with
  have hview : ∀ {t : Db}, t = s ∨ t = final (readSubscription env u now) s →
      t = s ∨ (∃ i p, profileOf s u = some (i, p) ∧ RunOut now p ∧ t = withExpired i s) := by
    rintro t (rfl | rfl)
    · exact Or.inl rfl
    · exact read_cases env s u now
  rw [← or_assoc]
  by_cases happroved : ∃ i p, Approved s u i p
  swap
  · simp only [not_exists] at happroved
    exact Or.inl (Or.inl ((approvedShop_raises happroved).bind _).final)
  obtain ⟨i, p, happroved⟩ := happroved
  by_cases hslot : pendingText p = []
  · refine Or.inl (hview ?_)
    unfold confirmSellSubscriptionPayment
    rw [(approvedShop_returns happroved).final_bind]
    simp only [if_pos hslot]
    rw [final_raiseIf_bind, final_bind_of_reads fun _ t => reads_pure _ t]
    split_ifs
    · exact Or.inl rfl
    · exact Or.inr rfl
  cases hpending : pendingPayment (pendingText p) with
  | none =>
    refine Or.inl (Or.inl ?_)
    unfold confirmSellSubscriptionPayment
    rw [(approvedShop_returns happroved).final_bind]
    simp only [if_neg hslot]
    rw [hpending, final_orRaise_none_bind]
  | some pending =>
    cases hstatus : getPaymentLink env gateway pending.linkId with
    | error e =>
      refine Or.inl (Or.inl ?_)
      unfold confirmSellSubscriptionPayment
      rw [(approvedShop_returns happroved).final_bind]
      simp only [if_neg hslot]
      rw [hpending, final_orRaise_some_bind, hstatus, final_ofExcept_error_bind]
    | ok status =>
      by_cases hpaid : linkStatus status = "paid"
      · exact Or.inr ⟨i, p, pending, status, happroved, hslot, hpending, hstatus, hpaid,
          confirm_of_paid happroved hslot hpending hstatus hpaid⟩
      · refine Or.inl (hview (Or.inr ?_))
        unfold confirmSellSubscriptionPayment
        rw [(approvedShop_returns happroved).final_bind]
        simp only [if_neg hslot]
        rw [hpending, final_orRaise_some_bind, hstatus, final_ofExcept_ok_bind, if_neg hpaid,
          final_bind_of_reads fun _ t => reads_pure _ t]

end Requests

end Sell

end SweetCrust
