import SweetCrust.Lib.Runs
import SweetCrust.Sell.Subscription

/-!
# Is a paid link honoured exactly once?

A shop may ask for payment links for its sell plan as often as it likes, pay any of them at
any moment, and confirm; an admin may set the status in between.  A link that is paid is
*honoured* when the next confirmation activates its plan, and activates it once.

The profile has one slot for a pending payment.  A second request overwrites it, and an
approval by an admin clears it, whatever has become of the link that was in it.

* `paidLinksHonoured` — in every run in which a paid link stays in its slot until it is
  confirmed, and only a link in its slot is paid, every paid link is honoured exactly once.
* `paidLinks_lost` — in a run without that, a paid link is not honoured at all.
-/

namespace SweetCrust

open Tabular Session Text Decimal Rounding Payment Runs Sell

namespace PaidLinks

/-! ## Razorpay and the shops -/

/-- The ids that Razorpay gives to payment links, in the order it makes them. -/
structure LinkIds where
  id : ℕ → String
  injective : Function.Injective id
  plain : ∀ n, PlainId (id n)

/-- A payment link for a sell plan. -/
structure PlanLink where
  id : String
  userId : ℕ
  cadence : String
  /-- What it charges, in rupees. -/
  amount : ℚ
  deriving DecidableEq

/-- The pending payment of a link. -/
def PlanLink.pending (l : PlanLink) : Pending := ⟨l.id, l.cadence, l.amount⟩

@[simp] theorem PlanLink.linkId_pending (l : PlanLink) : l.pending.linkId = l.id := rfl

/-- The links made so far, and the ids of those that are paid. -/
structure World where
  db : Db
  now : ℕ
  links : List PlanLink
  paid : List String

inductive Request
  | create (userId : ℕ) (cadence : String) (refusal : Option String)
  | pay (id : String)
  | confirm (userId : ℕ) (refusal : Option String)
  | request (userId : ℕ)
  | set (userId : ℕ) (status : String)
  | wait (seconds : ℕ)

/-- Razorpay, as it answers now: every call, or none. -/
def World.gateway (ids : LinkIds) (w : World) (refusal : Option String) : LinkGateway where
  paymentLinks request :=
    match refusal with
    | some text => .error text
    | none => .ok
        { paymentLinkId := some (ids.id w.links.length)
          shortUrl := none
          amount := some request.amount
          status := some "created"
          referenceId := some request.referenceId }
  status id :=
    match refusal with
    | some text => .error text
    | none =>
      if id ∈ w.links.map (·.id) then .ok (some (if id ∈ w.paid then "paid" else "created"))
      else .error "The id provided does not exist"

/-- The link that was handed out with an answer. -/
def linkOf (userId : ℕ) (answer : PlanPayment) : PlanLink where
  id := answer.paymentLink.paymentLinkId.getD ""
  userId := userId
  cadence := answer.cadence
  amount := ((answer.paymentLink.amount.getD 0 : ℤ) : ℚ) / 100

variable (env : Env) (ids : LinkIds)

/-- One request, payment or pause. -/
def step (w : World) : Request → World
  | .create u cadence refusal =>
    let m := createSellSubscriptionPayment env (w.gateway ids refusal) u w.now cadence
    { w with
      db := final m w.db
      links := w.links ++
        match (m w.db).2 with
        | .ok r => [linkOf u r.1]
        | .error _ => [] }
  | .pay id => { w with paid := if id ∈ w.links.map (·.id) then id :: w.paid else w.paid }
  | .confirm u refusal =>
    { w with
      db := final (confirmSellSubscriptionPayment env (w.gateway ids refusal) u w.now) w.db }
  | .request u => { w with db := final (requestSellSubscription u) w.db }
  | .set u status => { w with db := final (setSellSubscription u w.now status) w.db }
  | .wait seconds => { w with now := w.now + seconds }

/-! ## Activations -/

/-- The activations for a payment link: of which shop, with which cadence and amount. -/
def activations (db : Db) (ref : String) : List (ℕ × String × ℚ) :=
  db.notifications.rows.filterMap fun r => do
    let data ← r.2.data
    let bill ← data.subscription
    if bill.paymentRef = ref then some (r.2.userId, bill.cadence, bill.amount) else none

/-- The activation that a link pays for. -/
def PlanLink.activation (l : PlanLink) : ℕ × String × ℚ := (l.userId, l.cadence, l.amount)

/-- No link is activated twice, and one that was paid when its shop confirmed, with Razorpay
answering, is activated once, for what it charges. -/
def PaidLinksHonoured (w : World) (rs : List Request) : Prop :=
  (∀ l ∈ (run (step env ids) w rs).links,
    (activations (run (step env ids) w rs).db l.id).length ≤ 1) ∧
  ∀ pre u post, rs = pre ++ .confirm u none :: post →
    ∀ l ∈ (run (step env ids) w pre).links, l.userId = u →
      l.id ∈ (run (step env ids) w pre).paid →
      activations (run (step env ids) w rs).db l.id = [l.activation]

/-! ## The condition -/

/-- The link is the one in the slot of its shop, with what it charges. -/
def Waiting (db : Db) (l : PlanLink) : Prop :=
  ((profileOf db l.userId).bind fun r => r.2.sellRzPending) = some l.pending.text

instance (db : Db) (l : PlanLink) : Decidable (Waiting db l) :=
  inferInstanceAs (Decidable (_ = _))

/-- No link of the shop is paid and still to be confirmed. -/
def Confirmed (w : World) (u : ℕ) : Prop :=
  ∀ l ∈ w.links, l.userId = u → l.id ∈ w.paid → ¬ Waiting w.db l

instance (w : World) (u : ℕ) : Decidable (Confirmed w u) :=
  inferInstanceAs (Decidable (∀ _ ∈ _, _))

/-- A link is paid while it is in its slot, and the slot is overwritten or cleared when no paid
link is in it. -/
def Orderly (w : World) : Request → Prop
  | .create u cadence refusal =>
    normal cadence ∈ ["monthly", "yearly"] → refusal = none → Confirmed w u
  | .pay id => ∀ l ∈ w.links, l.id = id → id ∉ w.paid → Waiting w.db l
  | .set u status => normal status = "approved" → Confirmed w u
  | _ => True

instance (w : World) : (r : Request) → Decidable (Orderly w r)
  | .create _ _ _ => inferInstanceAs (Decidable (_ → _ → _))
  | .pay _ => inferInstanceAs (Decidable (∀ _ ∈ _, _))
  | .set _ _ => inferInstanceAs (Decidable (_ → _))
  | .confirm _ _ | .request _ | .wait _ => .isTrue trivial

/-- Before the first request: no link is made, nothing is pending and nothing is activated. -/
structure Fresh (w : World) : Prop where
  links : w.links = []
  paid : w.paid = []
  slots : ∀ u i p, profileOf w.db u = some (i, p) → p.sellRzPending = none
  bills : ∀ n, activations w.db (ids.id n) = []

/-! ## The invariant -/

/-- What a run keeps: the links are of shops that may confirm them, the link in a slot is not
activated, and a paid link is in its slot or is activated. -/
structure Kept (w : World) : Prop where
  named : ∀ n l, w.links[n]? = some l → l.id = ids.id n
  shops : ∀ l ∈ w.links, ∃ i p, Approved w.db l.userId i p
  configured : w.links ≠ [] → env.settings.razorpayConfigured
  cadences : ∀ l ∈ w.links, l.cadence ∈ ["monthly", "yearly"]
  cents : ∀ l ∈ w.links, IsCents l.amount
  known : ∀ id ∈ w.paid, id ∈ w.links.map (·.id)
  slots : ∀ u i p text, profileOf w.db u = some (i, p) → p.sellRzPending = some text →
    ∃ l ∈ w.links, ∃ price, l.userId = u ∧ text = Pending.text ⟨l.id, l.cadence, price⟩ ∧
      activations w.db l.id = []
  paid : ∀ l ∈ w.links, l.id ∈ w.paid →
    Waiting w.db l ∨ activations w.db l.id = [l.activation]
  unpaid : ∀ n, ids.id n ∉ w.paid → activations w.db (ids.id n) = []

section Steps

variable {env ids} {w : World} {u i : ℕ} {p : RetailerProfile}

theorem Kept.eq_of_id_eq (h : Kept env ids w) {l k : PlanLink} (hl : l ∈ w.links)
    (hk : k ∈ w.links) (hid : l.id = k.id) : l = k := by
  obtain ⟨m, hm⟩ := List.mem_iff_getElem?.1 hl
  obtain ⟨n, hn⟩ := List.mem_iff_getElem?.1 hk
  rw [h.named m l hm, h.named n k hn] at hid
  obtain rfl := ids.injective hid
  exact Option.some.inj (hm.symm.trans hn)

theorem Kept.plain (h : Kept env ids w) {l : PlanLink} (hl : l ∈ w.links) : PlainId l.id := by
  obtain ⟨n, hn⟩ := List.mem_iff_getElem?.1 hl
  rw [h.named n l hn]
  exact ids.plain n

theorem Kept.plain_cadence (h : Kept env ids w) {l : PlanLink} (hl : l ∈ w.links) :
    PlainId l.cadence := plainId_cadence (h.cadences l hl)

/-- A link in a slot is read back from it. -/
theorem Kept.pendingPayment_of_slot (h : Kept env ids w) {l : PlanLink} (hl : l ∈ w.links)
    (hslot : p.sellRzPending = some l.pending.text) :
    pendingText p ≠ [] ∧ pendingPayment (pendingText p) = some l.pending := by
  refine ⟨pendingText_ne_nil l.pending (h.plain hl) (h.plain_cadence hl) hslot, ?_⟩
  rw [pendingPayment_text l.pending (h.plain hl) (h.plain_cadence hl) hslot]
  simp only [PlanLink.pending, round2_of_isCents (h.cents l hl)]

/-- The link of a slot is not activated. -/
theorem Kept.of_waiting (h : Kept env ids w) {l : PlanLink} (hl : l ∈ w.links)
    (hwait : Waiting w.db l) :
    ∃ i p, Approved w.db l.userId i p ∧ p.sellRzPending = some l.pending.text ∧
      activations w.db l.id = [] := by
  obtain ⟨i, p, happroved⟩ := h.shops l hl
  have hslot : p.sellRzPending = some l.pending.text := by
    unfold Waiting at hwait
    rw [happroved.found] at hwait
    exact hwait
  obtain ⟨k, hk, price, -, htext, hnone⟩ := h.slots _ i p _ happroved.found hslot
  have hid : l.id = k.id :=
    linkId_eq_of_text_eq l.pending ⟨k.id, k.cadence, price⟩ (h.plain hl) (h.plain hk) htext
  exact ⟨i, p, happroved, hslot, hid ▸ hnone⟩

/-- The slot of a shop holds one link. -/
theorem Kept.id_eq_of_waiting (h : Kept env ids w) {l k : PlanLink} (hl : l ∈ w.links)
    (hk : k ∈ w.links) (hu : l.userId = k.userId) (hlwait : Waiting w.db l)
    (hkwait : Waiting w.db k) : l.id = k.id := by
  unfold Waiting at hlwait hkwait
  rw [hu] at hlwait
  exact linkId_eq_of_text_eq l.pending k.pending (h.plain hl) (h.plain hk)
    (Option.some.inj (hlwait.symm.trans hkwait))

/-! ### Rewriting a profile -/

/-- The rewritten profile is that of the same shop, approved or blocked as before. -/
structure SameShop (f : RetailerProfile → RetailerProfile) : Prop where
  userId : ∀ q, (f q).userId = q.userId
  isBlocked : ∀ q, (f q).isBlocked = q.isBlocked
  approvalStatus : ∀ q, (f q).approvalStatus = q.approvalStatus

theorem sameShop_expired : SameShop expired := ⟨fun _ => rfl, fun _ => rfl, fun _ => rfl⟩

theorem sameShop_asPending : SameShop asPending := ⟨fun _ => rfl, fun _ => rfl, fun _ => rfl⟩

theorem sameShop_awaiting (pending : Pending) : SameShop (awaiting pending) :=
  ⟨fun _ => rfl, fun _ => rfl, fun _ => rfl⟩

theorem sameShop_activated (now : ℕ) (cadence : String) : SameShop (activated now cadence) :=
  ⟨fun _ => rfl, fun _ => rfl, fun _ => rfl⟩

theorem sameShop_overridden (now : ℕ) (status : String) : SameShop (overridden now status) := by
  refine ⟨fun q => ?_, fun q => ?_, fun q => ?_⟩ <;> unfold overridden <;> split_ifs <;> rfl

theorem approved_rewritten {f : RetailerProfile → RetailerProfile} {s t : Db} {v : ℕ}
    (hp : profileOf s u = some (i, p)) (hf : SameShop f)
    (ht : t.profiles = s.profiles.modify i f) (h : ∃ j q, Approved s v j q) :
    ∃ j q, Approved t v j q := by
  obtain ⟨j, q, hq⟩ := h
  by_cases hv : v = u
  · subst hv
    have hsame := hq.found
    rw [hp] at hsame
    cases hsame
    exact ⟨i, f p, profileOf_modify hp ht hf.userId, (hf.isBlocked p).trans hq.unblocked,
      (hf.approvalStatus p).trans hq.approved⟩
  · exact ⟨j, q, (profileOf_modify_of_ne hp ht hf.userId hv).trans hq.found, hq.unblocked,
      hq.approved⟩

theorem waiting_rewritten_of_ne {f : RetailerProfile → RetailerProfile} {s t : Db} {l : PlanLink}
    (hp : profileOf s u = some (i, p)) (hf : SameShop f)
    (ht : t.profiles = s.profiles.modify i f) (hne : l.userId ≠ u) :
    Waiting t l ↔ Waiting s l := by
  unfold Waiting
  rw [profileOf_modify_of_ne hp ht hf.userId hne]

theorem waiting_rewritten_of_same {f : RetailerProfile → RetailerProfile} {s t : Db} {l : PlanLink}
    (hp : profileOf s u = some (i, p)) (hf : SameShop f)
    (ht : t.profiles = s.profiles.modify i f) (hslot : (f p).sellRzPending = p.sellRzPending) :
    Waiting t l ↔ Waiting s l := by
  by_cases hu : l.userId = u
  · unfold Waiting
    rw [hu, profileOf_modify hp ht hf.userId, hp, Option.bind_some, Option.bind_some, hslot]
  · exact waiting_rewritten_of_ne hp hf ht hu

/-- Rewriting a profile keeps the invariant when the slot stays, or is cleared with no paid link
in it. -/
theorem Kept.rewrite (h : Kept env ids w) (hp : profileOf w.db u = some (i, p))
    {f : RetailerProfile → RetailerProfile} (hf : SameShop f)
    (hslot : (f p).sellRzPending = p.sellRzPending ∨
      (f p).sellRzPending = none ∧ Confirmed w u) :
    Kept env ids { w with db := withProfile i f w.db } where
  named := h.named
  shops := fun l hl => approved_rewritten hp hf rfl (h.shops l hl)
  configured := h.configured
  cadences := h.cadences
  cents := h.cents
  known := h.known
  slots := by
    intro v j q text hq htext
    by_cases hv : v = u
    · subst hv
      rw [profileOf_withProfile hp hf.userId] at hq
      cases hq
      rcases hslot with hslot | ⟨hslot, -⟩
      · exact h.slots v i p text hp (hslot ▸ htext)
      · rw [hslot] at htext
        cases htext
    · rw [profileOf_withProfile_of_ne hp hf.userId hv] at hq
      exact h.slots v j q text hq htext
  paid := by
    intro l hl hpaid
    refine (h.paid l hl hpaid).imp_left fun hwait => ?_
    rcases hslot with hslot | ⟨-, hconfirmed⟩
    · exact (waiting_rewritten_of_same hp hf rfl hslot).2 hwait
    · refine (waiting_rewritten_of_ne hp hf rfl fun hu => ?_).2 hwait
      exact hconfirmed l hl hu hpaid hwait
  unpaid := h.unpaid

/-! ### A new link -/

theorem Kept.fresh_id (h : Kept env ids w) : ids.id w.links.length ∉ w.paid := by
  intro hpaid
  obtain ⟨l, hl, hid⟩ := List.mem_map.1 (h.known _ hpaid)
  obtain ⟨n, hn⟩ := List.mem_iff_getElem?.1 hl
  rw [h.named n l hn] at hid
  obtain rfl := ids.injective hid
  have hlt := (List.getElem?_eq_some_iff.1 hn).1
  omega

/-- A new link goes into the slot of its shop, in the place of one that is not paid. -/
theorem Kept.add (h : Kept env ids w) {k : PlanLink} {pending : Pending}
    (happroved : Approved w.db k.userId i p) (hconfigured : env.settings.razorpayConfigured)
    (hid : k.id = ids.id w.links.length) (hlink : pending.linkId = k.id)
    (hcadence : pending.cadence = k.cadence) (hplan : k.cadence ∈ ["monthly", "yearly"])
    (hcents : IsCents k.amount) (hconfirmed : Confirmed w k.userId) :
    Kept env ids { w with
      db := withProfile i (awaiting pending) w.db
      links := w.links ++ [k] } where
  named := by
    intro n l hl
    rcases Nat.lt_or_ge n w.links.length with hlt | hge
    · rw [List.getElem?_append_left hlt] at hl
      exact h.named n l hl
    · rw [List.getElem?_append_right hge, List.getElem?_singleton] at hl
      split_ifs at hl with hn
      obtain rfl := Option.some.inj hl
      have hlen : n = w.links.length := by omega
      rw [hlen, hid]
  shops := by
    intro l hl
    refine approved_rewritten happroved.found (sameShop_awaiting pending) rfl ?_
    rcases List.mem_append.1 hl with hl | hl
    · exact h.shops l hl
    · obtain rfl := List.mem_singleton.1 hl
      exact ⟨i, p, happroved⟩
  configured := fun _ => hconfigured
  cadences := by
    intro l hl
    rcases List.mem_append.1 hl with hl | hl
    · exact h.cadences l hl
    · obtain rfl := List.mem_singleton.1 hl
      exact hplan
  cents := by
    intro l hl
    rcases List.mem_append.1 hl with hl | hl
    · exact h.cents l hl
    · obtain rfl := List.mem_singleton.1 hl
      exact hcents
  known := by
    intro id hpaid
    rw [List.map_append]
    exact List.mem_append_left _ (h.known id hpaid)
  slots := by
    intro v j q text hq htext
    by_cases hv : v = k.userId
    · subst hv
      rw [profileOf_withProfile happroved.found (sameShop_awaiting pending).userId] at hq
      cases hq
      refine ⟨k, by simp, pending.amount, rfl, ?_, ?_⟩
      · rw [← hlink, ← hcadence]
        exact (Option.some.inj htext).symm
      · have hnone := h.unpaid _ h.fresh_id
        rw [← hid] at hnone
        exact hnone
    · rw [profileOf_withProfile_of_ne happroved.found (sameShop_awaiting pending).userId hv] at hq
      obtain ⟨l, hl, hslot⟩ := h.slots v j q text hq htext
      exact ⟨l, List.mem_append_left _ hl, hslot⟩
  paid := by
    intro l hl hpaid
    rcases List.mem_append.1 hl with hl | hl
    · refine (h.paid l hl hpaid).imp_left fun hwait => ?_
      refine (waiting_rewritten_of_ne happroved.found (sameShop_awaiting pending) rfl ?_).2 hwait
      exact fun hu => hconfirmed l hl hu hpaid hwait
    · obtain rfl := List.mem_singleton.1 hl
      rw [hid] at hpaid
      exact absurd hpaid h.fresh_id
  unpaid := h.unpaid

theorem Kept.create (h : Kept env ids w) {cadence : String} {refusal : Option String}
    (hok : Orderly w (.create u cadence refusal)) :
    Kept env ids (step env ids w (.create u cadence refusal)) := by
  rcases create_cases env (w.gateway ids refusal) w.db u w.now cadence with
    hraises | ⟨i, p, request, link, pending, happroved, hcadence, -, hplan, hconfigured, hamount,
      hlink, hid, hreturns⟩
  · obtain ⟨e, he⟩ := hraises.outcome
    have hsame : step env ids w (.create u cadence refusal) = w := by
      simp only [step, hraises.final, he, List.append_nil]
    rw [hsame]
    exact h
  · have hstep : step env ids w (.create u cadence refusal) =
        { w with
          db := withProfile i (awaiting pending) w.db
          links := w.links ++ [linkOf u (planPayment pending link p)] } := by
      simp only [step, hreturns.final, hreturns.outcome]
    cases refusal with
    | some text => cases hlink
    | none =>
      cases hlink
      have hnew : pending.linkId = ids.id w.links.length := by
        rw [truthy_some (ids.plain _).1] at hid
        exact (Option.some.inj hid).symm
      rw [hstep]
      rw [← hcadence] at hplan
      exact h.add happroved hconfigured rfl hnew rfl hplan ⟨_, rfl⟩ (hok (hcadence ▸ hplan) rfl)

/-! ### A payment -/

theorem Kept.pay (h : Kept env ids w) {id : String} (hok : Orderly w (.pay id)) :
    Kept env ids (step env ids w (.pay id)) := by
  by_cases hid : id ∈ w.links.map (·.id)
  swap
  · have hsame : step env ids w (.pay id) = w := by
      simp only [step, if_neg hid]
    rw [hsame]
    exact h
  have hstep : step env ids w (.pay id) = { w with paid := id :: w.paid } := by
    simp only [step, if_pos hid]
  rw [hstep]
  exact {
    h with
    known := by
      intro id' hid'
      rcases List.mem_cons.1 hid' with rfl | hid'
      · exact hid
      · exact h.known id' hid'
    paid := by
      intro l hl hpaid
      by_cases hbefore : l.id ∈ w.paid
      · exact h.paid l hl hbefore
      · rcases List.mem_cons.1 hpaid with hnew | hpaid
        · exact Or.inl (hok l hl hnew (hnew ▸ hbefore))
        · exact absurd hpaid hbefore
    unpaid := fun n hn => h.unpaid n fun hpaid => hn (List.mem_cons_of_mem _ hpaid) }

/-! ### A confirmation -/

/-- An activation adds its own to those of its link. -/
theorem activations_activatePaid (now : ℕ) (r : ℕ × RetailerProfile) (pending : Pending) (s : Db)
    (ref : String) :
    activations (activatePaid now r pending s) ref =
      activations s ref ++
        if pending.linkId = ref then [(r.2.userId, pending.cadence, pending.amount)] else [] := by
  unfold activations activatePaid
  simp only [Table.rows_insert, List.filterMap_append, planBill]
  split_ifs with h <;> simp [h]

theorem paid_of_status {refusal status : Option String} {id : String}
    (h : getPaymentLink env (w.gateway ids refusal) id = .ok status)
    (hpaid : linkStatus status = "paid") : id ∈ w.paid := by
  unfold getPaymentLink Integrations.post World.gateway at h
  split_ifs at h
  cases refusal with
  | some text => cases h
  | none =>
    dsimp only at h
    split_ifs at h with hknown hin
    · exact hin
    · cases h
      exact absurd hpaid (by decide)

/-- What a confirmation does: it activates, if anything, the paid link in the slot of the shop. -/
theorem Kept.confirm_cases (h : Kept env ids w) (u : ℕ) (refusal : Option String) :
    step env ids w (.confirm u refusal) = w ∨
      (∃ i p, profileOf w.db u = some (i, p) ∧
        step env ids w (.confirm u refusal) = { w with db := withExpired i w.db }) ∨
      ∃ i p, ∃ l ∈ w.links, l.userId = u ∧ profileOf w.db u = some (i, p) ∧ l.id ∈ w.paid ∧
        Waiting w.db l ∧
        step env ids w (.confirm u refusal) =
          { w with db := activatePaid w.now (i, p) l.pending w.db } := by
  rcases Sell.confirm_cases env (w.gateway ids refusal) w.db u w.now with hsame | ⟨i, p, hp, -, ht⟩ |
    ⟨i, p, pending, status, happroved, hslot, hpending, hstatus, hpaid, ht⟩
  · exact Or.inl (by simp only [step, hsame])
  · exact Or.inr (Or.inl ⟨i, p, hp, by simp only [step, ht]⟩)
  · refine Or.inr (Or.inr ?_)
    have htext : ∃ text, p.sellRzPending = some text := by
      cases hnone : p.sellRzPending with
      | none => exact absurd (pendingText_eq_nil hnone) hslot
      | some text => exact ⟨text, rfl⟩
    obtain ⟨text, htext⟩ := htext
    obtain ⟨l, hl, price, hu, hwritten, hnone⟩ := h.slots u i p text happroved.found htext
    subst hwritten
    have hread := pendingPayment_text ⟨l.id, l.cadence, price⟩ (h.plain hl)
      (h.plain_cadence hl) htext
    rw [hpending] at hread
    obtain rfl := Option.some.inj hread
    have hlpaid : l.id ∈ w.paid := paid_of_status hstatus hpaid
    -- a paid link that is not activated waits in the slot with what it charges
    have hwait : Waiting w.db l := by
      rcases h.paid l hl hlpaid with hwait | hdone
      · exact hwait
      · rw [hnone] at hdone
        cases hdone
    obtain ⟨j, q, hq, hqslot, -⟩ := h.of_waiting hl hwait
    have hsame := hq.found
    rw [hu, happroved.found] at hsame
    cases hsame
    have hslotted := (h.pendingPayment_of_slot hl hqslot).2
    rw [hpending] at hslotted
    refine ⟨i, p, l, hl, hu, happroved.found, hlpaid, hwait, ?_⟩
    rw [← Option.some.inj hslotted]
    simp only [step, ht]

/-- An activation keeps the invariant. -/
theorem Kept.activate (h : Kept env ids w) {l : PlanLink} (hl : l ∈ w.links) (hu : l.userId = u)
    (hp : profileOf w.db u = some (i, p)) (hpaid : l.id ∈ w.paid)
    (hwait : Waiting w.db l) (now : ℕ) :
    Kept env ids { w with db := activatePaid now (i, p) l.pending w.db } := by
  obtain ⟨-, -, -, -, hnone⟩ := h.of_waiting hl hwait
  have hf := sameShop_activated now l.cadence
  have hprofiles : (activatePaid now (i, p) l.pending w.db).profiles =
      w.db.profiles.modify i (activated now l.cadence) := rfl
  have hactivations : ∀ ref, ref ≠ l.id →
      activations (activatePaid now (i, p) l.pending w.db) ref = activations w.db ref := by
    intro ref hne
    rw [activations_activatePaid, if_neg fun h => hne h.symm, List.append_nil]
  have hself : activations (activatePaid now (i, p) l.pending w.db) l.id = [l.activation] := by
    rw [activations_activatePaid, hnone, if_pos l.linkId_pending]
    simp only [PlanLink.pending, PlanLink.activation, List.nil_append, (profileOf_userId hp).2, hu]
  exact {
    h with
    shops := fun k hk => approved_rewritten hp hf hprofiles (h.shops k hk)
    slots := by
      intro v j q text hq htext
      by_cases hv : v = u
      · subst hv
        rw [profileOf_modify hp hprofiles hf.userId] at hq
        cases hq
        cases htext
      · rw [profileOf_modify_of_ne hp hprofiles hf.userId hv] at hq
        obtain ⟨k, hk, price, hkv, hwritten, hknone⟩ := h.slots v j q text hq htext
        refine ⟨k, hk, price, hkv, hwritten, ?_⟩
        rw [hactivations k.id fun hid => ?_]
        · exact hknone
        · obtain rfl := h.eq_of_id_eq hk hl hid
          exact hv (hkv.symm.trans hu)
    paid := by
      intro k hk hkpaid
      by_cases hid : k.id = l.id
      · obtain rfl := h.eq_of_id_eq hk hl hid
        exact Or.inr hself
      · rcases h.paid k hk hkpaid with hkwait | hdone
        · have hku : k.userId ≠ u := fun hku =>
            hid (h.id_eq_of_waiting hk hl (hku.trans hu.symm) hkwait hwait)
          exact Or.inl ((waiting_rewritten_of_ne hp hf hprofiles hku).2 hkwait)
        · rw [hactivations k.id hid]
          exact Or.inr hdone
    unpaid := by
      intro n hn
      have hne : ids.id n ≠ l.id := fun hid => hn (by rw [hid]; exact hpaid)
      exact (hactivations _ hne).trans (h.unpaid n hn) }

/-! ### Any step -/

theorem Kept.confirm (h : Kept env ids w) (u : ℕ) (refusal : Option String) :
    Kept env ids (step env ids w (.confirm u refusal)) := by
  rcases h.confirm_cases u refusal with hsame | ⟨i, p, hp, ht⟩ |
    ⟨i, p, l, hl, hu, hp, hpaid, hwait, ht⟩
  · rw [hsame]
    exact h
  · rw [ht]
    exact h.rewrite hp sameShop_expired (Or.inl rfl)
  · rw [ht]
    exact h.activate hl hu hp hpaid hwait w.now

theorem Kept.request (h : Kept env ids w) (u : ℕ) :
    Kept env ids (step env ids w (.request u)) := by
  rcases request_cases w.db u with hsame | ⟨i, p, hp, -, ht⟩
  · simp only [step, hsame]
    exact h
  · simp only [step, ht]
    exact h.rewrite hp sameShop_asPending (Or.inl rfl)

theorem Kept.set (h : Kept env ids w) {status : String} (hok : Orderly w (.set u status)) :
    Kept env ids (step env ids w (.set u status)) := by
  rcases set_cases w.db u w.now status with hsame | ⟨i, p, hp, ht⟩
  · simp only [step, hsame]
    exact h
  · simp only [step, ht]
    refine h.rewrite hp (sameShop_overridden _ _) ?_
    by_cases hstatus : normal status = "approved"
    · exact Or.inr ⟨by simp [overridden, hstatus], hok hstatus⟩
    · exact Or.inl (by simp [overridden, hstatus])

theorem Kept.step (h : Kept env ids w) {r : Request} (hok : Orderly w r) :
    Kept env ids (step env ids w r) := by
  cases r with
  | create u cadence refusal => exact h.create hok
  | pay id => exact h.pay hok
  | confirm u refusal => exact h.confirm u refusal
  | request u => exact h.request u
  | set u status => exact h.set hok
  | wait seconds => exact { h with }

/-- A link that is activated is not activated again. -/
theorem Kept.activations_step (h : Kept env ids w) (r : Request) {id : String}
    (hdone : activations w.db id ≠ []) :
    activations (PaidLinks.step env ids w r).db id = activations w.db id := by
  cases r with
  | create u cadence refusal =>
    rcases create_cases env (w.gateway ids refusal) w.db u w.now cadence with
      hraises | ⟨i, p, request, link, pending, -, -, -, -, -, -, -, -, hreturns⟩
    · simp only [PaidLinks.step, hraises.final]
    · simp only [PaidLinks.step, hreturns.final]
      rfl
  | pay id => rfl
  | confirm u refusal =>
    rcases h.confirm_cases u refusal with hsame | ⟨i, p, hp, ht⟩ |
      ⟨i, p, l, hl, hu, hp, hpaid, hwait, ht⟩
    · rw [hsame]
    · rw [ht]
      rfl
    · obtain ⟨-, -, -, -, hnone⟩ := h.of_waiting hl hwait
      have hne : l.id ≠ id := by
        rintro rfl
        exact hdone hnone
      rw [ht, activations_activatePaid, l.linkId_pending, if_neg hne, List.append_nil]
  | request u =>
    rcases request_cases w.db u with hsame | ⟨i, p, hp, -, ht⟩
    · simp only [PaidLinks.step, hsame]
    · simp only [PaidLinks.step, ht]
      rfl
  | set u status =>
    rcases set_cases w.db u w.now status with hsame | ⟨i, p, hp, ht⟩
    · simp only [PaidLinks.step, hsame]
    · simp only [PaidLinks.step, ht]
      rfl
  | wait seconds => rfl

/-- A confirmation honours the paid link of its shop. -/
theorem Kept.honoured (h : Kept env ids w) {l : PlanLink} (hl : l ∈ w.links)
    (hpaid : l.id ∈ w.paid) :
    activations (PaidLinks.step env ids w (.confirm l.userId none)).db l.id = [l.activation] := by
  rcases h.paid l hl hpaid with hwait | hdone
  swap
  · rw [h.activations_step _ (by rw [hdone]; simp), hdone]
  obtain ⟨i, p, happroved, hslot, hnone⟩ := h.of_waiting hl hwait
  obtain ⟨hsome, hread⟩ := h.pendingPayment_of_slot hl hslot
  have hstatus : getPaymentLink env (w.gateway ids none) l.pending.linkId = .ok (some "paid") := by
    have hknown : l.id ∈ w.links.map (·.id) := List.mem_map_of_mem hl
    have hconfigured := h.configured (List.ne_nil_of_mem hl)
    unfold getPaymentLink Integrations.post World.gateway PlanLink.pending
    simp only [if_pos hconfigured, if_pos hknown, if_pos hpaid]
  have hfinal : final (confirmSellSubscriptionPayment env (w.gateway ids none) l.userId w.now) w.db =
      activatePaid w.now (i, p) l.pending w.db :=
    confirm_of_paid happroved hsome hread hstatus (by decide)
  simp only [PaidLinks.step, hfinal]
  rw [activations_activatePaid, hnone, if_pos l.linkId_pending, (profileOf_userId happroved.found).2]
  rfl

/-! ## Whole runs -/

theorem Fresh.kept (h : Fresh ids w) : Kept env ids w where
  named := by simp [h.links]
  shops := by simp [h.links]
  configured := fun hne => absurd h.links hne
  cadences := by simp [h.links]
  cents := by simp [h.links]
  known := by simp [h.paid]
  slots := by
    intro u i p text hp htext
    rw [h.slots u i p hp] at htext
    cases htext
  paid := by simp [h.links]
  unpaid := fun n _ => h.bills n

/-- What is activated stays as it is. -/
theorem Kept.activations_run (h : Kept env ids w) {rs : List Request}
    (hok : Stepwise (PaidLinks.step env ids) Orderly w rs) {id : String}
    (hdone : activations w.db id ≠ []) :
    activations (run (PaidLinks.step env ids) w rs).db id = activations w.db id := by
  induction rs generalizing w with
  | nil => rfl
  | cons r rs ih =>
    obtain ⟨hr, hrs⟩ := stepwise_cons.1 hok
    have hstep := h.activations_step r hdone
    rw [run_cons, ih (h.step hr) hrs (by rw [hstep]; exact hdone), hstep]

/-- In a run in which links are paid in their slots, and paid links stay there until they are
confirmed, every paid link is honoured exactly once. -/
theorem paidLinksHonoured (hfresh : Fresh ids w) {rs : List Request}
    (hok : Stepwise (PaidLinks.step env ids) Orderly w rs) : PaidLinksHonoured env ids w rs := by
  have hthrough : Throughout (PaidLinks.step env ids) (Kept env ids) w rs :=
    throughout_of_stepwise (fun _ _ h hr => h.step hr) hfresh.kept hok
  refine ⟨fun l hl => ?_, ?_⟩
  · have h := hthrough.final
    by_cases hpaid : l.id ∈ (run (PaidLinks.step env ids) w rs).paid
    · rcases h.paid l hl hpaid with hwait | hdone
      · obtain ⟨-, -, -, -, hnone⟩ := h.of_waiting hl hwait
        simp [hnone]
      · simp [hdone]
    · obtain ⟨n, hn⟩ := List.mem_iff_getElem?.1 hl
      rw [h.named n l hn] at hpaid ⊢
      simp [h.unpaid n hpaid]
  · rintro pre u post rfl l hl rfl hpaid
    have hpre := hthrough pre (List.prefix_append _ _)
    have hhonoured := hpre.honoured hl hpaid
    obtain ⟨hr, hpost⟩ := stepwise_cons.1 (hok.after (List.prefix_refl _))
    rw [run_append, run_cons,
      (hpre.step hr).activations_run hpost (by rw [hhonoured]; simp), hhonoured]

end Steps

/-! ## A paid link that is lost -/

/-- Ids that are numbered. -/
def plinks : LinkIds where
  id n := String.ofList ('p' :: natText n)
  injective := by
    intro m n h
    have hlist := List.cons_inj_right _ |>.1 (String.ofList_inj.1 h)
    have hparse := congrArg parseDigits hlist
    rw [parseDigits_natText, parseDigits_natText] at hparse
    exact Option.some.inj hparse
  plain n := by
    refine ⟨fun h => ?_, fun c hc => ?_⟩
    · have hlist := congrArg String.toList h
      simp at hlist
    · rw [String.toList_ofList, List.mem_cons] at hc
      rcases hc with rfl | hc
      · decide
      · have hdigit := isDigit_of_mem_natText hc
        exact ⟨ne_of_isDigit hdigit (by decide), isSpace_of_isDigit hdigit⟩

/-- An approved shop that does not sell yet. -/
def bakery : RetailerProfile where
  userId := 1
  shopName := "Bakery"
  creditAllowed := false
  creditLimit := 0
  outstandingBalance := 0
  payableBalance := 0
  isWholesaler := false
  isBlocked := false

def opening : World where
  db := { Db.empty with profiles := .ofList [bakery] }
  now := 1000
  links := []
  paid := []

theorem fresh_opening : Fresh plinks opening where
  links := rfl
  paid := rfl
  slots := by
    intro u i p hp
    have hrow := (Table.get?_eq_some.1 (profileOf_userId hp).1)
    have hrows : opening.db.profiles.rows = [(1, bakery)] := by decide
    rw [hrows, List.mem_singleton] at hrow
    cases hrow
    rfl
  bills := fun _ => rfl

/-- The shop asks for a monthly plan, pays and confirms. -/
def payMonthly : List Request := [.create 1 "Monthly" none, .pay "p0", .confirm 1 none, .confirm 1 none]

theorem payMonthly_honoured : PaidLinksHonoured plainEnv plinks opening payMonthly := by
  refine paidLinksHonoured fresh_opening ?_
  unfold payMonthly
  simp only [stepwise_cons]
  refine ⟨?_, ?_, ?_, ?_, stepwise_nil _ _⟩ <;> decide +kernel

/-- The shop asks for a monthly plan, then looks at the yearly one, and pays the first link. -/
def payFirst : List Request :=
  [.create 1 "monthly" none, .create 1 "yearly" none, .pay "p0", .confirm 1 none]

theorem paidLinks_lost :
    ¬ ∀ (env : Env) (ids : LinkIds) (w : World) (rs : List Request), Fresh ids w →
      PaidLinksHonoured env ids w rs := by
  intro h
  have hlast := (h plainEnv plinks opening payFirst fresh_opening).2
    [.create 1 "monthly" none, .create 1 "yearly" none, .pay "p0"] 1 [] rfl
    ⟨"p0", 1, "monthly", 499⟩ (by decide +kernel) rfl (by decide +kernel)
  have hnone : activations (run (step plainEnv plinks) opening payFirst).db "p0" = [] := by
    decide +kernel
  rw [hnone] at hlast
  cases hlast

end PaidLinks

end SweetCrust
