import SweetCrust.StoreOps.PurchaseSettlement

/-!
# The amounts that a note remembers

`create_razorpay_pay` stores an amount in the note of a purchase order, behind a mark with the id
of the gateway order, and `verify_razorpay_pay` reads the amount behind the first such mark.  The
note is also where payments put their own texts, which may hold any mark.

* `serve` — a request, and what it stores.
* `ReadsBack` — each amount that was stored is the one that a verification reads.
* `Carries` — what requests that store nothing do to the notes.
* `Legible`, `Marked` — the invariants: the first mark of a gateway order is its own, and each
  mark is of a gateway order that something was stored for.
* `readsBack_of_unmarked` — amounts are read back if no note has the mark of a gateway order
  before its amount is stored, as it is where no text has a mark in it.
-/

namespace SweetCrust

open Tabular Guard Rounding Decimal Text PayRules Runs Interleave

namespace Purchase

/-- An amount that is stored in the note of a purchase order. -/
structure Stored where
  purchaseId : ℕ
  roid : String
  amount : ℚ
  deriving DecidableEq

/-- The database, and the amounts that were stored. -/
structure Books where
  db : Db
  stored : List Stored

/-- What a request stores: only `create_razorpay_pay` does, if it is served. -/
def stores (env : Payment.Env) (db : Db) : Request → Option Stored
  | .createPay gateway id amount now =>
    match createRazorpayPay env gateway id amount now db with
    | .ok _ => (asked env gateway id amount now db).map fun r => ⟨id, r.2.razorpayOrderId, r.1⟩
    | .error _ => none
  | _ => none

/-- The books after a request. -/
def serve (env : Payment.Env) (b : Books) (r : Request) : Books where
  db := step env b.db r
  stored := b.stored ++ (stores env b.db r).toList

/-- The amount that was stored with a gateway order is in the note, and a verification without an
amount is one with that amount. -/
def ReadsBack (env : Payment.Env) (b : Books) : Prop :=
  ∀ o ∈ b.stored,
    (∃ p, b.db.purchases.get? o.purchaseId = some p ∧ pendingAmount p o.roid = some o.amount) ∧
    ∀ pid signature, verifyRazorpayPay env o.purchaseId o.roid pid signature none b.db =
      verifyRazorpayPay env o.purchaseId o.roid pid signature (some o.amount) b.db

/-- The gateway gives each order an id of its own, without blanks and colons. -/
def GatewayIds (env : Payment.Env) (b : Books) (r : Request) : Prop :=
  ∀ o ∈ stores env b.db r,
    ' ' ∉ o.roid.toList ∧ ':' ∉ o.roid.toList ∧ ∀ o' ∈ b.stored, o'.roid ≠ o.roid

instance (env : Payment.Env) (b : Books) (r : Request) : Decidable (GatewayIds env b r) :=
  inferInstanceAs (Decidable (∀ o ∈ stores env b.db r, _))

/-- An amount is stored where the note has no mark of its gateway order. -/
def Unmarked (env : Payment.Env) (b : Books) (r : Request) : Prop :=
  ∀ o ∈ stores env b.db r, ∀ p ∈ b.db.purchases.get? o.purchaseId,
    ¬ Contains (pendingTag o.roid) (noteText p)

instance (env : Payment.Env) (b : Books) (r : Request) : Decidable (Unmarked env b r) :=
  inferInstanceAs (Decidable (∀ o ∈ stores env b.db r, ∀ p ∈ b.db.purchases.get? o.purchaseId, _))

/-- What every mark begins with. -/
def mark : List Char := "rz_pending:".toList

/-- The texts that a request may put into a note. -/
def Request.texts : Request → List String
  | .create _ _ _ _ note _ _ _ _ => note.toList
  | .pay _ _ _ note pid => note.toList ++ pid.toList
  | .verify _ roid pid _ _ => [roid, pid]
  | _ => []

/-- No text of the request has a mark in it. -/
def Request.Plain (r : Request) : Prop := ∀ t ∈ r.texts, ¬ Contains mark t.toList

/-! ## Marks -/

section Marks

variable {roid roid' : String} {pay : ℚ} {note pid : Option String} {s : List Char}

theorem contains_mark (h : Contains (pendingTag roid) s) : Contains mark s := by
  have hfront : mark <+: pendingTag roid := by
    unfold mark pendingTag
    rw [List.append_assoc]
    exact List.prefix_append _ _
  exact hfront.isInfix.trans h

theorem not_contains_of_underscore (h : '_' ∉ s) : ¬ Contains mark s := by
  intro hs
  have hmem : '_' ∈ mark := by decide
  exact h (hs.subset hmem)

theorem underscore_notMem_shortest (x : ℚ) : '_' ∉ shortest x := by
  intro hmem
  rcases char_of_mem_shortest hmem with h | h | h <;> exact absurd h (by decide)

theorem colon_notMem_fixed2 (x : ℚ) : ':' ∉ fixed2 x := by
  intro hmem
  rcases char_of_mem_fixed2 hmem with h | h | h <;> exact absurd h (by decide)

theorem pendingTag_eq (id : String) :
    pendingTag id = "rz_pending".toList ++ ':' :: (id.toList ++ [':']) := by
  have hfront : "rz_pending:".toList = "rz_pending".toList ++ [':'] := by decide
  unfold pendingTag
  rw [hfront]
  simp only [List.append_assoc, List.singleton_append]
  rfl

/-- The colons of a mark and an amount are those of the mark, so that a mark in them is the same
one. -/
theorem roid_of_contains (hcolon : ':' ∉ roid.toList)
    (h : Contains (pendingTag roid') (pendingTag roid ++ fixed2 pay)) : roid' = roid := by
  have hparts : (pendingTag roid ++ fixed2 pay).splitOn ':' =
      ["rz_pending".toList, roid.toList, fixed2 pay] := by
    rw [pendingTag_eq, List.append_assoc, List.cons_append, List.append_assoc,
      List.singleton_append, List.splitOn_append_cons_self, List.splitOn_append_cons_self,
      List.splitOn_eq_singleton (by decide), List.splitOn_eq_singleton hcolon,
      List.splitOn_eq_singleton (colon_notMem_fixed2 pay)]
    rfl
  obtain ⟨u, v, huv⟩ := h
  have hparts' : (pendingTag roid ++ fixed2 pay).splitOn ':' =
      (u ++ "rz_pending".toList).splitOn ':' ++ (roid'.toList.splitOn ':' ++ v.splitOn ':') := by
    have hassoc : u ++ ("rz_pending".toList ++ ':' :: (roid'.toList ++ [':'])) ++ v =
        (u ++ "rz_pending".toList) ++ ':' :: (roid'.toList ++ ':' :: v) := by simp
    rw [← huv, pendingTag_eq, hassoc, List.splitOn_append_cons_self,
      List.splitOn_append_cons_self]
  -- three parts on the one side, so one part for each piece on the other
  have hcounts := congrArg List.length hparts'
  rw [hparts, List.length_append, List.length_append, length_splitOn, length_splitOn,
    length_splitOn] at hcounts
  simp only [List.length_cons, List.length_nil] at hcounts
  rw [hparts, List.splitOn_eq_singleton (List.count_eq_zero.1 (by omega)),
    List.splitOn_eq_singleton (List.count_eq_zero.1 (by omega)),
    List.splitOn_eq_singleton (List.count_eq_zero.1 (by omega))] at hparts'
  simp only [List.singleton_append, List.cons.injEq] at hparts'
  exact (String.toList_injective hparts'.2.1).symm

/-- What a payment adds to the note. -/
def paidText (pay : ℚ) (note pid : Option String) : List Char :=
  "| Paid ".toList ++ shortest pay ++ ": ".toList ++ "; ".toList.intercalate (noteBits note pid)

/-- The mark of an applied payment begins otherwise. -/
theorem not_contains_paymentTag {id : String} (h : ¬ Contains mark id.toList) :
    ¬ Contains mark (paymentTag id) := by
  have htag : paymentTag id = 'r' :: 'z' :: 'p' :: ':' :: id.toList := by
    have hfront : "rzp:".toList = ['r', 'z', 'p', ':'] := by decide
    unfold paymentTag
    rw [hfront]
    rfl
  have hmark : mark = ['r', 'z', '_', 'p', 'e', 'n', 'd', 'i', 'n', 'g', ':'] := by decide
  unfold Contains at h ⊢
  rw [htag, List.infix_cons_iff, List.infix_cons_iff, List.infix_cons_iff, List.infix_cons_iff]
  rw [hmark] at h ⊢
  simp [List.cons_prefix_cons, h]

/-- Texts without marks are joined to one without. -/
theorem not_contains_bits (hnote : ∀ t ∈ note, ¬ Contains mark t.toList)
    (hpid : ∀ t ∈ pid, ¬ Contains mark t.toList) :
    ¬ Contains mark ("; ".toList.intercalate (noteBits note pid)) := by
  have htruthy : ∀ {s : Option String} {t : String}, truthy s = some t → t ∈ s := by
    intro s t h
    exact (Option.filter_eq_some_iff.1 h).1
  cases hn : truthy note with
  | none =>
    cases hp : truthy pid with
    | none =>
      have hbits : noteBits note pid = [] := by simp [noteBits, hn, hp]
      rw [hbits, List.intercalate_nil]
      exact not_contains_of_underscore List.not_mem_nil
    | some b =>
      have hbits : noteBits note pid = [paymentTag b] := by simp [noteBits, hn, hp]
      rw [hbits, List.intercalate_singleton]
      exact not_contains_paymentTag (hpid b (htruthy hp))
  | some a =>
    have ha := hnote a (htruthy hn)
    cases hp : truthy pid with
    | none =>
      have hbits : noteBits note pid = [a.toList] := by simp [noteBits, hn, hp]
      rw [hbits, List.intercalate_singleton]
      exact ha
    | some b =>
      have hb := not_contains_paymentTag (hpid b (htruthy hp))
      have hbits : noteBits note pid = [a.toList, paymentTag b] := by simp [noteBits, hn, hp]
      have hsep : "; ".toList = [';'] ++ [' '] := by decide
      rw [hbits, List.intercalate_cons_cons, List.intercalate_singleton, hsep]
      intro h
      have hjoin : Contains mark (a.toList ++ ';' :: ([] ++ ' ' :: paymentTag b)) := by
        simpa only [List.append_assoc, List.cons_append, List.nil_append] using h
      rcases contains_of_append_cons (by decide) hjoin with h | h
      · exact ha h
      rcases contains_of_append_cons (by decide) h with h | h
      · exact absurd h (by decide)
      · exact hb h

theorem not_contains_paidText (hnote : ∀ t ∈ note, ¬ Contains mark t.toList)
    (hpid : ∀ t ∈ pid, ¬ Contains mark t.toList) : ¬ Contains mark (paidText pay note pid) := by
  intro h
  have hfront : "| Paid ".toList = ['|'] ++ ' ' :: (['P', 'a', 'i', 'd'] ++ [' ']) := by decide
  have hcolon : ": ".toList = [':'] ++ [' '] := by decide
  have hsplit : paidText pay note pid = ['|'] ++ ' ' :: (['P', 'a', 'i', 'd'] ++ ' ' ::
      ((shortest pay ++ [':']) ++ ' ' :: "; ".toList.intercalate (noteBits note pid))) := by
    unfold paidText
    rw [hfront, hcolon]
    simp only [List.append_assoc, List.cons_append, List.nil_append]
  rw [hsplit] at h
  have hblank : ' ' ∉ mark := by decide
  rcases contains_of_append_cons hblank h with h | h
  · exact absurd h (by decide)
  rcases contains_of_append_cons hblank h with h | h
  · exact absurd h (by decide)
  rcases contains_of_append_cons hblank h with h | h
  · refine not_contains_of_underscore ?_ h
    rw [List.mem_append]
    rintro (hmem | hmem)
    · exact underscore_notMem_shortest pay hmem
    · exact absurd hmem (by decide)
  · exact not_contains_bits hnote hpid h

end Marks

/-! ## What a request does to the notes -/

/-- A row of a purchase order after a request that stores nothing: the note is what it was, or a
payment has added its text, which has no mark in it if the request has none. -/
inductive Rewritten (r : Request) (p : SupplierPurchase) : SupplierPurchase → Prop
  | same {q : SupplierPurchase} (h : noteText q = noteText p) : Rewritten r p q
  | settled (paid pay : ℚ) (method : String) (status : PurchaseStatus) (note pid : Option String)
      (plain : r.Plain → ¬ Contains mark (paidText pay note pid)) :
      Rewritten r p (settledRow paid method status
        (paidNote (noteText p) pay (noteBits note pid)) p)

/-- The rows stay, rewritten, and a new one has no mark if the request has none. -/
structure Carries (r : Request) (s t : Db) : Prop where
  old : ∀ j p, s.purchases.get? j = some p →
    ∃ q, t.purchases.get? j = some q ∧ Rewritten r p q
  new : r.Plain → ∀ j q, s.purchases.get? j = none → t.purchases.get? j = some q →
    ¬ Contains mark (noteText q)

section Rows

variable {env : Payment.Env} {r : Request} {s t : Db} {p q : SupplierPurchase} {id : ℕ}
  {roid : String}

theorem Rewritten.grows (h : Rewritten r p q) : NoteGrows p q := by
  cases h with
  | same h => exact .inl h
  | settled => exact noteGrows_settledRow _ _ _ _ _

/-- A mark that is there afterwards was there before. -/
theorem Rewritten.marks (h : Rewritten r p q) (hplain : r.Plain) (hblank : ' ' ∉ roid.toList)
    (hmark : Contains (pendingTag roid) (noteText q)) :
    Contains (pendingTag roid) (noteText p) := by
  cases h with
  | same h => rwa [h] at hmark
  | settled paid pay method status note pid plain =>
    by_cases hbits : noteBits note pid = []
    · have hnote : noteText (settledRow paid method status
          (paidNote (noteText p) pay (noteBits note pid)) p) = noteText p := by
        simp [noteText, settledRow, paidNote, hbits]
      rwa [hnote] at hmark
    · have hnote : noteText (settledRow paid method status
          (paidNote (noteText p) pay (noteBits note pid)) p) =
          strip isBar (noteText p ++ ' ' :: paidText pay note pid) := by
        have hfront : " | Paid ".toList = ' ' :: "| Paid ".toList := by decide
        unfold paidText paidNote
        rw [if_neg hbits, hfront]
        simp only [noteText, settledRow, Option.some_or, Option.getD_some, String.toList_ofList,
          List.append_assoc, List.cons_append]
      rw [hnote] at hmark
      rcases contains_of_append_cons (blank_notMem_pendingTag hblank)
        (hmark.trans strip_isInfix) with hold | hnew
      · exact hold
      · exact absurd (contains_mark hnew) (plain hplain)

theorem noteText_receivedRow (markPaid : Bool) (total : ℚ) (method : Option String)
    (p : SupplierPurchase) : noteText (receivedRow markPaid total method p) = noteText p := by
  cases markPaid <;> rfl

theorem carries_refl (r : Request) (s : Db) : Carries r s s where
  old := fun _ p hp => ⟨p, hp, .same rfl⟩
  new := fun _ j q hnone hq => by
    rw [hnone] at hq
    cases hq

theorem carries_modify {f : SupplierPurchase → SupplierPurchase} (hp : s.purchases.get? id = some p)
    (ht : t.purchases = s.purchases.modify id f) (hf : Rewritten r p (f p)) : Carries r s t where
  old := by
    intro j q hq
    rw [ht]
    by_cases hj : j = id
    · subst hj
      rw [hp, Option.some.injEq] at hq
      subst hq
      exact ⟨f p, by rw [Table.get?_modify_self, hp, Option.map_some], hf⟩
    · exact ⟨q, by rw [Table.get?_modify_of_ne _ _ hj, hq], .same rfl⟩
  new := by
    intro _ j q hnone hq
    rw [ht] at hq
    have hj : j ≠ id := by
      rintro rfl
      rw [hp] at hnone
      cases hnone
    rw [Table.get?_modify_of_ne _ _ hj, hnone] at hq
    cases hq

theorem carries_insert (ht : t.purchases = s.purchases.insert q)
    (hq : r.Plain → ¬ Contains mark (noteText q)) : Carries r s t where
  old := by
    intro j p hp
    have hj : j ≠ s.purchases.next := (Table.lt_next_of_get? hp).ne
    exact ⟨p, by rw [ht, Table.get?_insert, if_neg hj, hp], .same rfl⟩
  new := by
    intro hplain j q' hnone hq'
    rw [ht, Table.get?_insert] at hq'
    split_ifs at hq' with hj
    · cases hq'
      exact hq hplain
    · rw [hnone] at hq'
      cases hq'

/-- A payment adds its own text. -/
theorem carries_pay {amount : Option ℚ} {payMethod : String} {note pid : Option String}
    {write : Db → Db} (h : payPurchase id amount payMethod note pid s = .ok write)
    (hplain : r.Plain →
      (∀ t ∈ note, ¬ Contains mark t.toList) ∧ ∀ t ∈ pid, ¬ Contains mark t.toList) :
    Carries r s (write s) := by
  obtain ⟨p, hp, _, ⟨_, rfl⟩ | ⟨_, _, i, profile, _, rfl⟩⟩ := payPurchase_eq_ok.1 h
  · exact carries_refl r s
  · exact carries_modify hp settle_purchases (.settled _ _ _ _ _ _ fun hr =>
      not_contains_paidText (hplain hr).1 (hplain hr).2)

/-- What is stored is in whole paise, and is put into the note. -/
theorem served_createPay {db : Db} {o : Stored} (h : stores env db r = some o) :
    ∃ p, db.purchases.get? o.purchaseId = some p ∧ IsCents o.amount ∧
      step env db r =
        rewrite o.purchaseId (notedRow (pendingNote (noteText p) o.roid o.amount)) db := by
  cases r with
  | createPay gateway id amount now =>
    simp only [stores] at h
    cases hcall : createRazorpayPay env gateway id amount now db with
    | error e =>
      rw [hcall] at h
      cases h
    | ok write =>
      rw [hcall] at h
      obtain ⟨p, pay, profile, rz, hquote, hrz, hwrite⟩ := createRazorpayPay_eq_ok hcall
      obtain ⟨hp, _, _, hpay, _⟩ := razorpayQuote_eq_ok hquote
      simp only [asked, hquote, hrz, Except.toOption, Option.map_some, Option.some.injEq] at h
      subst h
      refine ⟨p, hp, hpay ▸ isCents_round2 _, ?_⟩
      have hplan : plan env (.createPay gateway id amount now) db = .ok write := hcall
      rw [step, call_of_ok hplan, hwrite]
      rfl
  | _ => cases h

/-- A request that stores nothing carries the notes on. -/
theorem carries_step (env : Payment.Env) (db : Db) (h : stores env db r = none) :
    Carries r db (step env db r) := by
  rcases call_cases (plan env) db r with ⟨e, _, hcall⟩ | ⟨write, hwrite, hcall⟩
  · rw [step, hcall]
    exact carries_refl r db
  rw [step, hcall]
  cases r with
  | create v y qty unitCost note createdBy markPaid payMethod instantReceive =>
    obtain ⟨_, _, i, profile, product, _, _, _, rfl⟩ := createPurchase_eq_ok.1 hwrite
    have hnote : Request.Plain (.create v y qty unitCost note createdBy markPaid payMethod
        instantReceive) → ¬ Contains mark (note.getD "").toList := by
      intro hplain
      cases note with
      | none => decide
      | some text => exact hplain text (by simp [Request.texts])
    cases instantReceive || markPaid with
    | true =>
      refine carries_insert receiveGoods_purchases fun hplain => ?_
      rw [noteText_receivedRow]
      exact hnote hplain
    | false => exact carries_insert rfl hnote
  | accept id v =>
    obtain ⟨p, hp, _, _, i, profile, product, _, _, rfl⟩ := acceptPurchase_eq_ok.1 hwrite
    exact carries_modify hp receiveGoods_purchases (.same (noteText_receivedRow _ _ _ _))
  | reject id v =>
    obtain ⟨p, hp, _, _, rfl⟩ := rejectPurchase_eq_ok.1 hwrite
    exact carries_modify hp rfl (.same rfl)
  | pay id amount payMethod note pid =>
    refine carries_pay hwrite fun hplain => ⟨fun t ht => hplain t ?_, fun t ht => hplain t ?_⟩
    · simp [Request.texts, Option.mem_def.1 ht]
    · simp [Request.texts, Option.mem_def.1 ht]
  | createPay gateway id amount now =>
    have hcall' : createRazorpayPay env gateway id amount now db = .ok write := hwrite
    obtain ⟨p, pay, profile, rz, hquote, hrz, _⟩ := createRazorpayPay_eq_ok hcall'
    simp [stores, hcall', asked, hquote, hrz, Except.toOption] at h
  | verify id roid pid signature amount =>
    obtain ⟨p, _, ⟨_, rfl⟩ | ⟨_, _, hpay⟩⟩ := verifyRazorpayPay_eq_ok.1 hwrite
    · exact carries_refl _ db
    · refine carries_pay hpay fun hplain => ⟨fun t ht => ?_, fun t ht => hplain t ?_⟩
      · cases ht
        intro hmark
        have horder : ("order " ++ roid).toList = "order".toList ++ ' ' :: roid.toList := by simp
        rw [horder] at hmark
        rcases contains_of_append_cons (by decide) hmark with hmark | hmark
        · exact absurd hmark (by decide)
        · exact hplain roid (by simp [Request.texts]) hmark
      · cases ht
        simp [Request.texts]

end Rows

/-! ## Runs -/

section Runs

variable {env : Payment.Env} {b : Books} {r : Request}

/-- Each amount stands behind the first mark of its gateway order. -/
structure Legible (b : Books) : Prop where
  cents : ∀ o ∈ b.stored, IsCents o.amount
  tagged : ∀ o ∈ b.stored, ∃ p, b.db.purchases.get? o.purchaseId = some p ∧
    Tagged p o.roid o.amount

/-- Each mark in a note is of a gateway order that an amount was stored with. -/
def Marked (b : Books) : Prop :=
  ∀ j p, b.db.purchases.get? j = some p → ∀ roid : String, ' ' ∉ roid.toList →
    Contains (pendingTag roid) (noteText p) → ∃ o ∈ b.stored, o.roid = roid

theorem stored_serve (h : stores env b.db r = none) : (serve env b r).stored = b.stored := by
  simp [serve, h]

theorem stored_serve_of_some {o : Stored} (h : stores env b.db r = some o) :
    (serve env b r).stored = b.stored ++ [o] := by
  simp [serve, h]

theorem Legible.readsBack (h : Legible b) : ReadsBack env b := by
  intro o ho
  obtain ⟨p, hp, htagged⟩ := h.tagged o ho
  have hread := pendingAmount_of_tagged (h.cents o ho) htagged
  refine ⟨⟨p, hp, hread⟩, fun pid signature => ?_⟩
  have hor : none.or (pendingAmount p o.roid) = (some o.amount).or (pendingAmount p o.roid) := by
    rw [hread]
    rfl
  have hfound : ∀ f : SupplierPurchase → Plan,
      (orRaise (some p) (.notFound "Purchase not found") >>= f) = f p := fun _ => rfl
  unfold verifyRazorpayPay
  rw [hp, hfound, hfound, hor]

/-- A request that meets the condition keeps the amounts where they are read. -/
theorem Legible.serve (h : Legible b) (hids : GatewayIds env b r) (hunmarked : Unmarked env b r) :
    Legible (serve env b r) := by
  cases hs : stores env b.db r with
  | none =>
    have hcarries := carries_step env b.db hs
    refine ⟨by rw [stored_serve hs]; exact h.cents, fun o ho => ?_⟩
    rw [stored_serve hs] at ho
    obtain ⟨p, hp, htagged⟩ := h.tagged o ho
    obtain ⟨q, hq, hrow⟩ := hcarries.old _ p hp
    exact ⟨q, hq, htagged.grow hrow.grows⟩
  | some o =>
    obtain ⟨p, hp, hcents, hstep⟩ := served_createPay hs
    have hfresh : ¬ Contains (pendingTag o.roid) (noteText p) := hunmarked o hs p hp
    have hblank : ' ' ∉ o.roid.toList := (hids o hs).1
    have hrow : ((Purchase.serve env b r).db.purchases).get? o.purchaseId =
        some (notedRow (pendingNote (noteText p) o.roid o.amount) p) := by
      show ((step env b.db r).purchases).get? o.purchaseId = _
      rw [hstep, rewrite_purchases, Table.get?_modify_self, hp, Option.map_some]
    refine ⟨fun o' ho' => ?_, fun o' ho' => ?_⟩
    · rw [stored_serve_of_some hs, List.mem_append, List.mem_singleton] at ho'
      rcases ho' with ho' | rfl
      · exact h.cents o' ho'
      · exact hcents
    · rw [stored_serve_of_some hs, List.mem_append, List.mem_singleton] at ho'
      rcases ho' with ho' | rfl
      · obtain ⟨p', hp', htagged⟩ := h.tagged o' ho'
        by_cases hid : o'.purchaseId = o.purchaseId
        · rw [hid, hp, Option.some.injEq] at hp'
          subst hp'
          exact ⟨_, hid ▸ hrow, htagged.grow (noteGrows_pendingNote hfresh)⟩
        · refine ⟨p', ?_, htagged⟩
          show ((step env b.db r).purchases).get? o'.purchaseId = _
          rw [hstep, rewrite_purchases, Table.get?_modify_of_ne _ _ hid, hp']
      · exact ⟨_, hrow, tagged_pendingNote hblank hfresh⟩

/-- Where every mark is of a gateway order that something was stored for, a new gateway order has
none. -/
theorem Marked.unmarked (h : Marked b) (hids : GatewayIds env b r) : Unmarked env b r := by
  intro o ho p hp hcontains
  obtain ⟨hblank, _, hnew⟩ := hids o ho
  obtain ⟨o', ho', hsame⟩ := h _ p hp o.roid hblank hcontains
  exact hnew o' ho' hsame

theorem Marked.serve (h : Marked b) (hids : GatewayIds env b r) (hplain : r.Plain) :
    Marked (serve env b r) := by
  intro j q hq roid hblank hcontains
  cases hs : stores env b.db r with
  | none =>
    have hcarries := carries_step env b.db hs
    rw [stored_serve hs]
    cases hp : b.db.purchases.get? j with
    | none => exact absurd (contains_mark hcontains) (hcarries.new hplain j q hp hq)
    | some p =>
      obtain ⟨q', hq', hrow⟩ := hcarries.old j p hp
      obtain rfl : q' = q := Option.some.inj (hq'.symm.trans hq)
      exact h j p hp roid hblank (hrow.marks hplain hblank hcontains)
  | some o =>
    obtain ⟨p, hp, _, hstep⟩ := served_createPay hs
    obtain ⟨_, hcolon, _⟩ := hids o hs
    rw [stored_serve_of_some hs]
    have hold : ∀ p', b.db.purchases.get? j = some p' → Contains (pendingTag roid) (noteText p') →
        ∃ o' ∈ b.stored ++ [o], o'.roid = roid := by
      intro p' hp' hmark
      obtain ⟨o', ho', hsame⟩ := h j p' hp' roid hblank hmark
      exact ⟨o', List.mem_append_left _ ho', hsame⟩
    have hq' : (b.db.purchases.modify o.purchaseId
        (notedRow (pendingNote (noteText p) o.roid o.amount))).get? j = some q := by
      rw [← rewrite_purchases, ← hstep]
      exact hq
    by_cases hj : j = o.purchaseId
    · subst hj
      rw [Table.get?_modify_self, hp, Option.map_some, Option.some.injEq] at hq'
      subst hq'
      rw [pendingNote_of_fresh (h.unmarked hids o hs p hp)] at hcontains
      have hsep : ' ' ∉ pendingTag roid := blank_notMem_pendingTag hblank
      rcases contains_of_append_cons hsep (hcontains.trans strip_isInfix) with hmark | hmark
      · exact hold p hp hmark
      rcases contains_of_append_cons hsep (x := ['|']) hmark with hmark | hmark
      · exact absurd (contains_mark hmark) (by decide)
      · have hsame := roid_of_contains hcolon hmark
        exact ⟨o, by simp, hsame.symm⟩
    · rw [Table.get?_modify_of_ne _ _ hj] at hq'
      exact hold q hq' hcontains

/-- Amounts are read back throughout a run in which no note has the mark of a gateway order before
its amount is stored; and in one in which no text has a mark in it, none has. -/
theorem readsBack_of_unmarked (env : Payment.Env) (b : Books) (hb : b.stored = [])
    (rs : List Request) (hids : Stepwise (Purchase.serve env) (GatewayIds env) b rs) :
    (Stepwise (Purchase.serve env) (Unmarked env) b rs →
        Throughout (Purchase.serve env) (ReadsBack env) b rs) ∧
      ((∀ id p, b.db.purchases.get? id = some p → ¬ Contains mark (noteText p)) →
        (∀ r ∈ rs, r.Plain) → Stepwise (Purchase.serve env) (Unmarked env) b rs) := by
  constructor
  · intro hunmarked pre hpre
    have hlegible : Legible b := by
      refine ⟨fun o ho => ?_, fun o ho => ?_⟩
      · rw [hb] at ho
        cases ho
      · rw [hb] at ho
        cases ho
    exact (throughout_of_stepwise (fun _ _ h hok => h.serve hok.1 hok.2) hlegible
      (stepwise_and.2 ⟨hids, hunmarked⟩) pre hpre).readsBack
  · intro hnotes hplain pre r hpre
    have hmarked : Marked b := fun j p hp roid _ hmark =>
      absurd (contains_mark hmark) (hnotes j p hp)
    have hrs : Stepwise (Purchase.serve env) (fun _ r => r.Plain) b rs :=
      fun pre r hpre => hplain r (hpre.subset (by simp))
    have hthrough := throughout_of_stepwise (fun _ _ h hok => Marked.serve h hok.1 hok.2) hmarked
      (stepwise_and.2 ⟨hids, hrs⟩)
    exact (hthrough pre ((List.prefix_append _ _).trans hpre)).unmarked (hids pre r hpre)

end Runs

/-! ## Two checkouts for one purchase order -/

/-- A purchase order of ₹100, of which nothing is paid. -/
def unpaidBooks : Books := ⟨receivedWorld.db, []⟩

/-- A checkout for all of it, ₹80 paid by hand with a note, and a checkout for the rest. -/
def paidByHand (note : String) : List Request :=
  [.createPay (gatewayGiving "order_A") 1 none 0, .pay 1 (some 80) "cash" (some note) none,
    .createPay (gatewayGiving "order_B") 1 none 1]

theorem paidByHand_readsBack :
    Throughout (serve Payment.plainEnv) (ReadsBack Payment.plainEnv) unpaidBooks
      (paidByHand "at the counter") :=
  (readsBack_of_unmarked Payment.plainEnv unpaidBooks rfl _ (by decide +kernel)).1
    (by decide +kernel)

/-- The note of the payment has the mark of the second checkout, with another amount. -/
theorem forgedNote_misread :
    Stepwise (serve Payment.plainEnv) (GatewayIds Payment.plainEnv) unpaidBooks
        (paidByHand "see rz_pending:order_B:1") ∧
      ¬ Throughout (serve Payment.plainEnv) (ReadsBack Payment.plainEnv) unpaidBooks
        (paidByHand "see rz_pending:order_B:1") := by
  refine ⟨by decide +kernel, fun h => ?_⟩
  have hstored : (⟨1, "order_B", 20⟩ : Stored) ∈ (run (serve Payment.plainEnv) unpaidBooks
      (paidByHand "see rz_pending:order_B:1")).stored := by decide +kernel
  obtain ⟨⟨p, hp, hread⟩, -⟩ := h.final _ hstored
  have hother : ((run (serve Payment.plainEnv) unpaidBooks
      (paidByHand "see rz_pending:order_B:1")).db.purchases.get? 1).all
      (fun p => decide (pendingAmount p "order_B" ≠ some 20)) = true := by decide +kernel
  rw [show (⟨1, "order_B", 20⟩ : Stored).purchaseId = 1 from rfl] at hp
  rw [hp] at hother
  exact of_decide_eq_true hother hread

end Purchase

end SweetCrust
