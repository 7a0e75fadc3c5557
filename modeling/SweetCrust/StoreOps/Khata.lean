import SweetCrust.Lib.Interleave
import SweetCrust.StoreOps.Credit

/-!
# The udhaar ledger and the balance

A shop's ledger replays to its balance when the balance is the sum of the debits less
the sum of the credits, each row's `balance_after` is that sum at its position, and
the balance is not negative.

A debit keeps that exactly when rounding the new balance agrees with rounding the
amount, which fails only for an amount of half a paisa on an odd balance.  A collection
keeps it exactly when it does not exceed the balance; the guard lets one paisa more
pass, which the ledger records and the clamped balance does not.

* `Replays` — the property, and `replays_post` — what one more row does to it.
* `replays_act_iff` — one request keeps it exactly when it is `Exact`.
* `replays_throughout_iff` — so does a run.
-/

namespace SweetCrust

open Tabular Rounding Runs Interleave

namespace Credit

/-- A request on a shop's khata. -/
inductive Request
  | debit (userId : ℕ) (amount : ℚ) (orderId : Option ℕ) (note : Option String)
      (createdBy : Option ℕ)
  | collect (userId : ℕ) (amount : ℚ) (note method : Option String)
      (createdBy paymentId : Option ℕ)

/-- What a request plans in the database it reads. -/
def plan : Request → Db → Plan
  | .debit userId amount orderId note createdBy =>
    debitCredit userId amount orderId note createdBy
  | .collect userId amount note method createdBy paymentId =>
    creditPayment userId amount note method createdBy paymentId

/-- A request, or the bakery's change of a shop's credit terms. -/
inductive Act
  | request (r : Request)
  | terms (userId : ℕ) (creditAllowed : Bool) (creditLimit : ℚ) (isBlocked : Bool)

/-- A profile under new credit terms for the shop `userId`. -/
def setTerms (userId : ℕ) (creditAllowed : Bool) (creditLimit : ℚ) (isBlocked : Bool)
    (p : RetailerProfile) : RetailerProfile :=
  if p.userId = userId then { p with creditAllowed, creditLimit, isBlocked } else p

/-- The database after an act. -/
def act (db : Db) : Act → Db
  | .request r => call plan db r
  | .terms userId creditAllowed creditLimit isBlocked =>
    { db with
      profiles := db.profiles.mapRows fun _ =>
        setTerms userId creditAllowed creditLimit isBlocked }

/-- The shop's ledger rows, oldest first. -/
def rowsOf (db : Db) (u : ℕ) : List CreditLedgerEntry :=
  (db.ledger.select fun e => e.retailerUserId = u).map Prod.snd

/-- What a row adds to the balance. -/
def signed (e : CreditLedgerEntry) : ℚ :=
  match e.entryType with
  | .debit => e.amount
  | .credit => -e.amount
  | .adjustment => 0

/-- The shop's balance. -/
def balanceOf (db : Db) (u : ℕ) : Option ℚ :=
  (profileOf db u).map fun r => r.2.outstandingBalance

/-- The shop's ledger replays to its balance. -/
structure Replays (u : ℕ) (db : Db) : Prop where
  /-- The balance is the debits less the credits. -/
  balance : balanceOf db u = some ((rowsOf db u).map signed).sum
  /-- Each row's balance is that sum up to the row. -/
  positions : ∀ pre e post, rowsOf db u = pre ++ e :: post →
    e.balanceAfter = ((pre ++ [e]).map signed).sum
  nonneg : ∀ b, balanceOf db u = some b → 0 ≤ b

/-- Requests on the shop's khata that the ledger records exactly: a debit of half a paisa
only on a balance of even paise, and no collection one paisa above the balance. -/
def Exact (u : ℕ) (db : Db) : Act → Prop
  | .request (.debit userId amount _ _ _) => userId = u → ∀ i p, profileOf db u = some (i, p) →
      DebitAccepted p amount → ¬ HalfCent amount ∨ EvenCents p.outstandingBalance
  | .request (.collect userId amount _ _ _ _) => userId = u → ∀ i p,
      profileOf db u = some (i, p) → CollectAccepted p amount →
      round2 amount ≠ p.outstandingBalance + 1 / 100
  | .terms _ _ _ _ => True

/-- The balance is in whole paise. -/
def WholePaise (u : ℕ) (db : Db) : Prop := ∀ b, balanceOf db u = some b → IsCents b

/-! ## One more row -/

section Posting

variable {u i : ℕ} {db t : Db} {e : CreditLedgerEntry} {b : ℚ}

/-- A row of the shop that sets its balance keeps the ledger exactly when it sets the
balance to what the row adds. -/
theorem replays_post (hb : balanceOf db u = some b) (h : Replays u db)
    (htb : balanceOf t u = some e.balanceAfter) (htr : rowsOf t u = rowsOf db u ++ [e])
    (hnn : 0 ≤ e.balanceAfter) : Replays u t ↔ e.balanceAfter = b + signed e := by
  have hbalance : b = ((rowsOf db u).map signed).sum := Option.some.inj (hb.symm.trans h.balance)
  have hsum : ((rowsOf db u ++ [e]).map signed).sum = b + signed e := by
    rw [List.map_append, List.sum_append, hbalance]
    simp
  constructor
  · intro ht
    rw [ht.positions (rowsOf db u) e [] htr, hsum]
  · intro heq
    refine ⟨?_, ?_, ?_⟩
    · rw [htb, htr, hsum, heq]
    · intro pre e' post hsplit
      rw [htr] at hsplit
      rcases List.eq_nil_or_concat post with rfl | ⟨post', last, rfl⟩
      · obtain ⟨hpre, hlast⟩ := List.append_inj' hsplit rfl
        cases hlast
        rw [← hpre, hsum]
        exact heq
      · have hsplit' : rowsOf db u ++ [e] = (pre ++ e' :: post') ++ [last] := by
          rw [hsplit]
          simp
        obtain ⟨hrows, _⟩ := List.append_inj' hsplit' rfl
        exact h.positions pre e' post' hrows
    · intro c hc
      rw [htb] at hc
      rw [← Option.some.inj hc]
      exact hnn

/-- States with the same balance and ledger rows replay alike. -/
theorem replays_congr (hb : balanceOf t u = balanceOf db u) (hr : rowsOf t u = rowsOf db u) :
    Replays u t ↔ Replays u db := by
  constructor
  · rintro ⟨h1, h2, h3⟩
    rw [hb, hr] at h1
    rw [hr] at h2
    rw [hb] at h3
    exact ⟨h1, h2, h3⟩
  · rintro ⟨h1, h2, h3⟩
    rw [← hb, ← hr] at h1
    rw [← hr] at h2
    rw [← hb] at h3
    exact ⟨h1, h2, h3⟩

theorem rowsOf_postEntry (i : ℕ) (e : CreditLedgerEntry) (db : Db) (u : ℕ) :
    rowsOf (postEntry i e db) u =
      rowsOf db u ++ if e.retailerUserId = u then [e] else [] := by
  unfold rowsOf postEntry
  rw [Table.select_insert]
  by_cases h : e.retailerUserId = u <;> simp [h]

/-- A posting for the shop, on top of writes that leave profiles and ledger alone. -/
theorem posted {p : RetailerProfile} {base : Db} (hp : profileOf db u = some (i, p))
    (hbase : base.profiles = db.profiles ∧ base.ledger = db.ledger) (he : e.retailerUserId = u) :
    balanceOf (postEntry i e base) u = some e.balanceAfter ∧
      rowsOf (postEntry i e base) u = rowsOf db u ++ [e] := by
  have hp' : profileOf base u = some (i, p) := by
    unfold profileOf
    rw [hbase.1]
    exact hp
  constructor
  · unfold balanceOf
    rw [profileOf_modify (f := setBalance e.balanceAfter) hp' rfl fun q => rfl]
    rfl
  · rw [rowsOf_postEntry, if_pos he]
    unfold rowsOf
    rw [hbase.2]

/-- A posting for another shop. -/
theorem posted_of_ne {v : ℕ} {p : RetailerProfile} {base : Db}
    (hp : profileOf db v = some (i, p))
    (hbase : base.profiles = db.profiles ∧ base.ledger = db.ledger) (he : e.retailerUserId = v)
    (hne : v ≠ u) :
    balanceOf (postEntry i e base) u = balanceOf db u ∧
      rowsOf (postEntry i e base) u = rowsOf db u := by
  have hprofiles : ∀ w, profileOf base w = profileOf db w := by
    intro w
    unfold profileOf
    rw [hbase.1]
  constructor
  · unfold balanceOf
    rw [profileOf_modify_of_ne (f := setBalance e.balanceAfter) ((hprofiles v).trans hp) rfl
      (fun q => rfl) hne.symm, hprofiles]
  · rw [rowsOf_postEntry, if_neg (by rw [he]; exact hne), List.append_nil]
    unfold rowsOf
    rw [hbase.2]

end Posting

/-! ## What an act does to one shop -/

/-- Another shop's balance and ledger stay; the shop itself may be posted one row. -/
inductive Effect (u : ℕ) (db : Db) (a : Act) : Prop
  /-- Nothing that replays has changed, and the act is exact for want of acceptance. -/
  | quiet (balance : balanceOf (act db a) u = balanceOf db u)
      (rows : rowsOf (act db a) u = rowsOf db u) (exact : Exact u db a)
  /-- An accepted debit. -/
  | debit (i : ℕ) (p : RetailerProfile) (amount : ℚ) (e : CreditLedgerEntry)
      (profile : profileOf db u = some (i, p)) (accepted : DebitAccepted p amount)
      (kind : e.entryType = .debit) (booked : e.amount = round2 amount)
      (after : e.balanceAfter = round2 (p.outstandingBalance + amount))
      (balance : balanceOf (act db a) u = some e.balanceAfter)
      (rows : rowsOf (act db a) u = rowsOf db u ++ [e])
      (exact : Exact u db a ↔ ¬ HalfCent amount ∨ EvenCents p.outstandingBalance)
  /-- An accepted collection. -/
  | collect (i : ℕ) (p : RetailerProfile) (amount : ℚ) (e : CreditLedgerEntry)
      (profile : profileOf db u = some (i, p)) (accepted : CollectAccepted p amount)
      (kind : e.entryType = .credit) (booked : e.amount = round2 amount)
      (after : e.balanceAfter = round2 (max 0 (round2 p.outstandingBalance - round2 amount)))
      (balance : balanceOf (act db a) u = some e.balanceAfter)
      (rows : rowsOf (act db a) u = rowsOf db u ++ [e])
      (exact : Exact u db a ↔ round2 amount ≠ p.outstandingBalance + 1 / 100)

theorem effect_debit (u v : ℕ) (db : Db) (amount : ℚ) (orderId : Option ℕ) (note : Option String)
    (createdBy : Option ℕ) :
    Effect u db (.request (.debit v amount orderId note createdBy)) := by
  rcases call_cases plan db (.debit v amount orderId note createdBy) with
    ⟨err, herr, hcall⟩ | ⟨write, hwrite, hcall⟩
  · have hact : act db (.request (.debit v amount orderId note createdBy)) = db := hcall
    refine .quiet (by rw [hact]) (by rw [hact]) ?_
    rintro rfl i p hp hacc
    obtain ⟨write, hok⟩ : ∃ write, debitCredit v amount orderId note createdBy db = .ok write :=
      ⟨_, debitCredit_eq_ok.2 ⟨i, p, hp, hacc, rfl⟩⟩
    rw [show debitCredit v amount orderId note createdBy db = .error err from herr] at hok
    cases hok
  · obtain ⟨i, p, hp, hacc, rfl⟩ := debitCredit_eq_ok.1 hwrite
    have hact : act db (.request (.debit v amount orderId note createdBy)) =
        postEntry i (debitEntry v amount orderId note createdBy
          (round2 (p.outstandingBalance + amount))) db := hcall
    by_cases hv : v = u
    · subst hv
      obtain ⟨hbal, hrows⟩ := posted (e := debitEntry v amount orderId note createdBy
        (round2 (p.outstandingBalance + amount))) hp ⟨rfl, rfl⟩ rfl
      refine .debit i p amount _ hp hacc rfl rfl rfl (by rw [hact]; exact hbal)
        (by rw [hact]; exact hrows) ⟨fun h => h rfl i p hp hacc, ?_⟩
      rintro h - j q hq -
      rw [hp] at hq
      cases hq
      exact h
    · obtain ⟨hbal, hrows⟩ := posted_of_ne (e := debitEntry v amount orderId note createdBy
        (round2 (p.outstandingBalance + amount))) hp ⟨rfl, rfl⟩ rfl hv
      exact .quiet (by rw [hact]; exact hbal) (by rw [hact]; exact hrows) fun h => absurd h hv

theorem effect_collect (u v : ℕ) (db : Db) (amount : ℚ) (note method : Option String)
    (createdBy paymentId : Option ℕ) :
    Effect u db (.request (.collect v amount note method createdBy paymentId)) := by
  rcases call_cases plan db (.collect v amount note method createdBy paymentId) with
    ⟨err, herr, hcall⟩ | ⟨write, hwrite, hcall⟩
  · have hact : act db (.request (.collect v amount note method createdBy paymentId)) = db := hcall
    refine .quiet (by rw [hact]) (by rw [hact]) ?_
    rintro rfl i p hp hacc
    obtain ⟨write, hok⟩ : ∃ write,
        creditPayment v amount note method createdBy paymentId db = .ok write :=
      ⟨_, creditPayment_eq_ok.2 ⟨i, p, hp, hacc, rfl⟩⟩
    rw [show creditPayment v amount note method createdBy paymentId db = .error err from herr]
      at hok
    cases hok
  · obtain ⟨i, p, hp, hacc, rfl⟩ := creditPayment_eq_ok.1 hwrite
    have hbase := foldl_writeApplied (allocateCollectionToOrders db v (round2 amount)) db
    by_cases hv : v = u
    · subst hv
      obtain ⟨hbal, hrows⟩ := posted (e := collectEntry v (round2 amount)
        (round2 (max 0 (round2 p.outstandingBalance - round2 amount))) note method createdBy
        paymentId (allocateCollectionToOrders db v (round2 amount))) hp hbase rfl
      refine .collect i p amount _ hp hacc rfl rfl rfl (by rw [act, hcall]; exact hbal)
        (by rw [act, hcall]; exact hrows) ⟨fun h => h rfl i p hp hacc, ?_⟩
      rintro h - j q hq -
      rw [hp] at hq
      cases hq
      exact h
    · obtain ⟨hbal, hrows⟩ := posted_of_ne (e := collectEntry v (round2 amount)
        (round2 (max 0 (round2 p.outstandingBalance - round2 amount))) note method createdBy
        paymentId (allocateCollectionToOrders db v (round2 amount))) hp hbase rfl hv
      exact .quiet (by rw [act, hcall]; exact hbal) (by rw [act, hcall]; exact hrows)
        fun h => absurd h hv

theorem effect_terms (u v : ℕ) (db : Db) (allowed : Bool) (limit : ℚ) (blocked : Bool) :
    Effect u db (.terms v allowed limit blocked) := by
  have huser : ∀ p, (setTerms v allowed limit blocked p).userId = p.userId := by
    intro p
    unfold setTerms
    split_ifs <;> rfl
  have hbalance : ∀ p, (setTerms v allowed limit blocked p).outstandingBalance =
      p.outstandingBalance := by
    intro p
    unfold setTerms
    split_ifs <;> rfl
  have hprofiles : (act db (.terms v allowed limit blocked)).profiles =
      db.profiles.mapRows fun _ => setTerms v allowed limit blocked := rfl
  refine .quiet ?_ rfl trivial
  unfold balanceOf profileOf
  rw [hprofiles, Table.first?_mapRows db.profiles (fun _ p => by rw [huser]), Option.map_map]
  congr 1
  funext r
  exact hbalance r.2

/-- Every act leaves the shop's balance and ledger, or is an accepted request that posts
one row to them. -/
theorem effect_act (u : ℕ) (db : Db) (a : Act) : Effect u db a := by
  cases a with
  | request r =>
    cases r with
    | debit v amount orderId note createdBy => exact effect_debit u v db _ _ _ _
    | collect v amount note method createdBy paymentId => exact effect_collect u v db _ _ _ _ _
  | terms v allowed limit blocked => exact effect_terms u v db allowed limit blocked

/-! ## The ledger over one act and over a run -/

section Replay

variable {u : ℕ} {db : Db}

theorem balanceOf_of_profileOf {i : ℕ} {p : RetailerProfile} (hp : profileOf db u = some (i, p)) :
    balanceOf db u = some p.outstandingBalance := by
  rw [balanceOf, hp, Option.map_some]

theorem wholePaise_act (h : WholePaise u db) (a : Act) : WholePaise u (act db a) := by
  intro b hb
  rcases effect_act u db a with ⟨hbal, _, _⟩ | ⟨i, p, amount, e, _, _, _, _, hafter, hbal, _, _⟩ |
    ⟨i, p, amount, e, _, _, _, _, hafter, hbal, _, _⟩
  · exact h b (hbal ▸ hb)
  · rw [hbal] at hb
    rw [← Option.some.inj hb, hafter]
    exact isCents_round2 _
  · rw [hbal] at hb
    rw [← Option.some.inj hb, hafter]
    exact isCents_round2 _

/-- An act keeps the ledger replaying exactly when it is exact. -/
theorem replays_act_iff (hcents : WholePaise u db) (h : Replays u db) (a : Act) :
    Replays u (act db a) ↔ Exact u db a := by
  rcases effect_act u db a with ⟨hbal, hrows, hexact⟩ |
    ⟨i, p, amount, e, hp, hacc, hkind, hbooked, hafter, hbal, hrows, hexact⟩ |
    ⟨i, p, amount, e, hp, hacc, hkind, hbooked, hafter, hbal, hrows, hexact⟩
  · exact ⟨fun _ => hexact, fun _ => (replays_congr hbal hrows).2 h⟩
  · have hb := balanceOf_of_profileOf hp
    have hpcents : IsCents p.outstandingBalance := hcents _ hb
    have hpnn : 0 ≤ p.outstandingBalance := h.nonneg _ hb
    have hnn : 0 ≤ e.balanceAfter := by
      rw [hafter]
      exact round2_nonneg (by linarith [hacc.1])
    have hsigned : signed e = round2 amount := by rw [signed, hkind, hbooked]
    rw [replays_post hb h hbal hrows hnn, hexact, hafter, hsigned, round2_add_iff hpcents]
  · have hb := balanceOf_of_profileOf hp
    have hpcents : IsCents p.outstandingBalance := hcents _ hb
    have hbook : IsCents (round2 amount) := isCents_round2 amount
    have hround : round2 p.outstandingBalance = p.outstandingBalance := round2_of_isCents hpcents
    have hle : round2 amount ≤ p.outstandingBalance + 1 / 100 := by
      have := hacc.2
      rwa [hround] at this
    have hnn : 0 ≤ e.balanceAfter := by
      rw [hafter]
      exact round2_nonneg (le_max_left _ _)
    have hafter' : e.balanceAfter = max 0 (p.outstandingBalance - round2 amount) := by
      rw [hafter, hround]
      exact round2_of_isCents (isCents_zero.max (hpcents.sub hbook))
    have hsigned : signed e = -round2 amount := by rw [signed, hkind, hbooked]
    rw [replays_post hb h hbal hrows hnn, hexact, hafter', hsigned]
    constructor
    · intro heq habove
      rw [habove] at heq
      have hzero : max 0 (p.outstandingBalance - (p.outstandingBalance + 1 / 100)) = 0 :=
        max_eq_left (by linarith)
      rw [hzero] at heq
      linarith
    · intro hne
      have hlt : round2 amount < p.outstandingBalance + 1 / 100 := lt_of_le_of_ne hle hne
      have hpay : round2 amount ≤ p.outstandingBalance := hbook.le_of_lt_add hpcents hlt
      rw [max_eq_right (by linarith)]
      ring

/-- From a shop without balance and ledger rows, the ledger replays to the balance after
every act of a run exactly when each request of the run is exact. -/
theorem replays_throughout_iff {i : ℕ} {p : RetailerProfile}
    (hp : profileOf db u = some (i, p)) (hzero : p.outstandingBalance = 0)
    (hrows : rowsOf db u = []) (acts : List Act) :
    Throughout act (Replays u) db acts ↔ Stepwise act (Exact u) db acts := by
  have hb : balanceOf db u = some 0 := by rw [balanceOf_of_profileOf hp, hzero]
  have hcents : WholePaise u db := by
    intro b hb'
    rw [hb] at hb'
    rw [← Option.some.inj hb']
    exact isCents_zero
  have hreplays : Replays u db := by
    refine ⟨by rw [hb, hrows]; rfl, ?_, ?_⟩
    · intro pre e post hsplit
      rw [hrows] at hsplit
      exact absurd hsplit (by simp)
    · intro b hb'
      rw [hb] at hb'
      rw [← Option.some.inj hb']
  exact throughout_iff_stepwise (I := WholePaise u) (P := Replays u)
    (fun s a hs => wholePaise_act hs a) (fun s a hs hrep => replays_act_iff hs hrep a)
    hcents hreplays acts

end Replay

/-! ## A collection one paisa above the balance -/

/-- A shop without debts, user 3. -/
def shopDb : Db :=
  { Db.empty with
    profiles := .ofList
      [{ (default : RetailerProfile) with userId := 3, creditAllowed := true, creditLimit := 50000 }] }

theorem shopDb_profile : profileOf shopDb 3 = some (1,
    { (default : RetailerProfile) with userId := 3, creditAllowed := true, creditLimit := 50000 }) :=
  rfl

theorem shopDb_replays :
    Throughout act (Replays 3) shopDb
      [.request (.debit 3 100 none none none),
        .request (.collect 3 (81 / 2) none (some "cash") none none)] := by
  refine (replays_throughout_iff shopDb_profile rfl rfl _).2 ?_
  refine stepwise_cons.2 ⟨?_, stepwise_cons.2 ⟨?_, stepwise_nil _ _⟩⟩
  · rintro - i p - -
    left
    unfold HalfCent
    norm_num
  · rintro - i p hp -
    have hbalance : balanceOf (act shopDb (.request (.debit 3 100 none none none))) 3 =
        some 100 := by decide +kernel
    rw [balanceOf_of_profileOf hp] at hbalance
    rw [Option.some.inj hbalance]
    have hpay : round2 (81 / 2) = 81 / 2 := round2_of_isCents ⟨4050, by norm_num⟩
    rw [hpay]
    norm_num

/-- The shop owes ₹100 and ₹100.01 are collected: the ledger says that a paisa is owed to
the shop, the balance says nothing is. -/
theorem shopDb_not_replays :
    ¬ Throughout act (Replays 3) shopDb
      [.request (.debit 3 100 none none none),
        .request (.collect 3 (10001 / 100) none (some "cash") none none)] := by
  intro h
  have hbalance := h.final.balance
  revert hbalance
  decide +kernel

end Credit

end SweetCrust
