import SweetCrust.Data.Rows
import SweetCrust.Lib.Decimal
import SweetCrust.Lib.Replay
import SweetCrust.Lib.Rounding
import SweetCrust.Lib.Session
import SweetCrust.Lib.Text

/-!
# Wallets and referrals

`wallet_add_money` and `apply_referral` of `engagement.py`.  A wallet is made when it is first
looked up.  Every credit writes a `WalletTxn` with the balance after it.  The tables of this
part of the service are read by nothing else that is modelled here, and stand in a database
of their own.

* `walletAddMoney`, `applyReferral` — the handlers.
* `final_walletAddMoney`, `final_applyReferral` — the tables they leave.
* `balanceOf_credit`, `entries_credit` — what a credit does to a wallet and its log.
-/

namespace SweetCrust

open Tabular Session Text Decimal Rounding

namespace Engagement

/-! ## The tables -/

structure WalletAccount where
  userId : ℕ
  balance : ℚ
  deriving DecidableEq, Inhabited

structure WalletTxn where
  userId : ℕ
  amount : ℚ
  txnType : String := "credit"
  title : String
  subtitle : Option String
  balanceAfter : ℚ
  deriving DecidableEq, Inhabited

structure LoyaltyAccount where
  userId : ℕ
  points : ℤ
  lifetimePoints : ℤ
  deriving DecidableEq, Inhabited

structure ReferralCode where
  userId : ℕ
  code : String
  rewardAmount : ℚ := 100
  referredCount : ℤ := 0
  deriving DecidableEq, Inhabited

structure Accounts where
  wallets : Table WalletAccount := .empty
  txns : Table WalletTxn := .empty
  loyalty : Table LoyaltyAccount := .empty
  referrals : Table ReferralCode := .empty

/-- A handler of the cart service on these tables. -/
abbrev Service (α : Type) : Type := Sess AppError Accounts α

/-! ## Wallets and points -/

def walletOf (db : Accounts) (userId : ℕ) : Option (ℕ × WalletAccount) :=
  db.wallets.first? fun w => w.userId = userId

def loyaltyOf (db : Accounts) (userId : ℕ) : Option (ℕ × LoyaltyAccount) :=
  db.loyalty.first? fun l => l.userId = userId

/-- `_wallet`. -/
def wallet (userId : ℕ) : Service (ℕ × WalletAccount) := do
  let db ← get
  match walletOf db userId with
  | some row => return row
  | none =>
    modify fun db => { db with wallets := db.wallets.insert { userId, balance := 0 } }
    commit
    return (db.wallets.next, { userId, balance := 0 })

/-- `_loyalty`. -/
def loyalty (userId : ℕ) : Service (ℕ × LoyaltyAccount) := do
  let db ← get
  match loyaltyOf db userId with
  | some row => return row
  | none =>
    modify fun db =>
      { db with loyalty := db.loyalty.insert { userId, points := 0, lifetimePoints := 0 } }
    commit
    return (db.loyalty.next, { userId, points := 0, lifetimePoints := 0 })

/-- The row of a credit. -/
def creditRow (userId : ℕ) (amount : ℚ) (title : String) (subtitle : Option String)
    (balanceAfter : ℚ) : WalletTxn := { userId, amount, title, subtitle, balanceAfter }

def withBalance (balance : ℚ) (w : WalletAccount) : WalletAccount := { w with balance }

/-- The wallet with an amount on top, and the row that says so. -/
def credited (userId : ℕ) (amount : ℚ) (title : String) (subtitle : Option String)
    (row : ℕ × WalletAccount) (db : Accounts) : Accounts :=
  { db with
    wallets := db.wallets.modify row.1 (withBalance (round2 (row.2.balance + amount)))
    txns := db.txns.insert
      (creditRow userId amount title subtitle (round2 (row.2.balance + amount))) }

/-- `w.balance = round(w.balance + amount, 2)` with its `WalletTxn`. -/
def credit (userId : ℕ) (amount : ℚ) (title : String) (subtitle : Option String) :
    Service Unit := do
  let row ← wallet userId
  modify (credited userId amount title subtitle row)

/-- A point for every whole ten rupees. -/
def earned (amount : ℚ) (loyaltyId : ℕ) (db : Accounts) : Accounts :=
  { db with
    loyalty := db.loyalty.modify loyaltyId fun l =>
      { l with
        points := l.points + ⌊amount / 10⌋
        lifetimePoints := l.lifetimePoints + ⌊amount / 10⌋ } }

/-- What `wallet_summary` answers, less its fixed texts. -/
structure Summary where
  balance : ℚ
  loyaltyPoints : ℤ
  lifetimePoints : ℤ
  /-- The newest thirty rows of the wallet. -/
  transactions : List WalletTxn

/-- `wallet_summary`. -/
def walletSummary (userId : ℕ) : Service Summary := do
  let (_, w) ← wallet userId
  let (_, l) ← loyalty userId
  let db ← get
  return {
    balance := w.balance
    loyaltyPoints := l.points
    lifetimePoints := l.lifetimePoints
    transactions := (((db.txns.select fun t => t.userId = userId).map Prod.snd).reverse).take 30 }

/-- `wallet_add_money`. -/
def walletAddMoney (userId : ℕ) (amount : ℚ) (method : String) : Service Summary := do
  raiseIf (amount < 1 ∨ 50000 < amount) (.badRequest "Amount must be between ₹1 and ₹50,000")
  credit userId amount "Added Money" (some method)
  let (loyaltyId, _) ← loyalty userId
  modify (earned amount loyaltyId)
  commit
  walletSummary userId

/-! ## Referrals -/

/-- `(code or "").strip().upper()`. -/
def normal (code : String) : String := String.ofList (upper (strip isSpace code.toList))

def referralOf (db : Accounts) (code : String) : Option (ℕ × ReferralCode) :=
  db.referrals.first? fun r => r.code = code

/-- The referral of another user. -/
def foreign (userId : ℕ) (r : ℕ × ReferralCode) : Bool := r.2.userId ≠ userId

/-- One more user was referred. -/
def counted (referralId : ℕ) (db : Accounts) : Accounts :=
  { db with
    referrals := db.referrals.modify referralId fun r =>
      { r with referredCount := r.referredCount + 1 } }

/-- `apply_referral`: the amount that was credited. -/
def applyReferral (userId : ℕ) (code : String) : Service ℚ := do
  raiseIf (normal code = "") (.badRequest "Referral code required")
  let db ← get
  let (referralId, ref) ← orRaise ((referralOf db (normal code)).filter (foreign userId))
    (.badRequest "Invalid referral code")
  credit userId ref.rewardAmount "Referral bonus" (some ("Code " ++ ref.code))
  credit ref.userId ref.rewardAmount "Referral reward" (some ("Code " ++ ref.code))
  modify (counted referralId)
  commit
  return ref.rewardAmount

/-! ## What the handlers leave -/

/-- The wallet of a user is there. -/
def opened (userId : ℕ) (db : Accounts) : Accounts :=
  match walletOf db userId with
  | some _ => db
  | none => { db with wallets := db.wallets.insert { userId, balance := 0 } }

/-- The account of a user's points is there. -/
def enrolled (userId : ℕ) (db : Accounts) : Accounts :=
  match loyaltyOf db userId with
  | some _ => db
  | none => { db with loyalty := db.loyalty.insert { userId, points := 0, lifetimePoints := 0 } }

/-- The tables after a credit. -/
def creditedTo (userId : ℕ) (amount : ℚ) (title : String) (subtitle : Option String)
    (db : Accounts) : Accounts :=
  credited userId amount title subtitle
    ((walletOf db userId).getD (db.wallets.next, { userId, balance := 0 })) (opened userId db)

/-- The tables with the points of an amount. -/
def earnedBy (userId : ℕ) (amount : ℚ) (db : Accounts) : Accounts :=
  earned amount ((loyaltyOf db userId).getD
    (db.loyalty.next, { userId, points := 0, lifetimePoints := 0 })).1 (enrolled userId db)

section Outcomes

variable {db : Accounts} {userId : ℕ} {amount : ℚ} {title : String} {subtitle : Option String}

theorem outcome_wallet (userId : ℕ) (db : Accounts) :
    (wallet userId db).2 =
      .ok ((walletOf db userId).getD (db.wallets.next, { userId, balance := 0 }),
        opened userId db) := by
  unfold wallet opened
  rw [outcome_get_bind]
  cases walletOf db userId <;> rfl

theorem outcome_loyalty (userId : ℕ) (db : Accounts) :
    (loyalty userId db).2 =
      .ok ((loyaltyOf db userId).getD
        (db.loyalty.next, { userId, points := 0, lifetimePoints := 0 }), enrolled userId db) := by
  unfold loyalty enrolled
  rw [outcome_get_bind]
  cases loyaltyOf db userId <;> rfl

theorem outcome_credit (userId : ℕ) (amount : ℚ) (title : String) (subtitle : Option String)
    (db : Accounts) : (credit userId amount title subtitle db).2 =
      .ok ((), creditedTo userId amount title subtitle db) := by
  unfold credit
  rw [bind_run_of_ok (outcome_wallet userId db)]
  rfl

theorem returns_wallet {row : ℕ × WalletAccount} (h : walletOf db userId = some row) :
    Returns (wallet userId) db row db := by
  unfold wallet
  apply Returns.get_bind
  rw [h]
  exact returns_pure row db

theorem returns_loyalty {row : ℕ × LoyaltyAccount} (h : loyaltyOf db userId = some row) :
    Returns (loyalty userId) db row db := by
  unfold loyalty
  apply Returns.get_bind
  rw [h]
  exact returns_pure row db

theorem walletOf_opened (userId : ℕ) (db : Accounts) :
    walletOf (opened userId db) userId =
      some ((walletOf db userId).getD (db.wallets.next, { userId, balance := 0 })) := by
  unfold opened
  cases h : walletOf db userId with
  | some row => exact h
  | none =>
    unfold walletOf at h ⊢
    simp [Table.first?_insert, h]

theorem walletOf_opened_of_ne {v : ℕ} (hne : v ≠ userId) (db : Accounts) :
    walletOf (opened userId db) v = walletOf db v := by
  unfold opened
  cases walletOf db userId with
  | some row => rfl
  | none =>
    unfold walletOf
    simp [Table.first?_insert, hne.symm]

end Outcomes

/-! ## What a credit does -/

/-- The balance of a wallet, which is zero before it is opened. -/
def balanceOf (db : Accounts) (userId : ℕ) : ℚ :=
  (walletOf db userId).elim 0 fun row => row.2.balance

/-- The log of a wallet: each amount with the balance written beside it. -/
def entries (db : Accounts) (userId : ℕ) : List (ℚ × ℚ) :=
  (db.txns.select fun t => t.userId = userId).map fun r => (r.2.amount, r.2.balanceAfter)

section Credits

variable {db : Accounts} {userId v : ℕ} {amount : ℚ} {title : String} {subtitle : Option String}

theorem balance_getD (row : ℕ × WalletAccount) (h : row.2.balance = 0) :
    ((walletOf db userId).getD row).2.balance = balanceOf db userId := by
  unfold balanceOf
  cases walletOf db userId with
  | none => exact h
  | some r => rfl

/-- The row that a credit writes. -/
theorem txns_creditedTo : (creditedTo userId amount title subtitle db).txns =
    db.txns.insert
      (creditRow userId amount title subtitle (round2 (balanceOf db userId + amount))) := by
  have hopened : (opened userId db).txns = db.txns := by
    unfold opened
    cases walletOf db userId <;> rfl
  unfold creditedTo credited
  rw [hopened, balance_getD _ rfl]

@[simp] theorem referrals_creditedTo :
    (creditedTo userId amount title subtitle db).referrals = db.referrals := by
  unfold creditedTo opened
  cases walletOf db userId <;> rfl

theorem walletOf_creditedTo (userId : ℕ) (amount : ℚ) (title : String)
    (subtitle : Option String) (db : Accounts) :
    ∃ i w, walletOf (creditedTo userId amount title subtitle db) userId = some (i, w) ∧
      w.balance = round2 (balanceOf db userId + amount) := by
  refine ⟨_, _, Table.first?_modify_self (walletOf_opened userId db) fun q => rfl, ?_⟩
  rw [← balance_getD (db.wallets.next, { userId, balance := 0 }) rfl]
  rfl

theorem balanceOf_creditedTo : balanceOf (creditedTo userId amount title subtitle db) userId =
    round2 (balanceOf db userId + amount) := by
  obtain ⟨i, w, hw, hbalance⟩ := walletOf_creditedTo userId amount title subtitle db
  rw [← hbalance, balanceOf, hw]
  rfl

theorem balanceOf_creditedTo_of_ne (hne : v ≠ userId) :
    balanceOf (creditedTo userId amount title subtitle db) v = balanceOf db v := by
  obtain ⟨hget, howner⟩ := Table.get?_of_first? (walletOf_opened userId db)
  have hafter : walletOf (creditedTo userId amount title subtitle db) v =
      walletOf (opened userId db) v := by
    refine Table.first?_modify_of_not (f := withBalance _) hget ?_ fun q => rfl
    simp only [decide_eq_true_eq] at howner
    simp [howner, hne.symm]
  rw [balanceOf, hafter, walletOf_opened_of_ne hne]
  rfl

theorem entries_creditedTo (v : ℕ) : entries (creditedTo userId amount title subtitle db) v =
    entries db v ++
      if userId = v then [(amount, round2 (balanceOf db userId + amount))] else [] := by
  unfold entries
  rw [txns_creditedTo, Table.select_insert]
  by_cases h : userId = v <;> simp [h, creditRow]

end Credits

/-! ## The tables after a request -/

section Finals

variable {db : Accounts} {userId : ℕ}

/-- Points are all that points change. -/
theorem earnedBy_eq (userId : ℕ) (amount : ℚ) (db : Accounts) :
    ∃ l, earnedBy userId amount db = { db with loyalty := l } := by
  unfold earnedBy enrolled
  cases loyaltyOf db userId <;> exact ⟨_, rfl⟩

theorem loyaltyOf_earnedBy (userId : ℕ) (amount : ℚ) (db : Accounts) :
    ∃ row, loyaltyOf (earnedBy userId amount db) userId = some row := by
  have henrolled : loyaltyOf (enrolled userId db) userId = some ((loyaltyOf db userId).getD
      (db.loyalty.next, { userId, points := 0, lifetimePoints := 0 })) := by
    unfold enrolled
    cases h : loyaltyOf db userId with
    | some row => exact h
    | none =>
      unfold loyaltyOf at h ⊢
      simp [Table.first?_insert, h]
  exact ⟨_, Table.first?_modify_self henrolled fun q => rfl⟩

/-- The summary opens nothing that is open. -/
theorem final_walletSummary {w : ℕ × WalletAccount} {l : ℕ × LoyaltyAccount}
    (hw : walletOf db userId = some w) (hl : loyaltyOf db userId = some l) :
    final (walletSummary userId) db = db := by
  unfold walletSummary
  rw [(returns_wallet hw).final_bind, (returns_loyalty hl).final_bind, final_get_bind]
  rfl

/-- An accepted amount is credited and earns its points. -/
theorem final_walletAddMoney (userId : ℕ) (amount : ℚ) (method : String) (db : Accounts) :
    final (walletAddMoney userId amount method) db =
      if amount < 1 ∨ 50000 < amount then db
      else earnedBy userId amount (creditedTo userId amount "Added Money" (some method) db) := by
  unfold walletAddMoney
  rw [final_raiseIf_bind]
  refine if_congr Iff.rfl rfl ?_
  obtain ⟨i, w, hw, -⟩ := walletOf_creditedTo userId amount "Added Money" (some method) db
  obtain ⟨l, hl⟩ := loyaltyOf_earnedBy userId amount
    (creditedTo userId amount "Added Money" (some method) db)
  have hopen : walletOf (earnedBy userId amount
      (creditedTo userId amount "Added Money" (some method) db)) userId = some (i, w) := by
    obtain ⟨points, hpoints⟩ := earnedBy_eq userId amount
      (creditedTo userId amount "Added Money" (some method) db)
    rw [hpoints]
    exact hw
  rw [final_bind_of_outcome (outcome_credit ..), final_bind_of_outcome (outcome_loyalty ..),
    final_modify_commit_bind]
  · exact final_walletSummary hopen hl
  · exact List.cons_ne_nil _ _
  · rw [commits, bind_run_of_ok (outcome_loyalty ..)]
    exact List.append_ne_nil_of_right_ne_nil _ (List.cons_ne_nil _ _)

/-- The referral that a request redeems. -/
def redeemed (userId : ℕ) (code : String) (db : Accounts) : Option (ℕ × ReferralCode) :=
  if normal code = "" then none else (referralOf db (normal code)).filter (foreign userId)

/-- An accepted code is credited to both users, and counted. -/
theorem final_applyReferral (userId : ℕ) (code : String) (db : Accounts) :
    final (applyReferral userId code) db =
      match redeemed userId code db with
      | none => db
      | some (referralId, ref) =>
        counted referralId (creditedTo ref.userId ref.rewardAmount "Referral reward"
          (some ("Code " ++ ref.code)) (creditedTo userId ref.rewardAmount "Referral bonus"
            (some ("Code " ++ ref.code)) db)) := by
  unfold applyReferral redeemed
  rw [final_raiseIf_bind]
  by_cases hempty : normal code = ""
  · rw [if_pos hempty, if_pos hempty]
  rw [if_neg hempty, if_neg hempty, final_get_bind]
  cases h : (referralOf db (normal code)).filter (foreign userId) with
  | none => rfl
  | some r =>
    rw [final_orRaise_some_bind, final_bind_of_outcome (outcome_credit ..),
      final_bind_of_outcome (outcome_credit ..)]
    · rfl
    · exact List.cons_ne_nil _ _
    · rw [commits, bind_run_of_ok (outcome_credit ..)]
      exact List.append_ne_nil_of_right_ne_nil _ (List.cons_ne_nil _ _)

end Finals

end Engagement

end SweetCrust
