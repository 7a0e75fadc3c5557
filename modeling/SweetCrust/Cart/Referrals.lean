import SweetCrust.Cart.Engagement
import SweetCrust.Lib.Runs

/-!
# The wallet log and the referral bonus

A run of `wallet_add_money` and `apply_referral` calls.  The books are kept when every wallet
is balanced by its log, no user has received more than one referral bonus, and every code
counts the users who redeemed it.

Two things break them.  An amount, or a reward, that is not in whole paise is credited
rounded and logged as it is.  And nothing remembers that a user has redeemed a code: the next
code, or the same one again, pays the bonus again.

* `Kept` — the property.
* `kept_iff` — it holds along a run exactly when every accepted amount is in whole paise, and
  every accepted code pays whole paise to a user who has not received a bonus before.
-/

namespace SweetCrust

open Tabular Session Rounding Runs Replay

namespace Engagement

/-- A call on wallets. -/
inductive Call
  | addMoney (userId : ℕ) (amount : ℚ) (method : String)
  | apply (userId : ℕ) (code : String)

/-- The tables after a call. -/
def step (db : Accounts) : Call → Accounts
  | .addMoney userId amount method => final (walletAddMoney userId amount method) db
  | .apply userId code => final (applyReferral userId code) db

/-- The row says that a user redeemed a code. -/
def isBonus (t : WalletTxn) : Bool := t.title = "Referral bonus"

/-- The bonuses of a user. -/
def bonuses (db : Accounts) (userId : ℕ) : List (ℕ × WalletTxn) :=
  db.txns.select fun t => isBonus t ∧ t.userId = userId

/-- The row says that its user redeemed the code `code`. -/
def redeems (code : String) (t : WalletTxn) : Bool :=
  isBonus t ∧ t.subtitle = some ("Code " ++ code)

/-- The users who redeemed a code. -/
def redeemers (db : Accounts) (code : String) : Finset ℕ :=
  ((db.txns.select (redeems code)).map fun r => r.2.userId).toFinset

/-- The books are kept. -/
structure Kept (db : Accounts) : Prop where
  wallets : ∀ u, Balanced (entries db u) (balanceOf db u)
  bonus : ∀ u, (bonuses db u).length ≤ 1
  counts : ∀ i r, db.referrals.get? i = some r → r.referredCount = (redeemers db r.code).card

/-- A call pays whole paise, and no second bonus. -/
def Fits (db : Accounts) : Call → Prop
  | .addMoney _ amount _ => 1 ≤ amount → amount ≤ 50000 → IsCents amount
  | .apply userId code => ∀ r, redeemed userId code db = some r →
      IsCents r.2.rewardAmount ∧ bonuses db userId = []

/-- The books are kept in whole paise, and no two users have the same code. -/
structure Sound (db : Accounts) : Prop extends Kept db where
  paise : db.txns.All fun t => IsCents t.amount
  codes : ∀ i j r r', db.referrals.get? i = some r → db.referrals.get? j = some r' →
    r.code = r'.code → i = j

/-! ## One credit -/

section Credits

variable {db : Accounts} {userId u : ℕ} {amount : ℚ} {title code : String}
  {subtitle : Option String}

theorem Sound.balance_paise (h : Sound db) (u : ℕ) : IsCents (balanceOf db u) := by
  rw [(h.wallets u).balance, total, entries, List.map_map]
  apply isCents_sum
  intro x hx
  obtain ⟨r, hr, rfl⟩ := List.mem_map.1 hx
  exact h.paise r (List.mem_of_mem_filter hr)

/-- A credit in whole paise keeps every wallet balanced. -/
theorem balanced_creditedTo (h : ∀ v, Balanced (entries db v) (balanceOf db v))
    (hbalance : IsCents (balanceOf db userId)) (hamount : IsCents amount) (v : ℕ) :
    Balanced (entries (creditedTo userId amount title subtitle db) v)
      (balanceOf (creditedTo userId amount title subtitle db) v) := by
  rw [entries_creditedTo]
  by_cases hv : userId = v
  · subst hv
    rw [if_pos rfl, balanceOf_creditedTo, balanced_concat (h userId)]
    exact round2_of_isCents (hbalance.add hamount)
  · rw [if_neg hv, List.append_nil, balanceOf_creditedTo_of_ne (Ne.symm hv)]
    exact h v

/-- A credit that keeps its wallet balanced is in whole paise. -/
theorem isCents_of_balanced (h : Balanced (entries db userId) (balanceOf db userId))
    (hbalance : IsCents (balanceOf db userId))
    (hnext : Balanced (entries (creditedTo userId amount title subtitle db) userId)
      (balanceOf (creditedTo userId amount title subtitle db) userId)) : IsCents amount := by
  rw [entries_creditedTo, if_pos rfl, balanceOf_creditedTo, balanced_concat h] at hnext
  have hsum : amount = round2 (balanceOf db userId + amount) - balanceOf db userId := by
    rw [hnext]
    ring
  rw [hsum]
  exact (isCents_round2 _).sub hbalance

theorem paise_creditedTo (h : db.txns.All fun t => IsCents t.amount) (hamount : IsCents amount) :
    (creditedTo userId amount title subtitle db).txns.All fun t => IsCents t.amount := by
  rw [txns_creditedTo]
  exact h.insert hamount

theorem bonuses_creditedTo (u : ℕ) :
    (bonuses (creditedTo userId amount title subtitle db) u).length =
      (bonuses db u).length + if title = "Referral bonus" ∧ userId = u then 1 else 0 := by
  unfold bonuses
  rw [txns_creditedTo, Table.select_insert, List.length_append]
  by_cases htitle : title = "Referral bonus" <;> by_cases hu : userId = u <;>
    simp [htitle, hu, isBonus, creditRow]

theorem redeemers_creditedTo (code : String) :
    redeemers (creditedTo userId amount title subtitle db) code =
      redeemers db code ∪
        if title = "Referral bonus" ∧ subtitle = some ("Code " ++ code) then {userId} else ∅ := by
  unfold redeemers
  rw [txns_creditedTo, Table.select_insert, List.map_append, List.toFinset_append]
  by_cases htitle : title = "Referral bonus" <;>
    by_cases hsub : subtitle = some ("Code " ++ code) <;>
    simp [htitle, hsub, redeems, isBonus, creditRow]

/-- Who redeemed a code has received a bonus. -/
theorem bonuses_of_redeemed (h : u ∈ redeemers db code) : bonuses db u ≠ [] := by
  unfold redeemers at h
  rw [List.mem_toFinset, List.mem_map] at h
  obtain ⟨r, hr, rfl⟩ := h
  obtain ⟨hrow, hredeems⟩ := List.mem_filter.1 hr
  refine List.ne_nil_of_mem (a := r) (List.mem_filter.2 ⟨hrow, ?_⟩)
  simp only [redeems, decide_eq_true_eq] at hredeems
  simp [hredeems.1]

end Credits

/-! ## One redemption -/

section Redemptions

variable {db : Accounts} {userId referralId : ℕ} {code : String} {ref : ReferralCode}

theorem of_redeemed (h : redeemed userId code db = some (referralId, ref)) :
    db.referrals.get? referralId = some ref ∧ ref.userId ≠ userId := by
  unfold redeemed at h
  split_ifs at h
  obtain ⟨hfound, hforeign⟩ := Option.filter_eq_some_iff.1 h
  exact ⟨(Table.get?_of_first? hfound).1, by simpa [foreign] using hforeign⟩

/-- The tables after the code `ref.code` paid its reward to its user and to `userId`. -/
def rewarded (userId : ℕ) (ref : ReferralCode) (db : Accounts) : Accounts :=
  creditedTo ref.userId ref.rewardAmount "Referral reward" (some ("Code " ++ ref.code))
    (creditedTo userId ref.rewardAmount "Referral bonus" (some ("Code " ++ ref.code)) db)

theorem step_apply (h : redeemed userId code db = some (referralId, ref)) :
    step db (.apply userId code) = counted referralId (rewarded userId ref db) := by
  rw [step, final_applyReferral, h]
  rfl

theorem step_apply_of_none (h : redeemed userId code db = none) :
    step db (.apply userId code) = db := by
  rw [step, final_applyReferral, h]

theorem bonuses_rewarded (v : ℕ) : (bonuses (rewarded userId ref db) v).length =
    (bonuses db v).length + if userId = v then 1 else 0 := by
  unfold rewarded
  rw [bonuses_creditedTo, bonuses_creditedTo]
  simp

theorem redeemers_rewarded (code : String) : redeemers (rewarded userId ref db) code =
    redeemers db code ∪ if ref.code = code then {userId} else ∅ := by
  have hcode : "Code " ++ ref.code = "Code " ++ code ↔ ref.code = code :=
    String.append_right_inj _
  unfold rewarded
  rw [redeemers_creditedTo, redeemers_creditedTo]
  simp [hcode]

theorem wallets_rewarded (h : Sound db) (hreward : IsCents ref.rewardAmount) (v : ℕ) :
    Balanced (entries (rewarded userId ref db) v) (balanceOf (rewarded userId ref db) v) := by
  have hfirst (v : ℕ) : Balanced
      (entries (creditedTo userId ref.rewardAmount "Referral bonus" (some ("Code " ++ ref.code)) db) v)
      (balanceOf
        (creditedTo userId ref.rewardAmount "Referral bonus" (some ("Code " ++ ref.code)) db) v) :=
    balanced_creditedTo h.wallets (h.balance_paise userId) hreward v
  refine balanced_creditedTo hfirst ?_ hreward v
  by_cases hu : ref.userId = userId
  · rw [hu, balanceOf_creditedTo]
    exact isCents_round2 _
  · rw [balanceOf_creditedTo_of_ne hu]
    exact h.balance_paise ref.userId

theorem paise_rewarded (h : Sound db) (hreward : IsCents ref.rewardAmount) :
    (rewarded userId ref db).txns.All fun t => IsCents t.amount :=
  paise_creditedTo (paise_creditedTo h.paise hreward) hreward

@[simp] theorem referrals_rewarded : (rewarded userId ref db).referrals = db.referrals := by
  simp [rewarded]

theorem counts_rewarded (h : Sound db) (hget : db.referrals.get? referralId = some ref)
    (hnew : bonuses db userId = []) (j : ℕ) (r : ReferralCode)
    (hr : (counted referralId (rewarded userId ref db)).referrals.get? j = some r) :
    r.referredCount = (redeemers (rewarded userId ref db) r.code).card := by
  rw [redeemers_rewarded]
  simp only [counted, referrals_rewarded, Table.get?_modify] at hr
  by_cases hj : j = referralId
  · subst hj
    simp only [hget, if_true, Option.map_some, Option.some.injEq] at hr
    subst hr
    have hfresh : userId ∉ redeemers db ref.code := fun hmem => bonuses_of_redeemed hmem hnew
    have hcount := h.counts _ _ hget
    simp [hcount, hfresh]
  · simp only [if_neg hj] at hr
    have hcode : ref.code ≠ r.code := fun heq => hj (h.codes _ _ _ _ hr hget heq.symm)
    rw [if_neg hcode, Finset.union_empty]
    exact h.counts j r hr

theorem codes_counted (h : Sound db) :
    ∀ i j r r', (counted referralId (rewarded userId ref db)).referrals.get? i = some r →
      (counted referralId (rewarded userId ref db)).referrals.get? j = some r' →
      r.code = r'.code → i = j := by
  have hrow : ∀ i r, (counted referralId (rewarded userId ref db)).referrals.get? i = some r →
      ∃ r₀, db.referrals.get? i = some r₀ ∧ r₀.code = r.code := by
    intro i r hr
    simp only [counted, referrals_rewarded, Table.get?_modify] at hr
    split_ifs at hr
    · obtain ⟨r₀, hr₀, rfl⟩ := Option.map_eq_some_iff.1 hr
      exact ⟨r₀, hr₀, rfl⟩
    · exact ⟨r, hr, rfl⟩
  intro i j r r' hr hr' heq
  obtain ⟨r₀, hget, hcode⟩ := hrow i r hr
  obtain ⟨r₁, hget', hcode'⟩ := hrow j r' hr'
  exact h.codes i j r₀ r₁ hget hget' (by rw [hcode, hcode', heq])

/-- A code that pays whole paise to a user without a bonus keeps the books. -/
theorem sound_apply (h : Sound db) (hfits : Fits db (.apply userId code)) :
    Sound (step db (.apply userId code)) := by
  cases hfound : redeemed userId code db with
  | none =>
    rw [step_apply_of_none hfound]
    exact h
  | some r =>
    obtain ⟨referralId, ref⟩ := r
    obtain ⟨hreward, hnew⟩ := hfits _ hfound
    obtain ⟨hget, -⟩ := of_redeemed hfound
    rw [step_apply hfound]
    refine { wallets := wallets_rewarded h hreward, bonus := ?_,
             counts := counts_rewarded h hget hnew, paise := paise_rewarded h hreward,
             codes := codes_counted h }
    intro v
    show (bonuses (rewarded userId ref db) v).length ≤ 1
    rw [bonuses_rewarded]
    by_cases hv : userId = v
    · rw [if_pos hv, ← hv, hnew]
      simp
    · rw [if_neg hv]
      exact h.bonus v

/-- A code that keeps the books pays whole paise to a user without a bonus. -/
theorem fits_apply (h : Sound db) (hnext : Kept (step db (.apply userId code))) :
    Fits db (.apply userId code) := by
  rintro ⟨referralId, ref⟩ hfound
  obtain ⟨-, hforeign⟩ := of_redeemed hfound
  rw [step_apply hfound] at hnext
  constructor
  · have hwallet : Balanced (entries (rewarded userId ref db) userId)
        (balanceOf (rewarded userId ref db) userId) := hnext.wallets userId
    unfold rewarded at hwallet
    rw [entries_creditedTo, if_neg hforeign, List.append_nil,
      balanceOf_creditedTo_of_ne hforeign.symm] at hwallet
    exact isCents_of_balanced (h.wallets userId) (h.balance_paise userId) hwallet
  · have hbonus : (bonuses (rewarded userId ref db) userId).length ≤ 1 := hnext.bonus userId
    rw [bonuses_rewarded, if_pos rfl] at hbonus
    apply List.eq_nil_of_length_eq_zero
    omega

end Redemptions

/-! ## Money added -/

section Adding

variable {db : Accounts} {userId : ℕ} {amount : ℚ} {method : String}

theorem bonuses_added (v : ℕ) :
    (bonuses (creditedTo userId amount "Added Money" (some method) db) v).length =
      (bonuses db v).length := by
  rw [bonuses_creditedTo]
  simp

theorem redeemers_added (code : String) :
    redeemers (creditedTo userId amount "Added Money" (some method) db) code =
      redeemers db code := by
  rw [redeemers_creditedTo]
  simp

theorem step_addMoney_of_refused (h : amount < 1 ∨ 50000 < amount) :
    step db (.addMoney userId amount method) = db := by
  rw [step, final_walletAddMoney, if_pos h]

variable (db userId method) in
theorem step_addMoney (h : 1 ≤ amount) (h' : amount ≤ 50000) :
    ∃ l, step db (.addMoney userId amount method) =
      { creditedTo userId amount "Added Money" (some method) db with loyalty := l } := by
  rw [step, final_walletAddMoney, if_neg (by simp [h, h'])]
  exact earnedBy_eq ..

theorem refused_or (amount : ℚ) : (amount < 1 ∨ 50000 < amount) ∨ 1 ≤ amount ∧ amount ≤ 50000 := by
  by_cases hlow : amount < 1
  · exact Or.inl (Or.inl hlow)
  · by_cases hhigh : 50000 < amount
    · exact Or.inl (Or.inr hhigh)
    · exact Or.inr ⟨not_lt.1 hlow, not_lt.1 hhigh⟩

/-- Money added in whole paise keeps the books. -/
theorem sound_addMoney (h : Sound db) (hfits : Fits db (.addMoney userId amount method)) :
    Sound (step db (.addMoney userId amount method)) := by
  rcases refused_or amount with hrefused | ⟨hlow, hhigh⟩
  · rw [step_addMoney_of_refused hrefused]
    exact h
  · have hamount : IsCents amount := hfits hlow hhigh
    obtain ⟨l, hl⟩ := step_addMoney db userId method hlow hhigh
    rw [hl]
    refine { wallets := balanced_creditedTo h.wallets (h.balance_paise userId) hamount,
             bonus := ?_, counts := ?_, paise := paise_creditedTo h.paise hamount,
             codes := ?_ }
    · intro v
      exact (bonuses_added v).trans_le (h.bonus v)
    · intro i r hr
      refine (h.counts i r ?_).trans (by rw [← redeemers_added]; rfl)
      simpa using hr
    · simpa using h.codes

/-- Money that keeps the books is in whole paise. -/
theorem fits_addMoney (h : Sound db) (hnext : Kept (step db (.addMoney userId amount method))) :
    Fits db (.addMoney userId amount method) := by
  intro hlow hhigh
  obtain ⟨l, hl⟩ := step_addMoney db userId method hlow hhigh
  rw [hl] at hnext
  exact isCents_of_balanced (h.wallets userId) (h.balance_paise userId) (hnext.wallets userId)

end Adding

/-! ## Runs -/

/-- A service that nobody has used yet: codes only, each with a count of zero. -/
structure Fresh (db : Accounts) : Prop where
  wallets : db.wallets = .empty
  txns : db.txns = .empty
  counts : db.referrals.All fun r => r.referredCount = 0
  codes : ∀ i j r r', db.referrals.get? i = some r → db.referrals.get? j = some r' →
    r.code = r'.code → i = j

theorem Fresh.sound {db : Accounts} (h : Fresh db) : Sound db where
  wallets u := by
    rw [entries, balanceOf, walletOf, h.txns, h.wallets]
    exact balanced_nil
  bonus u := by
    rw [bonuses, h.txns]
    exact Nat.zero_le 1
  counts i r hr := by
    rw [redeemers, h.txns]
    exact h.counts.get? hr
  paise := by
    rw [h.txns]
    exact fun r hr => absurd hr (List.not_mem_nil)
  codes := h.codes

/-- The books are kept along a run exactly when every accepted amount is in whole paise, and
every accepted code pays whole paise to a user who has not received a bonus before. -/
theorem kept_iff {db : Accounts} (h : Sound db) (cs : List Call) :
    Throughout step Kept db cs ↔ Stepwise step Fits db cs := by
  refine throughout_iff_of_inductive (J := Sound) (fun _ hs => hs.toKept) ?_ ?_ h cs
  · intro s c hs hfits
    cases c with
    | addMoney userId amount method => exact sound_addMoney hs hfits
    | apply userId code => exact sound_apply hs hfits
  · intro s c hs hnext
    cases c with
    | addMoney userId amount method => exact fits_addMoney hs hnext
    | apply userId code => exact fits_apply hs hnext

/-- Two users with a code each. -/
def twoCodes : Accounts where
  referrals := .ofList [{ userId := 1, code := "SC1AB" }, { userId := 2, code := "SC2CD" }]

theorem twoCodes_fresh : Fresh twoCodes where
  wallets := rfl
  txns := rfl
  counts := by
    intro r hr
    fin_cases hr <;> rfl
  codes := by
    intro i j r r' hr hr' heq
    rw [Table.get?_eq_some] at hr hr'
    fin_cases hr <;> fin_cases hr' <;> first | rfl | exact absurd heq (by decide)

/-- A third user redeems one of them, and pays in two hundred rupees. -/
theorem kept_redeemed_once : Throughout step Kept twoCodes
    [.apply 3 " sc1ab ", .addMoney 3 200 "UPI"] := by
  rw [kept_iff twoCodes_fresh.sound, stepwise_cons, stepwise_cons]
  refine ⟨?_, ?_, stepwise_nil Fits _⟩
  · intro r hr
    have hfound : redeemed 3 " sc1ab " twoCodes = some (1, { userId := 1, code := "SC1AB" }) := by
      decide +kernel
    rw [hfound] at hr
    cases hr
    exact ⟨⟨10000, by norm_num⟩, rfl⟩
  · intro _ _
    exact ⟨20000, by norm_num⟩

/-- The same code redeemed twice pays its bonus twice, and an amount of half a paisa too
many is credited without it. -/
theorem bonus_twice :
    ¬ Throughout step Kept twoCodes [.apply 3 "SC1AB", .apply 3 "SC1AB"] ∧
      ¬ Throughout step Kept twoCodes [.addMoney 3 (10005 / 1000) "UPI"] := by
  constructor
  · intro h
    have hbonus := h.final.bonus 3
    revert hbonus
    decide +kernel
  · intro h
    have hbalance := (h.final.wallets 3).balance
    revert hbalance
    decide +kernel

end Engagement

end SweetCrust
