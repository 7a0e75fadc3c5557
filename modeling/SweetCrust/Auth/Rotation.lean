import SweetCrust.Auth.Revocation
import SweetCrust.Lib.Decimal

/-!
# The tokens of a sign-in

A sign-in makes an access token and a refresh token.  A refresh token is exchanged for a new pair:
`refresh_tokens` checks it, revokes it and makes the pair, with a call of Redis between each two
of the three, and other requests are served meanwhile.  The tokens that come from one sign-in are a
family.

The requests are those of one process, with its `_memory`, which is lost at a restart.  Redis takes
each write or refuses it, and answers each look-up or does not: a token that only Redis has on its
list passes where it does not answer.

Time is any ordered field with a floor, and `jti` names the tokens.

* `Conf`, `advance` — requests, each with the phase that it is in.
* `check_unspent` — two requests that exchange one token overlap, and none follows a logout with
  it, but for the last second of the token, in which a revocation may be over.
* `one_usable` — where no two requests exchange one token at once, none does in the last second and
  Redis answers for what it has, a family has one refresh token that can be used, at most.
* `signed_out` — once that one is revoked at a logout, no refresh token of the family can be used
  any more.
-/

namespace SweetCrust

open Runs Tokens Decimal

namespace Rotation

/-- A token that was made. -/
structure Made where
  /-- The sign-in that it comes from. -/
  family : ℕ
  isRefresh : Bool
  exp : ℤ
  deriving DecidableEq

/-- Where a request to exchange a token is. -/
inductive Phase
  | idle
  | checked (token : ℕ)
  | revoked (token : ℕ)
  | done (token : ℕ)
  deriving DecidableEq

/-- The request has revoked the token. -/
def Phase.Spent (token : ℕ) : Phase → Prop
  | .revoked n | .done n => n = token
  | _ => False

section Model

variable {ι 𝕜 : Type} [DecidableEq ι] [Field 𝕜] [LinearOrder 𝕜] [FloorRing 𝕜]

structure Conf (ι 𝕜 : Type) where
  made : List Made
  revoked : Revoked 𝕜
  phase : ι → Phase
  /-- The tokens that were revoked at a logout. -/
  out : List ℕ
  clock : 𝕜

def Conf.start (now : 𝕜) : Conf ι 𝕜 := ⟨[], .start, fun _ => .idle, [], now⟩

omit [DecidableEq ι] [Field 𝕜] [LinearOrder 𝕜] [FloorRing 𝕜] in
/-- A request has revoked the token, to exchange it or at a logout. -/
def Conf.Spent (c : Conf ι 𝕜) (token : ℕ) : Prop := (∃ i, (c.phase i).Spent token) ∨ token ∈ c.out

inductive Event (ι 𝕜 : Type)
  /-- The clock is read for each token of the pair. -/
  | signIn (now now' : 𝕜)
  /-- The first part of `refresh_tokens`, up to the question whether the user is active. -/
  | check (i : ι) (token : ℕ) (isActive answers : Bool) (now : 𝕜)
  /-- `blacklist_token` of `refresh_tokens`, where Redis takes the write or refuses it. -/
  | revoke (i : ι) (accepts : Bool) (now : 𝕜)
  | issue (i : ι) (now now' : 𝕜)
  /-- `blacklist_token` of `logout`, for one of its two tokens. -/
  | logout (token : ℕ) (accepts : Bool) (now : 𝕜)
  /-- `decode_token`, for any other request. -/
  | decode (token : ℕ) (answers : Bool) (now : 𝕜)
  /-- The process is started anew. -/
  | restart (now : 𝕜)

/-- When the event begins, and when it ends. -/
def Event.span : Event ι 𝕜 → 𝕜 × 𝕜
  | .signIn now now' | .issue _ now now' => (now, now')
  | .check _ _ _ _ now | .revoke _ _ now | .logout _ _ now | .decode _ _ now | .restart now =>
    (now, now)

variable (jti : ℕ → String) (accessTokenExpireMinutes refreshTokenExpireDays : ℕ)

/-- What a correctly signed token carries, of the tokens that were made. -/
def signed (made : List Made) (token : ℕ) : Option Claims :=
  made[token]?.map fun t => ⟨some (jti token), some t.exp⟩

/-- `create_token_pair`. -/
def createTokenPair (family : ℕ) (now now' : 𝕜) : List Made :=
  [⟨family, false, ⌊now + (accessTokenExpireMinutes * 60 : ℕ)⌋⟩,
    ⟨family, true, ⌊now' + (refreshTokenExpireDays * 86400 : ℕ)⌋⟩]

/-- The family of a token. -/
def familyOf (made : List Made) (token : ℕ) : ℕ := (made[token]?.map Made.family).getD 0

/-- `payload.get("type") == "refresh"`. -/
def isRefresh (made : List Made) (token : ℕ) : Bool := (made[token]?.map Made.isRefresh).getD false

/-- The token is decoded, at a time, where Redis answers the look-up or does not. -/
def Usable (c : Conf ι 𝕜) (answers : Bool) (now : 𝕜) (token : ℕ) : Prop :=
  (decodeToken (signed jti c.made) answers now token c.revoked).1.isSome = true

instance (c : Conf ι 𝕜) (answers : Bool) (now : 𝕜) (token : ℕ) :
    Decidable (Usable jti c answers now token) := inferInstanceAs (Decidable (_ = true))

/-- Redis answers the look-up, or it does not have the token on its list. -/
def Seen (c : Conf ι 𝕜) (answers : Bool) (now : 𝕜) (token : ℕ) : Prop :=
  answers = true ∨ c.revoked.redis.get? now (key (jti token)) ≠ some "1"

instance (c : Conf ι 𝕜) (answers : Bool) (now : 𝕜) (token : ℕ) :
    Decidable (Seen jti c answers now token) := inferInstanceAs (Decidable (_ ∨ _))

/-- The check of a refresh request goes through. -/
def Passes (c : Conf ι 𝕜) (token : ℕ) (isActive answers : Bool) (now : 𝕜) : Prop :=
  Usable jti c answers now token ∧ isRefresh c.made token = true ∧ isActive = true

instance (c : Conf ι 𝕜) (token : ℕ) (isActive answers : Bool) (now : 𝕜) :
    Decidable (Passes jti c token isActive answers now) := inferInstanceAs (Decidable (_ ∧ _))

/-- A step of a request.  A request makes its steps in order, and each once. -/
def advance (c : Conf ι 𝕜) (e : Event ι 𝕜) : Conf ι 𝕜 :=
  match e with
  | .signIn now now' =>
    { c with
      made := c.made ++
        createTokenPair accessTokenExpireMinutes refreshTokenExpireDays c.made.length now now'
      clock := now' }
  | .check i token isActive answers now =>
    if c.phase i = .idle then
      { c with
        revoked := (decodeToken (signed jti c.made) answers now token c.revoked).2
        phase := if Passes jti c token isActive answers now
          then Function.update c.phase i (.checked token) else c.phase
        clock := now }
    else c
  | .revoke i accepts now =>
    match c.phase i with
    | .checked token =>
      { c with
        revoked := blacklistToken (signed jti c.made) accepts now token c.revoked
        phase := Function.update c.phase i (.revoked token)
        clock := now }
    | _ => c
  | .issue i now now' =>
    match c.phase i with
    | .revoked token =>
      { c with
        made := c.made ++ createTokenPair accessTokenExpireMinutes refreshTokenExpireDays
          (familyOf c.made token) now now'
        phase := Function.update c.phase i (.done token)
        clock := now' }
    | _ => c
  | .logout token accepts now =>
    { c with
      revoked := blacklistToken (signed jti c.made) accepts now token c.revoked
      out := if token < c.made.length then token :: c.out else c.out
      clock := now }
  | .decode token answers now =>
    { c with
      revoked := (decodeToken (signed jti c.made) answers now token c.revoked).2
      clock := now }
  | .restart now => { c with revoked.memory := .empty, clock := now }

omit [Field 𝕜] [FloorRing 𝕜] [DecidableEq ι] in
/-- The events come one after the other. -/
def InOrder (c : Conf ι 𝕜) (e : Event ι 𝕜) : Prop := c.clock ≤ e.span.1 ∧ e.span.1 ≤ e.span.2

omit [Field 𝕜] [FloorRing 𝕜] [DecidableEq ι] in
/-- The process is not started anew while its memory has a token on its list. -/
def Kept (c : Conf ι 𝕜) : Event ι 𝕜 → Prop
  | .restart now => ∀ n < c.made.length, c.revoked.memory.get? now (jti n) = none
  | _ => True

end Model

/-! ## Revocations, up to the last second -/

section Bars

variable {𝕜 : Type} [Field 𝕜] [LinearOrder 𝕜] [IsStrictOrderedRing 𝕜] [FloorRing 𝕜]

/-- The list has the id, up to the last second before `exp`. -/
def Barred (r : Revoked 𝕜) (id : String) (exp : ℤ) : Prop :=
  (∃ d, r.redis (key id) = some ("1", d) ∧ (exp : 𝕜) - 1 < d) ∨
    ∃ d, r.memory id = some ((), d) ∧ (exp : 𝕜) - 1 < d

variable {r : Revoked 𝕜} {id : String} {exp : ℤ} {answers : Bool} {now : 𝕜}

omit [IsStrictOrderedRing 𝕜] [FloorRing 𝕜] in
theorem isBlacklisted_of_barred (h : Barred r id exp) (hid : id ≠ "") (hnow : now ≤ exp - 1)
    (hseen : answers = true ∨ r.redis.get? now (key id) ≠ some "1") :
    (isBlacklisted answers now (some id) r).1 = true := by
  unfold isBlacklisted
  simp only [Option.filter_some, hid, ne_eq, not_false_eq_true, decide_true, if_true]
  obtain ⟨d, hd, hlt⟩ | ⟨d, hd, hlt⟩ := h
  · have hget : r.redis.get? now (key id) = some "1" :=
      Expiring.get?_eq_some.2 ⟨d, hd, hnow.trans_lt hlt⟩
    rw [redisGet, if_pos (hseen.resolve_right (not_not.2 hget)), if_pos hget]
  · by_cases hget : redisGet answers now (key id) r = some "1"
    · rw [if_pos hget]
    · rw [if_neg hget, hd]
      simp only
      rw [if_neg (not_le.2 (hnow.trans_lt hlt))]

omit [IsStrictOrderedRing 𝕜] [FloorRing 𝕜] in
/-- A look at the list drops no entry that is not over. -/
theorem Barred.isBlacklisted (h : Barred r id exp) (hnow : now ≤ exp - 1) (j : Option String) :
    Barred (isBlacklisted answers now j r).2 id exp := by
  unfold Tokens.isBlacklisted
  split
  · exact h
  · rename_i other _
    split_ifs with hredis
    · exact h
    · split
      · exact h
      · rename_i v d hother
        split_ifs with hover
        · refine h.imp_right ?_
          rintro ⟨e, he, hlt⟩
          have hne : id ≠ other := by
            rintro rfl
            rw [he] at hother
            cases hother
            exact absurd (hnow.trans_lt hlt) (not_lt.2 hover)
          refine ⟨e, ?_, hlt⟩
          show r.memory.delete other id = some ((), e)
          rw [Expiring.delete_of_ne _ hne, he]
        · exact h

/-- What is left of the time of a token, in whole seconds, goes on to the last second. -/
theorem last_lt_add_int (hnow : now ≤ exp - 1) : (exp : 𝕜) - 1 < now + int ((exp : 𝕜) - now) := by
  have hpos : 0 ≤ (exp : 𝕜) - now := by linarith
  rw [int, if_pos hpos]
  have hfloor := Int.lt_floor_add_one ((exp : 𝕜) - now)
  linarith

theorem int_pos (hnow : now ≤ exp - 1) : 0 < int ((exp : 𝕜) - now) := by
  have hpos : 0 ≤ (exp : 𝕜) - now := by linarith
  rw [int, if_pos hpos]
  have hone : (1 : ℤ) ≤ ⌊(exp : 𝕜) - now⌋ := Int.le_floor.2 (by push_cast; linarith)
  omega

theorem barred_blacklistJti (hid : id ≠ "") (hnow : now ≤ exp - 1) (accepts : Bool) :
    Barred (blacklistJti accepts now id (int ((exp : 𝕜) - now)) r) id exp := by
  have hpos := int_pos hnow
  unfold blacklistJti
  rw [if_neg (by simp [hid, hpos])]
  cases accepts with
  | true => exact .inl ⟨_, Expiring.set_self .., last_lt_add_int hnow⟩
  | false => exact .inr ⟨_, Expiring.set_self .., last_lt_add_int hnow⟩

omit [IsStrictOrderedRing 𝕜] [FloorRing 𝕜] in
/-- A revocation of another id drops no entry that is not over. -/
theorem Barred.blacklistJti (h : Barred r id exp) (hnow : now ≤ exp - 1) {j : String} (hj : id ≠ j)
    (accepts : Bool) (ttl : ℤ) : Barred (blacklistJti accepts now j ttl r) id exp := by
  unfold Tokens.blacklistJti
  split_ifs
  · exact h
  · refine h.imp_left ?_
    rintro ⟨d, hd, hlt⟩
    refine ⟨d, ?_, hlt⟩
    have hkey : key id ≠ key j := fun heq => hj (key_injective heq)
    show r.redis.set (key j) "1" _ (key id) = some ("1", d)
    rw [Expiring.set_of_ne _ _ _ hkey, hd]
  · refine h.imp_right ?_
    rintro ⟨d, hd, hlt⟩
    refine ⟨d, ?_, hlt⟩
    show (purged now r.memory).set j () _ id = some ((), d)
    rw [Expiring.set_of_ne _ _ _ hj, purged, hd]
    exact Option.filter_eq_some_iff.2 ⟨rfl, decide_eq_true (hnow.trans_lt hlt)⟩

omit [IsStrictOrderedRing 𝕜] [FloorRing 𝕜] in
/-- A restart loses nothing where the memory has nothing. -/
theorem Barred.restart (h : Barred r id exp) (hnow : now ≤ exp - 1)
    (hkept : r.memory.get? now id = none) : Barred { r with memory := .empty } id exp := by
  obtain hredis | ⟨d, hd, hlt⟩ := h
  · exact .inl hredis
  · have hget : r.memory.get? now id = some () :=
      Expiring.get?_eq_some.2 ⟨d, hd, hnow.trans_lt hlt⟩
    rw [hkept] at hget
    cases hget

end Bars

section Tokens

variable {ι 𝕜 : Type} [Field 𝕜] [LinearOrder 𝕜] [IsStrictOrderedRing 𝕜] [FloorRing 𝕜]
  {jti : ℕ → String} {made : List Made} {r : Revoked 𝕜} {m n : ℕ} {t : Made} {answers : Bool}
  {now : 𝕜}

theorem signed_of_made (ht : made[n]? = some t) :
    signed jti made n = some ⟨some (jti n), some t.exp⟩ := by
  rw [signed, ht, Option.map_some]

/-- A token is revoked up to its last second. -/
theorem barred_blacklistToken (hne : ∀ n, jti n ≠ "") (ht : made[n]? = some t) (hpos : 0 ≤ now)
    (hnow : now ≤ t.exp - 1) (accepts : Bool) :
    Barred (blacklistToken (signed jti made) accepts now n r) (jti n) t.exp := by
  have hexp : t.exp ≠ 0 := by
    intro hzero
    rw [hzero] at hnow
    push_cast at hnow
    linarith
  unfold blacklistToken
  rw [signed_of_made ht]
  simp only [Option.filter_some, hne n, hexp, ne_eq, not_false_eq_true, decide_true, if_true]
  exact barred_blacklistJti (hne n) hnow accepts

theorem Barred.blacklistToken (h : Barred r (jti m) t.exp) (hinj : Function.Injective jti)
    (hne : ∀ n, jti n ≠ "") (ht : made[m]? = some t) (hpos : 0 ≤ now) (hnow : now ≤ t.exp - 1)
    (accepts : Bool) (n : ℕ) :
    Barred (blacklistToken (signed jti made) accepts now n r) (jti m) t.exp := by
  by_cases hmn : n = m
  · subst hmn
    exact barred_blacklistToken hne ht hpos hnow accepts
  · unfold Tokens.blacklistToken
    cases hn : made[n]? with
    | none =>
      rw [signed, hn]
      exact h
    | some u =>
      rw [signed_of_made hn]
      simp only
      split
      · rename_i j exp hj _
        obtain ⟨hjn, -⟩ := Option.filter_eq_some_iff.1 hj
        cases hjn
        exact h.blacklistJti hnow (fun heq => hmn (hinj heq).symm) accepts _
      · exact h

omit [IsStrictOrderedRing 𝕜] in
theorem Barred.decodeToken {id : String} {exp : ℤ} (h : Barred r id exp) (hnow : now ≤ exp - 1)
    (n : ℕ) : Barred (decodeToken (signed jti made) answers now n r).2 id exp := by
  unfold Tokens.decodeToken
  cases accepted (signed jti made) now n with
  | none => exact h
  | some payload => exact h.isBlacklisted hnow payload.jti

omit [IsStrictOrderedRing 𝕜] in
/-- A token that is on the list cannot be used, up to its last second. -/
theorem not_usable_of_barred {c : Conf ι 𝕜} (hne : ∀ n, jti n ≠ "") (ht : c.made[n]? = some t)
    (h : Barred c.revoked (jti n) t.exp) (hnow : now ≤ t.exp - 1)
    (hseen : Seen jti c answers now n) : ¬ Usable jti c answers now n := by
  unfold Usable Tokens.decodeToken
  cases haccepted : accepted (signed jti c.made) now n with
  | none => simp
  | some payload =>
    obtain ⟨hsigned, -⟩ := Option.filter_eq_some_iff.1 haccepted
    rw [signed_of_made ht] at hsigned
    cases hsigned
    simp [isBlacklisted_of_barred h (hne n) hnow hseen]

end Tokens

/-! ## Along a run -/

section Invariants

variable {ι 𝕜 : Type} [DecidableEq ι] [Field 𝕜] [LinearOrder 𝕜] [IsStrictOrderedRing 𝕜]
  [FloorRing 𝕜] {jti : ℕ → String} {minutes days : ℕ} {c : Conf ι 𝕜} {e : Event ι 𝕜}

/-- Every token that a request has revoked is on the list, up to its last second. -/
structure Inv (jti : ℕ → String) (c : Conf ι 𝕜) : Prop where
  clock : 0 ≤ c.clock
  spent : ∀ n, c.Spent n → ∃ t, c.made[n]? = some t ∧
    (c.clock ≤ t.exp - 1 → Barred c.revoked (jti n) t.exp)
  held : ∀ i n, c.phase i = .checked n → ∃ t, c.made[n]? = some t ∧ t.isRefresh = true

theorem getElem?_of_append {l : List Made} {n : ℕ} {t : Made} (h : l[n]? = some t) (m : List Made) :
    (l ++ m)[n]? = some t := by
  obtain ⟨hn, -⟩ := List.getElem?_eq_some_iff.1 h
  rw [List.getElem?_append_left hn, h]

omit [DecidableEq ι] [IsStrictOrderedRing 𝕜] [FloorRing 𝕜] in
/-- Time passes, tokens are made, and entries are dropped that are over. -/
theorem Inv.later (h : Inv jti c) {more : List Made} {revoked : Revoked 𝕜} {clock : 𝕜}
    (hclock : c.clock ≤ clock)
    (hbars : ∀ n t, c.made[n]? = some t → clock ≤ t.exp - 1 →
      Barred c.revoked (jti n) t.exp → Barred revoked (jti n) t.exp) :
    Inv jti ⟨c.made ++ more, revoked, c.phase, c.out, clock⟩ where
  clock := h.clock.trans hclock
  spent n hn := by
    obtain ⟨t, ht, hbarred⟩ := h.spent n hn
    exact ⟨t, getElem?_of_append ht more, fun hlast => hbars n t ht hlast
      (hbarred (hclock.trans hlast))⟩
  held i n hn := by
    obtain ⟨t, ht, hrefresh⟩ := h.held i n hn
    exact ⟨t, getElem?_of_append ht more, hrefresh⟩

omit [IsStrictOrderedRing 𝕜] [FloorRing 𝕜] in
theorem Inv.update (h : Inv jti c) (i : ι) {p : Phase}
    (hspent : ∀ n, p.Spent n → ∃ t, c.made[n]? = some t ∧
      (c.clock ≤ t.exp - 1 → Barred c.revoked (jti n) t.exp))
    (hheld : ∀ n, p = .checked n → ∃ t, c.made[n]? = some t ∧ t.isRefresh = true) :
    Inv jti { c with phase := Function.update c.phase i p } where
  clock := h.clock
  spent n hn := by
    obtain ⟨j, hn⟩ | hn := hn
    · by_cases hj : j = i
      · subst hj
        exact hspent n (by simpa using hn)
      · dsimp only at hn
        rw [Function.update_of_ne hj] at hn
        exact h.spent n (.inl ⟨j, hn⟩)
    · exact h.spent n (.inr hn)
  held j n hn := by
    by_cases hj : j = i
    · subst hj
      exact hheld n (by simpa using hn)
    · dsimp only at hn
      rw [Function.update_of_ne hj] at hn
      exact h.held j n hn

omit [DecidableEq ι] [IsStrictOrderedRing 𝕜] [FloorRing 𝕜] in
/-- A token is revoked at a logout. -/
theorem Inv.leave (h : Inv jti c) {out : List ℕ}
    (hout : ∀ n ∈ out, n ∈ c.out ∨ ∃ t, c.made[n]? = some t ∧
      (c.clock ≤ t.exp - 1 → Barred c.revoked (jti n) t.exp)) : Inv jti { c with out := out } where
  clock := h.clock
  spent n hn := by
    obtain hn | hn := hn
    · exact h.spent n (.inl hn)
    · obtain hold | hnew := hout n hn
      · exact h.spent n (.inr hold)
      · exact hnew
  held := h.held

theorem made_of_isRefresh {made : List Made} {n : ℕ} (h : isRefresh made n = true) :
    ∃ t, made[n]? = some t ∧ t.isRefresh = true := by
  unfold isRefresh at h
  cases hn : made[n]? with
  | none => simp [hn] at h
  | some t => exact ⟨t, rfl, by simpa [hn] using h⟩

omit [DecidableEq ι] in
/-- The library accepts no token a second after its `exp`. -/
theorem lt_of_usable {n : ℕ} {t : Made} (ht : c.made[n]? = some t) {answers : Bool} {now : 𝕜}
    (h : Usable jti c answers now n) : now < t.exp + 1 := by
  unfold Usable decodeToken at h
  cases haccepted : accepted (signed jti c.made) now n with
  | none => simp [haccepted] at h
  | some payload =>
    obtain ⟨hsigned, hexp⟩ := Option.filter_eq_some_iff.1 haccepted
    rw [signed_of_made ht] at hsigned
    cases hsigned
    have hfloor : ⌊now⌋ ≤ t.exp := by simpa using hexp
    have hlt := Int.lt_floor_add_one now
    have hcast : (⌊now⌋ : 𝕜) ≤ t.exp := Int.cast_le.2 hfloor
    linarith

variable (hinj : Function.Injective jti) (hne : ∀ n, jti n ≠ "")
include hinj hne

theorem inv_advance (h : Inv jti c) (hord : InOrder c e) (hkept : Kept jti c e) :
    Inv jti (advance jti minutes days c e) := by
  obtain ⟨hstart, hspan⟩ := hord
  have hrevoked : ∀ (revoked : Revoked 𝕜) (now : 𝕜), c.clock ≤ now →
      (∀ n t, c.made[n]? = some t → now ≤ t.exp - 1 →
        Barred c.revoked (jti n) t.exp → Barred revoked (jti n) t.exp) →
      Inv jti { c with revoked := revoked, clock := now } := by
    intro revoked now hnow hbars
    have hlater : Inv jti ⟨c.made ++ [], revoked, c.phase, c.out, now⟩ := h.later hnow hbars
    rwa [List.append_nil] at hlater
  have hdecode : ∀ (token : ℕ) (answers : Bool) (now : 𝕜), c.clock ≤ now →
      Inv jti { c with
        revoked := (decodeToken (signed jti c.made) answers now token c.revoked).2
        clock := now } := fun token answers now hnow =>
    hrevoked _ now hnow fun n t _ hlast hbarred => hbarred.decodeToken hlast token
  have hrevoke : ∀ (token : ℕ) (accepts : Bool) (now : 𝕜), c.clock ≤ now →
      Inv jti { c with
        revoked := blacklistToken (signed jti c.made) accepts now token c.revoked
        clock := now } := fun token accepts now hnow =>
    hrevoked _ now hnow fun n t ht hlast hbarred =>
      hbarred.blacklistToken hinj hne ht (h.clock.trans hnow) hlast accepts token
  cases e with
  | signIn now now' => exact h.later (hstart.trans hspan) fun n t _ _ hbarred => hbarred
  | check i token isActive answers now =>
    simp only [advance]
    split_ifs with hidle hpasses
    · refine (hdecode token answers now hstart).update i (fun n hn => ?_) fun n hn => ?_
      · cases hn
      · cases hn
        exact made_of_isRefresh hpasses.2.1
    · exact hdecode token answers now hstart
    · exact h
  | revoke i accepts now =>
    simp only [advance]
    split
    · rename_i token hi
      obtain ⟨t, ht, -⟩ := h.held i token hi
      refine (hrevoke token accepts now hstart).update i (fun n hn => ?_) fun n hn => ?_
      · cases hn
        exact ⟨t, ht, fun hlast =>
          barred_blacklistToken hne ht (h.clock.trans hstart) hlast accepts⟩
      · cases hn
    · exact h
  | issue i now now' =>
    simp only [advance]
    split
    · rename_i token hi
      have hlater : Inv jti ⟨c.made ++ createTokenPair minutes days (familyOf c.made token) now
          now', c.revoked, c.phase, c.out, now'⟩ :=
        h.later (hstart.trans hspan) fun n t _ _ hbarred => hbarred
      refine hlater.update i (fun n hn => ?_) fun n hn => ?_
      · cases hn
        exact hlater.spent token (.inl ⟨i, by rw [hi]; rfl⟩)
      · cases hn
    · exact h
  | logout token accepts now =>
    refine (hrevoke token accepts now hstart).leave fun n hn => ?_
    split_ifs at hn with hmade
    · obtain rfl | hold := List.mem_cons.1 hn
      · refine .inr ⟨c.made[n], List.getElem?_eq_getElem hmade, fun hlast => ?_⟩
        exact barred_blacklistToken hne (List.getElem?_eq_getElem hmade) (h.clock.trans hstart)
          hlast accepts
      · exact .inl hold
    · exact .inl hn
  | decode token answers now => exact hdecode token answers now hstart
  | restart now =>
    refine hrevoked _ now hstart fun n t ht hlast hbarred => hbarred.restart hlast ?_
    exact hkept n (List.getElem?_eq_some_iff.1 ht).1

omit [DecidableEq ι] [IsStrictOrderedRing 𝕜] hinj in
/-- A token that a request has revoked cannot be used, up to its last second. -/
theorem unspent_of_usable (h : Inv jti c) {n : ℕ} {t : Made} (ht : c.made[n]? = some t)
    {answers : Bool} {now : 𝕜} (hnow : c.clock ≤ now) (hlast : now ≤ t.exp - 1)
    (hseen : Seen jti c answers now n) (husable : Usable jti c answers now n) : ¬ c.Spent n := by
  intro hspent
  obtain ⟨t', ht', hbarred⟩ := h.spent n hspent
  rw [ht] at ht'
  cases ht'
  exact not_usable_of_barred hne ht (hbarred (hnow.trans hlast)) hlast hseen husable

omit [DecidableEq ι] [IsStrictOrderedRing 𝕜] [FloorRing 𝕜] hinj hne in
theorem inv_start {start : 𝕜} (hstart : 0 ≤ start) : Inv jti (Conf.start start : Conf ι 𝕜) := by
  refine ⟨hstart, ?_, ?_⟩
  · rintro n (⟨i, ⟨⟩⟩ | hn)
    cases hn
  · rintro i n ⟨⟩

theorem inv_run {start : 𝕜} (hstart : 0 ≤ start) {es : List (Event ι 𝕜)}
    (hes : Stepwise (advance jti minutes days) (fun c e => InOrder c e ∧ Kept jti c e)
      (.start start) es) :
    Inv jti (run (advance jti minutes days) (.start start) es) :=
  (throughout_of_stepwise (P := Inv jti)
    (fun _ _ h ⟨horder, hkept⟩ => inv_advance hinj hne h horder hkept) (inv_start hstart) hes).final

/-- In every run, a request whose check of a token goes through before the last second of the token,
where Redis answers for what it has, makes it before any request has revoked the token, be it to
exchange it or at a logout. -/
theorem check_unspent {start : 𝕜} (hstart : 0 ≤ start) {es : List (Event ι 𝕜)}
    (hes : Stepwise (advance jti minutes days) (fun c e => InOrder c e ∧ Kept jti c e)
      (.start start) es) {n : ℕ} {t : Made}
    (ht : (run (advance jti minutes days) (.start start) es).made[n]? = some t) {now : 𝕜}
    (hnow : (run (advance jti minutes days) (.start start) es).clock ≤ now)
    (hlast : now ≤ t.exp - 1) {isActive answers : Bool}
    (hseen : Seen jti (run (advance jti minutes days) (.start start) es) answers now n)
    (hpasses : Passes jti (run (advance jti minutes days) (.start start) es) n isActive answers
      now) : ¬ (run (advance jti minutes days) (.start start) es).Spent n :=
  unspent_of_usable hne (inv_run hinj hne hstart hes) ht hnow hlast hseen hpasses.1

end Invariants

/-! ## Families -/

section Families

variable {ι 𝕜 : Type} [Field 𝕜] [LinearOrder 𝕜] [FloorRing 𝕜] {jti : ℕ → String}
  {minutes days : ℕ} {c : Conf ι 𝕜} {e : Event ι 𝕜}

/-- What may make the next token of a family: a refresh token that no request has revoked to
exchange it, or a request that has revoked one and has not made the pair. -/
def Holds (c : Conf ι 𝕜) (f : ℕ) : ℕ ⊕ ι → Prop
  | .inl n => (∃ t, c.made[n]? = some t ∧ t.isRefresh = true ∧ t.family = f) ∧
      ∀ i, ¬ (c.phase i).Spent n
  | .inr i => ∃ n, c.phase i = .revoked n ∧ familyOf c.made n = f

/-- No other request is about to exchange the token, it is not in its last second, nor in the one
after, and Redis answers if it has it on its list. -/
def Alone (jti : ℕ → String) (c : Conf ι 𝕜) : Event ι 𝕜 → Prop
  | .check _ n _ answers now => (∀ j, c.phase j ≠ .checked n) ∧
      (∀ t ∈ c.made[n]?, now ≤ t.exp - 1 ∨ (t.exp : 𝕜) + 1 ≤ now) ∧ Seen jti c answers now n
  | _ => True

/-- The requests come one after the other, no token is taken up by two of them, and none is lost
from the list. -/
def Orderly (jti : ℕ → String) (c : Conf ι 𝕜) (e : Event ι 𝕜) : Prop :=
  InOrder c e ∧ Kept jti c e ∧ Alone jti c e

structure Single (c : Conf ι 𝕜) : Prop where
  older : ∀ (n : ℕ) (t : Made), c.made[n]? = some t → t.family < c.made.length
  one : ∀ f x y, Holds c f x → Holds c f y → x = y
  alone : ∀ i j n, c.phase i = .checked n → c.phase j = .checked n → i = j
  unspent : ∀ i n, c.phase i = .checked n → ∀ j, ¬ (c.phase j).Spent n

theorem familyOf_of_made {made : List Made} {n : ℕ} {t : Made} (ht : made[n]? = some t) :
    familyOf made n = t.family := by
  rw [familyOf, ht]
  rfl

theorem familyOf_append {made : List Made} {n : ℕ} {t : Made} (ht : made[n]? = some t)
    (more : List Made) : familyOf (made ++ more) n = familyOf made n := by
  rw [familyOf_of_made ht, familyOf_of_made (getElem?_of_append ht more)]

/-- The refresh token of a new pair is the second. -/
theorem made_pair {made : List Made} {family n : ℕ} {now now' : 𝕜} {t : Made}
    (ht : (made ++ createTokenPair minutes days family now now')[n]? = some t) :
    made[n]? = some t ∨ t.family = family ∧ (t.isRefresh = true → n = made.length + 1) := by
  by_cases hn : n < made.length
  · rw [List.getElem?_append_left hn] at ht
    exact .inl ht
  · rw [List.getElem?_append_right (not_lt.1 hn)] at ht
    right
    obtain hzero | hone : n - made.length = 0 ∨ n - made.length = 1 := by
      have hlt := (List.getElem?_eq_some_iff.1 ht).1
      simp only [createTokenPair, List.length_cons, List.length_nil] at hlt
      omega
    · rw [hzero] at ht
      cases ht
      exact ⟨rfl, by simp⟩
    · rw [hone] at ht
      cases ht
      exact ⟨rfl, fun _ => by omega⟩

/-- A family that is there already has its holders among those before. -/
theorem holds_pair {f family : ℕ} {now now' clock : 𝕜} {r : Revoked 𝕜} {x : ℕ ⊕ ι}
    (hinv : Inv jti c)
    (hx : Holds ⟨c.made ++ createTokenPair minutes days family now now', r, c.phase, c.out, clock⟩
      f x) :
    Holds c f x ∨ f = family ∧ x = .inl (c.made.length + 1) := by
  cases x with
  | inl m =>
    obtain ⟨⟨t, ht, hrefresh, hfamily⟩, hunspent⟩ := hx
    obtain hold | ⟨hnew, hm⟩ := made_pair ht
    · exact .inl ⟨⟨t, hold, hrefresh, hfamily⟩, hunspent⟩
    · exact .inr ⟨hfamily.symm.trans hnew, by rw [hm hrefresh]⟩
  | inr i =>
    obtain ⟨m, hm, hfamily⟩ := hx
    obtain ⟨t, ht, -⟩ := hinv.spent m (.inl ⟨i, by rw [hm]; rfl⟩)
    rw [familyOf_append ht] at hfamily
    exact .inl ⟨m, hm, hfamily⟩

omit [Field 𝕜] [LinearOrder 𝕜] [FloorRing 𝕜] in
theorem Single.later (h : Single c) {revoked : Revoked 𝕜} {out : List ℕ} {clock : 𝕜} :
    Single ⟨c.made, revoked, c.phase, out, clock⟩ := ⟨h.older, h.one, h.alone, h.unspent⟩

variable [DecidableEq ι]

theorem single_signIn (h : Single c) (hinv : Inv jti c) (now now' : 𝕜) :
    Single (advance jti minutes days c (.signIn now now')) where
  older n t ht := by
    have hlength : (c.made ++ createTokenPair minutes days c.made.length now now').length =
        c.made.length + 2 := by simp [createTokenPair]
    show t.family < (c.made ++ createTokenPair minutes days c.made.length now now').length
    rw [hlength]
    obtain hold | ⟨hnew, -⟩ := made_pair ht
    · have holder := h.older n t hold
      omega
    · omega
  one f x y hx hy := by
    have hfresh : ∀ z, Holds c f z → f < c.made.length := by
      rintro (m | i) hz
      · obtain ⟨⟨t, ht, -, rfl⟩, -⟩ := hz
        exact h.older m t ht
      · obtain ⟨m, hm, rfl⟩ := hz
        obtain ⟨t, ht, -⟩ := hinv.spent m (.inl ⟨i, by rw [hm]; rfl⟩)
        rw [familyOf_of_made ht]
        exact h.older m t ht
    obtain hx | ⟨hfx, rfl⟩ := holds_pair hinv hx
    · obtain hy | ⟨hfy, rfl⟩ := holds_pair hinv hy
      · exact h.one f x y hx hy
      · exact absurd (hfresh x hx) (by omega)
    · obtain hy | ⟨-, rfl⟩ := holds_pair hinv hy
      · exact absurd (hfresh y hy) (by omega)
      · rfl
  alone := h.alone
  unspent := h.unspent

/-- A request that has revoked the token of its family is the only holder; it makes way for the
refresh token that it makes. -/
theorem single_issue (h : Single c) (hinv : Inv jti c) (i : ι) (now now' : 𝕜) :
    Single (advance jti minutes days c (.issue i now now')) := by
  simp only [advance]
  split
  · rename_i token hi
    obtain ⟨t, ht, -⟩ := hinv.spent token (.inl ⟨i, by rw [hi]; rfl⟩)
    -- the phases before and after differ in `i` alone, which has revoked its token in both
    have hspent : ∀ j n, (Function.update c.phase i (.done token) j).Spent n ↔
        (c.phase j).Spent n := by
      intro j n
      by_cases hj : j = i
      · rw [hj, Function.update_self, hi]
        rfl
      · rw [Function.update_of_ne hj]
    have hchecked : ∀ j n, Function.update c.phase i (.done token) j = .checked n →
        c.phase j = .checked n := by
      intro j n hj
      by_cases hji : j = i
      · rw [hji, Function.update_self] at hj
        cases hj
      · rwa [Function.update_of_ne hji] at hj
    have hbefore : ∀ f x, Holds ⟨c.made ++ createTokenPair minutes days (familyOf c.made token) now
        now', c.revoked, Function.update c.phase i (.done token), c.out, now'⟩ f x → x ≠ .inr i ∧
        Holds ⟨c.made ++ createTokenPair minutes days (familyOf c.made token) now now', c.revoked,
          c.phase, c.out, now'⟩ f x := by
      rintro f (m | j) hx
      · obtain ⟨hmade, hunspent⟩ := hx
        exact ⟨by simp, hmade, fun j hj => hunspent j ((hspent j m).2 hj)⟩
      · obtain ⟨m, hm, hfamily⟩ := hx
        have hji : j ≠ i := by
          rintro rfl
          dsimp only at hm
          rw [Function.update_self] at hm
          cases hm
        dsimp only at hm
        rw [Function.update_of_ne hji] at hm
        exact ⟨by simpa using hji, m, hm, hfamily⟩
    have hholder : Holds c (familyOf c.made token) (.inr i) := ⟨token, hi, rfl⟩
    refine ⟨fun n u hu => ?_, fun f x y hx hy => ?_, fun j k n hj hk => ?_, fun j n hj k hk => ?_⟩
    · have hlength : (c.made ++ createTokenPair minutes days (familyOf c.made token) now
          now').length = c.made.length + 2 := by simp [createTokenPair]
      dsimp only at hu ⊢
      rw [hlength]
      obtain hold | ⟨hnew, -⟩ := made_pair hu
      · have holder := h.older n u hold
        omega
      · have holder := h.older token t ht
        rw [familyOf_of_made ht] at hnew
        omega
    · obtain ⟨hxi, hx⟩ := hbefore f x hx
      obtain ⟨hyi, hy⟩ := hbefore f y hy
      obtain hx | ⟨hfx, rfl⟩ := holds_pair hinv hx
      · obtain hy | ⟨hfy, rfl⟩ := holds_pair hinv hy
        · exact h.one f x y hx hy
        · rw [hfy] at hx
          exact absurd (h.one _ _ _ hx hholder) hxi
      · obtain hy | ⟨-, rfl⟩ := holds_pair hinv hy
        · rw [hfx] at hy
          exact absurd (h.one _ _ _ hy hholder) hyi
        · rfl
    · exact h.alone j k n (hchecked j n hj) (hchecked k n hk)
    · exact h.unspent j n (hchecked j n hj) k ((hspent k n).1 hk)
  · exact h

/-- A request that revokes the token it holds takes its place. -/
theorem single_revoke (h : Single c) (hinv : Inv jti c) (i : ι) (accepts : Bool) (now : 𝕜) :
    Single (advance jti minutes days c (.revoke i accepts now)) := by
  simp only [advance]
  split
  · rename_i token hi
    obtain ⟨t, ht, hrefresh⟩ := hinv.held i token hi
    have hholder : Holds c (familyOf c.made token) (.inl token) :=
      ⟨⟨t, ht, hrefresh, (familyOf_of_made ht).symm⟩, h.unspent i token hi⟩
    have hchecked : ∀ j n, Function.update c.phase i (.revoked token) j = .checked n →
        j ≠ i ∧ c.phase j = .checked n := by
      intro j n hj
      by_cases hji : j = i
      · rw [hji, Function.update_self] at hj
        cases hj
      · rw [Function.update_of_ne hji] at hj
        exact ⟨hji, hj⟩
    have hspent : ∀ j n, (Function.update c.phase i (.revoked token) j).Spent n →
        (c.phase j).Spent n ∨ n = token := by
      intro j n hj
      by_cases hji : j = i
      · rw [hji, Function.update_self] at hj
        exact .inr hj.symm
      · rw [Function.update_of_ne hji] at hj
        exact .inl hj
    have hkept : ∀ j n, (c.phase j).Spent n →
        (Function.update c.phase i (.revoked token) j).Spent n := by
      intro j n hj
      by_cases hji : j = i
      · rw [hji, hi] at hj
        cases hj
      · rwa [Function.update_of_ne hji]
    -- a holder is one from before, and not the token, or the request itself
    have hbefore : ∀ f x, Holds ⟨c.made, blacklistToken (signed jti c.made) accepts now token
        c.revoked, Function.update c.phase i (.revoked token), c.out, now⟩ f x →
        x = .inr i ∧ f = familyOf c.made token ∨ x ≠ .inl token ∧ Holds c f x := by
      rintro f (m | j) hx
      · obtain ⟨hmade, hunspent⟩ := hx
        refine .inr ⟨?_, hmade, fun j hj => hunspent j (hkept j m hj)⟩
        rintro hm
        cases hm
        exact hunspent i (by dsimp only; rw [Function.update_self]; rfl)
      · obtain ⟨m, hm, hfamily⟩ := hx
        dsimp only at hm
        by_cases hji : j = i
        · rw [hji, Function.update_self] at hm
          cases hm
          exact .inl ⟨by rw [hji], hfamily.symm⟩
        · rw [Function.update_of_ne hji] at hm
          exact .inr ⟨by simp, m, hm, hfamily⟩
    refine ⟨h.older, fun f x y hx hy => ?_, fun j k n hj hk => ?_, fun j n hj k hk => ?_⟩
    · obtain ⟨rfl, hfx⟩ | ⟨hxt, hx⟩ := hbefore f x hx
      · obtain ⟨rfl, -⟩ | ⟨hyt, hy⟩ := hbefore f y hy
        · rfl
        · rw [hfx] at hy
          exact absurd (h.one _ _ _ hy hholder) hyt
      · obtain ⟨rfl, hfy⟩ | ⟨-, hy⟩ := hbefore f y hy
        · rw [hfy] at hx
          exact absurd (h.one _ _ _ hx hholder) hxt
        · exact h.one f x y hx hy
    · exact h.alone j k n (hchecked j n hj).2 (hchecked k n hk).2
    · obtain ⟨hji, hjn⟩ := hchecked j n hj
      obtain hk | rfl := hspent k n hk
      · exact h.unspent j n hjn k hk
      · exact hji (h.alone j i n hjn hi)
  · exact h

variable [IsStrictOrderedRing 𝕜]

/-- A request that takes up a token of a family leaves the holders as they are. -/
theorem single_check (hne : ∀ n, jti n ≠ "") (h : Single c) (hinv : Inv jti c) {i : ι} {token : ℕ}
    {isActive answers : Bool} {now : 𝕜} (horder : InOrder c (.check i token isActive answers now))
    (halone : Alone jti c (.check i token isActive answers now)) :
    Single (advance jti minutes days c (.check i token isActive answers now)) := by
  simp only [advance]
  split_ifs with hidle hpasses
  · obtain ⟨hother, hlast, hseen⟩ := halone
    have hunspent : ∀ j, ¬ (c.phase j).Spent token := by
      obtain ⟨t, ht, -⟩ := made_of_isRefresh hpasses.2.1
      obtain hlast | hover := hlast t ht
      · exact fun j hj =>
          unspent_of_usable hne hinv ht horder.1 hlast hseen hpasses.1 (.inl ⟨j, hj⟩)
      · exact absurd (lt_of_usable ht hpasses.1) (not_lt.2 hover)
    have hchecked : ∀ j n, Function.update c.phase i (.checked token) j = .checked n →
        j = i ∧ n = token ∨ c.phase j = .checked n := by
      intro j n hj
      by_cases hji : j = i
      · rw [hji, Function.update_self] at hj
        cases hj
        exact .inl ⟨hji, rfl⟩
      · rw [Function.update_of_ne hji] at hj
        exact .inr hj
    have hspent : ∀ j n, (Function.update c.phase i (.checked token) j).Spent n ↔
        (c.phase j).Spent n := by
      intro j n
      by_cases hji : j = i
      · rw [hji, Function.update_self, hidle]
        rfl
      · rw [Function.update_of_ne hji]
    have hbefore : ∀ f x, Holds ⟨c.made,
        (decodeToken (signed jti c.made) answers now token c.revoked).2,
        Function.update c.phase i (.checked token), c.out, now⟩ f x → Holds c f x := by
      rintro f (m | j) hx
      · exact ⟨hx.1, fun j hj => hx.2 j ((hspent j m).2 hj)⟩
      · obtain ⟨m, hm, hfamily⟩ := hx
        dsimp only at hm
        by_cases hji : j = i
        · rw [hji, Function.update_self] at hm
          cases hm
        · rw [Function.update_of_ne hji] at hm
          exact ⟨m, hm, hfamily⟩
    refine ⟨h.older, fun f x y hx hy => h.one f x y (hbefore f x hx) (hbefore f y hy),
      fun j k n hj hk => ?_, fun j n hj k hk => ?_⟩
    · obtain ⟨hji, hjn⟩ | hj := hchecked j n hj
      · obtain ⟨hki, -⟩ | hk := hchecked k n hk
        · rw [hji, hki]
        · rw [hjn] at hk
          exact absurd hk (hother k)
      · obtain ⟨-, hkn⟩ | hk := hchecked k n hk
        · rw [hkn] at hj
          exact absurd hj (hother j)
        · exact h.alone j k n hj hk
    · have hkn := (hspent k n).1 hk
      obtain ⟨-, hjn⟩ | hj := hchecked j n hj
      · rw [hjn] at hkn
        exact hunspent k hkn
      · exact h.unspent j n hj k hkn
  · exact h.later
  · exact h

theorem single_advance (hne : ∀ n, jti n ≠ "") (h : Single c) (hinv : Inv jti c)
    (horder : InOrder c e) (halone : Alone jti c e) : Single (advance jti minutes days c e) := by
  cases e with
  | signIn now now' => exact single_signIn h hinv now now'
  | check i token isActive answers now => exact single_check hne h hinv horder halone
  | revoke i accepts now => exact single_revoke h hinv i accepts now
  | issue i now now' => exact single_issue h hinv i now now'
  | logout token accepts now => exact h.later
  | decode token answers now => exact h.later
  | restart now => exact h.later

omit [Field 𝕜] [LinearOrder 𝕜] [FloorRing 𝕜] [DecidableEq ι] [IsStrictOrderedRing 𝕜] in
theorem single_start (start : 𝕜) : Single (Conf.start start : Conf ι 𝕜) where
  older n t ht := by cases ht
  one f x y hx hy := by
    rcases x with m | i
    · obtain ⟨⟨t, ht, -⟩, -⟩ := hx
      cases ht
    · obtain ⟨m, hm, -⟩ := hx
      cases hm
  alone i j n hi := by cases hi
  unspent i n hi := by cases hi

theorem single_run (hinj : Function.Injective jti) (hne : ∀ n, jti n ≠ "") {start : 𝕜}
    (hstart : 0 ≤ start) {es : List (Event ι 𝕜)}
    (hes : Stepwise (advance jti minutes days) (Orderly jti) (.start start) es) :
    Inv jti (run (advance jti minutes days) (.start start) es) ∧
      Single (run (advance jti minutes days) (.start start) es) := by
  have hstep : ∀ (c : Conf ι 𝕜) e, Inv jti c ∧ Single c → Orderly jti c e →
      Inv jti (advance jti minutes days c e) ∧ Single (advance jti minutes days c e) :=
    fun c e ⟨hinv, hsingle⟩ ⟨horder, hkept, halone⟩ =>
      ⟨inv_advance hinj hne hinv horder hkept, single_advance hne hsingle hinv horder halone⟩
  exact (throughout_of_stepwise hstep ⟨inv_start hstart, single_start start⟩ hes).final

omit [DecidableEq ι] [IsStrictOrderedRing 𝕜] in
/-- A refresh token that can be used, and is not in its last second, holds its family. -/
theorem holds_of_usable (hne : ∀ n, jti n ≠ "") (hinv : Inv jti c) {n : ℕ} {t : Made}
    (ht : c.made[n]? = some t) (hrefresh : t.isRefresh = true) {answers : Bool} {now : 𝕜}
    (hnow : c.clock ≤ now) (hlast : now ≤ t.exp - 1) (hseen : Seen jti c answers now n)
    (husable : Usable jti c answers now n) : Holds c t.family (.inl n) :=
  ⟨⟨t, ht, hrefresh, rfl⟩, fun i hi =>
    unspent_of_usable hne hinv ht hnow hlast hseen husable (.inl ⟨i, hi⟩)⟩

/-- In every run in which no two requests exchange one token at once, none in the last second of a
token, and Redis answers for what it has, a family never has two refresh tokens that can be used,
and are not in their last second. -/
theorem one_usable (hinj : Function.Injective jti) (hne : ∀ n, jti n ≠ "") {start : 𝕜}
    (hstart : 0 ≤ start) {es : List (Event ι 𝕜)}
    (hes : Stepwise (advance jti minutes days) (Orderly jti) (.start start) es) {m n : ℕ}
    {s t : Made} (hs : (run (advance jti minutes days) (.start start) es).made[m]? = some s)
    (ht : (run (advance jti minutes days) (.start start) es).made[n]? = some t)
    (hrefresh : s.isRefresh = true ∧ t.isRefresh = true) (hfamily : s.family = t.family)
    (hmn : m ≠ n) {now : 𝕜} (hnow : (run (advance jti minutes days) (.start start) es).clock ≤ now)
    (hlast : now ≤ s.exp - 1 ∧ now ≤ t.exp - 1) {answers answers' : Bool}
    (hseen : Seen jti (run (advance jti minutes days) (.start start) es) answers now m ∧
      Seen jti (run (advance jti minutes days) (.start start) es) answers' now n)
    (husable : Usable jti (run (advance jti minutes days) (.start start) es) answers now m) :
    ¬ Usable jti (run (advance jti minutes days) (.start start) es) answers' now n := by
  intro husable'
  obtain ⟨hinv, hsingle⟩ := single_run hinj hne hstart hes
  have hm := holds_of_usable hne hinv hs hrefresh.1 hnow hlast.1 hseen.1 husable
  have hn := holds_of_usable hne hinv ht hrefresh.2 hnow hlast.2 hseen.2 husable'
  rw [hfamily] at hm
  exact hmn (Sum.inl_injective (hsingle.one _ _ _ hm hn))

/-! ## After a logout -/

/-- Every refresh token of the family is on the list, and no request is about to make the next. -/
structure Ended (jti : ℕ → String) (f : ℕ) (c : Conf ι 𝕜) : Prop where
  older : f < c.made.length
  barred : ∀ (n : ℕ) (t : Made), c.made[n]? = some t → t.isRefresh = true → t.family = f →
    c.clock ≤ t.exp - 1 → Barred c.revoked (jti n) t.exp
  idle : ∀ i n, c.phase i = .checked n ∨ c.phase i = .revoked n → familyOf c.made n ≠ f

omit [FloorRing 𝕜] [DecidableEq ι] [IsStrictOrderedRing 𝕜] in
theorem Ended.later {f : ℕ} (h : Ended jti f c) (hinv : Inv jti c) {more : List Made}
    {revoked : Revoked 𝕜} {out : List ℕ} {clock : 𝕜} (hclock : c.clock ≤ clock)
    (hmore : ∀ t ∈ more, t.family ≠ f)
    (hbars : ∀ n t, c.made[n]? = some t → clock ≤ t.exp - 1 →
      Barred c.revoked (jti n) t.exp → Barred revoked (jti n) t.exp) :
    Ended jti f ⟨c.made ++ more, revoked, c.phase, out, clock⟩ where
  older := by
    have holder := h.older
    rw [List.length_append]
    omega
  barred n t ht hrefresh hfamily hlast := by
    by_cases hn : n < c.made.length
    · dsimp only at ht
      rw [List.getElem?_append_left hn] at ht
      exact hbars n t ht hlast (h.barred n t ht hrefresh hfamily (hclock.trans hlast))
    · dsimp only at ht
      rw [List.getElem?_append_right (not_lt.1 hn)] at ht
      exact absurd hfamily (hmore t (List.mem_of_getElem? ht))
  idle i n hi := by
    obtain ⟨t, ht⟩ : ∃ t, c.made[n]? = some t := by
      obtain hi | hi := hi
      · exact (hinv.held i n hi).imp fun t ht => ht.1
      · exact (hinv.spent n (.inl ⟨i, by rw [hi]; rfl⟩)).imp fun t ht => ht.1
    rw [familyOf_append ht]
    exact h.idle i n hi

omit [FloorRing 𝕜] [IsStrictOrderedRing 𝕜] in
theorem Ended.update {f : ℕ} (h : Ended jti f c) (i : ι) {p : Phase}
    (hp : ∀ n, p = .checked n ∨ p = .revoked n → familyOf c.made n ≠ f) :
    Ended jti f { c with phase := Function.update c.phase i p } where
  older := h.older
  barred := h.barred
  idle j n hj := by
    by_cases hji : j = i
    · rw [hji] at hj
      exact hp n (by simpa using hj)
    · dsimp only at hj
      rw [Function.update_of_ne hji] at hj
      exact h.idle j n hj

theorem ended_advance (hinj : Function.Injective jti) (hne : ∀ n, jti n ≠ "") {f : ℕ}
    (h : Ended jti f c) (hinv : Inv jti c) (he : Orderly jti c e) :
    Ended jti f (advance jti minutes days c e) := by
  obtain ⟨⟨hstart, hspan⟩, hkept, halone⟩ := he
  have hpair : ∀ (g : ℕ) (now now' : 𝕜), g ≠ f → ∀ t ∈ createTokenPair minutes days g now now',
      t.family ≠ f := by
    intro g now now' hg t ht
    obtain rfl | ht := List.mem_cons.1 ht
    · exact hg
    · obtain rfl := List.mem_singleton.1 ht
      exact hg
  have hrevoked : ∀ (revoked : Revoked 𝕜) (out : List ℕ) (now : 𝕜), c.clock ≤ now →
      (∀ n t, c.made[n]? = some t → now ≤ t.exp - 1 →
        Barred c.revoked (jti n) t.exp → Barred revoked (jti n) t.exp) →
      Ended jti f { c with revoked := revoked, out := out, clock := now } := by
    intro revoked out now hnow hbars
    have hlater : Ended jti f ⟨c.made ++ [], revoked, c.phase, out, now⟩ :=
      h.later hinv hnow (by simp) hbars
    rwa [List.append_nil] at hlater
  have hdecode : ∀ (token : ℕ) (answers : Bool) (now : 𝕜), c.clock ≤ now →
      Ended jti f { c with
        revoked := (decodeToken (signed jti c.made) answers now token c.revoked).2
        clock := now } := fun token answers now hnow =>
    hrevoked _ c.out now hnow fun n t _ hlast hbarred => hbarred.decodeToken hlast token
  have hrevoke : ∀ (token : ℕ) (accepts : Bool) (out : List ℕ) (now : 𝕜), c.clock ≤ now →
      Ended jti f { c with
        revoked := blacklistToken (signed jti c.made) accepts now token c.revoked
        out := out
        clock := now } := fun token accepts out now hnow =>
    hrevoked _ out now hnow fun n t ht hlast hbarred =>
      hbarred.blacklistToken hinj hne ht (hinv.clock.trans hnow) hlast accepts token
  cases e with
  | signIn now now' =>
    exact h.later hinv (hstart.trans hspan) (hpair _ now now' (by have := h.older; omega))
      fun n t _ _ hbarred => hbarred
  | check i token isActive answers now =>
    simp only [advance]
    split_ifs with hidle hpasses
    · refine (hdecode token answers now hstart).update i fun n hn => ?_
      obtain rfl : token = n := by simpa using hn
      -- the check goes through, so the token is on no list
      obtain ⟨t, ht, hrefresh⟩ := made_of_isRefresh hpasses.2.1
      show familyOf c.made token ≠ f
      rw [familyOf_of_made ht]
      intro hfamily
      obtain ⟨-, hlast, hseen⟩ := halone
      obtain hlast | hover := hlast t ht
      · exact not_usable_of_barred hne ht
          (h.barred token t ht hrefresh hfamily (hstart.trans hlast)) hlast hseen hpasses.1
      · exact absurd (lt_of_usable ht hpasses.1) (not_lt.2 hover)
    · exact hdecode token answers now hstart
    · exact h
  | revoke i accepts now =>
    simp only [advance]
    split
    · rename_i token hi
      refine (hrevoke token accepts c.out now hstart).update i fun n hn => ?_
      obtain rfl : token = n := by simpa using hn
      exact h.idle i token (.inl hi)
    · exact h
  | issue i now now' =>
    simp only [advance]
    split
    · rename_i token hi
      have hlater : Ended jti f ⟨c.made ++ createTokenPair minutes days (familyOf c.made token) now
          now', c.revoked, c.phase, c.out, now'⟩ := h.later hinv (hstart.trans hspan)
        (hpair _ now now' (h.idle i token (.inr hi))) fun n t _ _ hbarred => hbarred
      exact hlater.update i fun n hn => by simp at hn
    · exact h
  | logout token accepts now => exact hrevoke token accepts _ now hstart
  | decode token answers now => exact hdecode token answers now hstart
  | restart now =>
    refine hrevoked _ c.out now hstart fun n t ht hlast hbarred => hbarred.restart hlast ?_
    exact hkept n (List.getElem?_eq_some_iff.1 ht).1

/-- At a logout with the one refresh token of a family that can be used, every refresh token of the
family is on the list. -/
theorem ended_logout (hinj : Function.Injective jti) (hne : ∀ n, jti n ≠ "") (hsingle : Single c)
    (hinv : Inv jti c) {n : ℕ} {t : Made} (ht : c.made[n]? = some t) (hrefresh : t.isRefresh = true)
    {accepts answers : Bool} {now : 𝕜} (hnow : c.clock ≤ now) (hlast : now ≤ t.exp - 1)
    (hseen : Seen jti c answers now n) (husable : Usable jti c answers now n)
    (hfree : ∀ i, c.phase i ≠ .checked n) :
    Ended jti t.family (advance jti minutes days c (.logout n accepts now)) := by
  have hholds := holds_of_usable hne hinv ht hrefresh hnow hlast hseen husable
  refine ⟨hsingle.older n t ht, fun m s hs hrefresh' hfamily hlast' => ?_, fun i m hi hfamily => ?_⟩
  · by_cases hm : m = n
    · subst hm
      obtain rfl : s = t := Option.some_injective _ (hs.symm.trans ht)
      exact barred_blacklistToken hne ht (hinv.clock.trans hnow) hlast accepts
    · -- another refresh token of the family is one that a request has revoked
      obtain ⟨i, hi⟩ : ∃ i, (c.phase i).Spent m := by
        by_contra hnone
        push Not at hnone
        exact hm (Sum.inl_injective (hsingle.one _ _ _ ⟨⟨s, hs, hrefresh', hfamily⟩, hnone⟩ hholds))
      obtain ⟨s', hs', hbarred⟩ := hinv.spent m (.inl ⟨i, hi⟩)
      obtain rfl : s' = s := Option.some_injective _ (hs'.symm.trans hs)
      exact (hbarred (hnow.trans hlast')).blacklistToken hinj hne hs (hinv.clock.trans hnow) hlast'
        accepts n
  · change familyOf c.made m = t.family at hfamily
    obtain hi | hi := hi
    · obtain ⟨s, hs, hrefresh'⟩ := hinv.held i m hi
      rw [familyOf_of_made hs] at hfamily
      have hm : Holds c t.family (.inl m) :=
        ⟨⟨s, hs, hrefresh', hfamily⟩, hsingle.unspent i m hi⟩
      obtain rfl : m = n := Sum.inl_injective (hsingle.one _ _ _ hm hholds)
      exact hfree i hi
    · have hi : Holds c t.family (.inr i) := ⟨m, hi, hfamily⟩
      cases hsingle.one _ _ _ hholds hi

/-- In every such run, once a refresh token that can be used is revoked at a logout, before its last
second and with no request about to exchange it, no refresh token of its family can be used any
more, up to the last second of each, where Redis answers for what it has. -/
theorem signed_out (hinj : Function.Injective jti) (hne : ∀ n, jti n ≠ "") {start : 𝕜}
    (hstart : 0 ≤ start) {es more : List (Event ι 𝕜)} {n : ℕ} {t : Made} {accepts answers : Bool}
    {now : 𝕜}
    (hes : Stepwise (advance jti minutes days) (Orderly jti) (.start start)
      (es ++ .logout n accepts now :: more))
    (ht : (run (advance jti minutes days) (.start start) es).made[n]? = some t)
    (hrefresh : t.isRefresh = true) (hlast : now ≤ t.exp - 1)
    (hseen : Seen jti (run (advance jti minutes days) (.start start) es) answers now n)
    (husable : Usable jti (run (advance jti minutes days) (.start start) es) answers now n)
    (hfree : ∀ i, (run (advance jti minutes days) (.start start) es).phase i ≠ .checked n)
    {m : ℕ} {s : Made} {answers' : Bool} {later : 𝕜}
    (hs : (run (advance jti minutes days) (.start start)
      (es ++ .logout n accepts now :: more)).made[m]? = some s)
    (hsibling : s.isRefresh = true ∧ s.family = t.family)
    (hlater : (run (advance jti minutes days) (.start start)
      (es ++ .logout n accepts now :: more)).clock ≤ later) (hlast' : later ≤ s.exp - 1)
    (hseen' : Seen jti (run (advance jti minutes days) (.start start)
      (es ++ .logout n accepts now :: more)) answers' later m) :
    ¬ Usable jti (run (advance jti minutes days) (.start start)
      (es ++ .logout n accepts now :: more)) answers' later m := by
  obtain ⟨hinv, hsingle⟩ := single_run hinj hne hstart (hes.of_prefix (List.prefix_append ..))
  have hrest := hes.after (List.prefix_refl (es ++ .logout n accepts now :: more))
  rw [run_append] at hs hlater hseen' ⊢
  obtain ⟨⟨horder, hkept, halone⟩, hmore⟩ := stepwise_cons.1 hrest
  have hended : Ended jti t.family (advance jti minutes days
      (run (advance jti minutes days) (.start start) es) (.logout n accepts now)) :=
    ended_logout hinj hne hsingle hinv ht hrefresh horder.1 hlast hseen husable hfree
  have hstep : ∀ (c : Conf ι 𝕜) e, Inv jti c ∧ Ended jti t.family c → Orderly jti c e →
      Inv jti (advance jti minutes days c e) ∧
        Ended jti t.family (advance jti minutes days c e) :=
    fun c e ⟨hinv, hended⟩ he =>
      ⟨inv_advance hinj hne hinv he.1 he.2.1, ended_advance hinj hne hended hinv he⟩
  obtain ⟨-, hfinal⟩ := (throughout_of_stepwise hstep
    ⟨inv_advance hinj hne hinv horder hkept, hended⟩ hmore).final
  exact not_usable_of_barred hne hs
    (hfinal.barred m s hs hsibling.1 hsibling.2 (hlater.trans hlast')) hlast' hseen'

end Families

/-! ## Two requests -/

def tokenId (n : ℕ) : String := String.ofList (natText n)

theorem tokenId_injective : Function.Injective tokenId := by
  intro m n h
  have hparse := congrArg parseDigits (String.ofList_injective h)
  rw [parseDigits_natText, parseDigits_natText] at hparse
  exact Option.some_injective _ hparse

theorem tokenId_ne (n : ℕ) : tokenId n ≠ "" := fun h =>
  natText_ne_nil n (String.ofList_injective (h.trans String.ofList_nil.symm))

instance {ι : Type} (c : Conf ι ℚ) (e : Event ι ℚ) : Decidable (InOrder c e) :=
  inferInstanceAs (Decidable (_ ∧ _))

instance {ι : Type} (jti : ℕ → String) (c : Conf ι ℚ) :
    (e : Event ι ℚ) → Decidable (Kept jti c e)
  | .restart .. => inferInstanceAs (Decidable (∀ _ < _, _))
  | .signIn .. | .check .. | .revoke .. | .issue .. | .logout .. | .decode .. =>
    inferInstanceAs (Decidable True)

instance {ι : Type} [Fintype ι] (jti : ℕ → String) (c : Conf ι ℚ) :
    (e : Event ι ℚ) → Decidable (Alone jti c e)
  | .check .. => inferInstanceAs (Decidable (_ ∧ _ ∧ _))
  | .signIn .. | .revoke .. | .issue .. | .logout .. | .decode .. | .restart .. =>
    inferInstanceAs (Decidable True)

instance {ι : Type} [Fintype ι] (jti : ℕ → String) (c : Conf ι ℚ) (e : Event ι ℚ) :
    Decidable (Orderly jti c e) := inferInstanceAs (Decidable (_ ∧ _ ∧ _))

/-- A sign-in, a refresh a minute later, which Redis takes, and a restart. -/
def rotated : List (Event Bool ℚ) :=
  [.signIn 0 0, .check false 1 true true 60, .revoke false true 60, .issue false 60 60,
    .restart 90]

theorem passes_rotated :
    Passes tokenId (run (advance tokenId 30 7) (.start 0) rotated) 3 true false 120 := by
  decide +kernel

theorem check_unspent_rotated :
    ¬ (run (advance tokenId 30 7) (.start 0) rotated).Spent 3 :=
  check_unspent tokenId_injective tokenId_ne le_rfl (by decide +kernel)
    (t := ⟨0, true, 604860⟩) (by decide +kernel) (by decide +kernel : _ ≤ (120 : ℚ))
    (by decide +kernel) (by decide +kernel) passes_rotated

theorem one_usable_rotated :
    ¬ Usable tokenId (run (advance tokenId 30 7) (.start 0) rotated) true 120 1 :=
  one_usable tokenId_injective tokenId_ne le_rfl (by decide +kernel) (m := 3)
    (s := ⟨0, true, 604860⟩) (t := ⟨0, true, 604800⟩) (by decide +kernel) (by decide +kernel)
    ⟨rfl, rfl⟩ rfl (by decide) (by decide +kernel) (by decide +kernel)
    (by decide +kernel : Seen _ _ false _ _ ∧ _) (by decide +kernel)

/-- Two requests that exchange one token at once make two refresh tokens that can be used. -/
example :
    let c : Conf Bool ℚ := run (advance tokenId 30 7) (.start 0)
      [.signIn 0 0, .check false 1 true true 60, .check true 1 true true 60, .revoke false true 60,
        .revoke true true 60, .issue false 60 60, .issue true 60 60]
    Usable tokenId c true 120 3 ∧ Usable tokenId c true 120 5 ∧
      familyOf c.made 3 = familyOf c.made 5 := by
  decide +kernel

/-- A token that Redis lists can be used again where Redis does not answer, beside the one that it
was exchanged for. -/
example :
    let c : Conf Bool ℚ := run (advance tokenId 30 7) (.start 0) rotated
    Usable tokenId c false 120 1 ∧ Usable tokenId c false 120 3 := by
  decide +kernel

theorem signed_out_rotated :
    ¬ Usable tokenId (run (advance tokenId 30 7) (.start 0)
      (rotated ++ .logout 3 true 120 :: [.check true 3 true true 130])) true 180 3 :=
  signed_out tokenId_injective tokenId_ne le_rfl (by decide +kernel) (t := ⟨0, true, 604860⟩)
    (by decide +kernel) rfl (by decide +kernel) (.inl rfl) (by decide +kernel) (by decide +kernel)
    (s := ⟨0, true, 604860⟩) (by decide +kernel)
    ⟨rfl, rfl⟩ (by decide +kernel) (by decide +kernel) (by decide +kernel)

end Rotation

end SweetCrust
