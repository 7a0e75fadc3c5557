import SweetCrust.Lib.Expiring
import SweetCrust.Lib.Runs

/-!
# The revocation of tokens

`blacklist.py` and `decode_token` of `jwt.py`.  A token is revoked for the whole seconds that
are left until its `exp`, in Redis, or in the process where Redis refuses the write.  A look-up
that Redis does not answer finds nothing there.  The library that decodes tokens compares `exp`
with the whole seconds of the clock, and accepts a token until the second after its `exp` begins.
So a revocation ends at `exp` or before, and the token is accepted again from then on.

Time is any ordered field with a floor; `signed` says what a correctly signed token carries.

* `blacklistToken`, `decodeToken` — the functions.
* `revoked_iff` — a token that is revoked stays revoked exactly if it was not accepted any
  more, revoked or not, whether Redis answers the last look-up or not.
-/

namespace SweetCrust

open Runs

namespace Tokens

/-- The payload of a token, less what is not looked at. -/
structure Claims where
  jti : Option String
  exp : Option ℤ
  deriving DecidableEq, Inhabited

section Blacklist

variable {𝕜 Token : Type} [Field 𝕜] [LinearOrder 𝕜] [FloorRing 𝕜]

/-- Redis, and the `_memory` of a process. -/
structure Revoked (𝕜 : Type) where
  redis : Expiring String String 𝕜
  memory : Expiring String Unit 𝕜

def Revoked.start : Revoked 𝕜 := ⟨.empty, .empty⟩

/-- `f"jwt:bl:{jti}"`. -/
def key (jti : String) : String := "jwt:bl:" ++ jti

/-- `int(x)`, which truncates. -/
def int (x : 𝕜) : ℤ := if 0 ≤ x then ⌊x⌋ else ⌈x⌉

/-- `_purge_memory`. -/
def purged (now : 𝕜) (memory : Expiring String Unit 𝕜) : Expiring String Unit 𝕜 :=
  fun jti => (memory jti).filter fun e => now < e.2

/-- `blacklist_jti`, where Redis takes the write or refuses it. -/
def blacklistJti (accepts : Bool) (now : 𝕜) (jti : String) (ttl : ℤ) (r : Revoked 𝕜) :
    Revoked 𝕜 :=
  if jti = "" ∨ ttl ≤ 0 then r
  else if accepts then { r with redis := r.redis.set (key jti) "1" (now + ttl) }
  else { r with memory := (purged now r.memory).set jti () (now + ttl) }

/-- `redis_get`: without Redis, and where it fails, there is nothing. -/
def redisGet (answers : Bool) (now : 𝕜) (k : String) (r : Revoked 𝕜) : Option String :=
  if answers then r.redis.get? now k else none

/-- `is_blacklisted`, and the store, from which an entry that has expired is dropped. -/
def isBlacklisted (answers : Bool) (now : 𝕜) (jti : Option String) (r : Revoked 𝕜) :
    Bool × Revoked 𝕜 :=
  match jti.filter fun j => j ≠ "" with
  | none => (false, r)
  | some j =>
    if redisGet answers now (key j) r = some "1" then (true, r)
    else
      match r.memory j with
      | none => (false, r)
      | some (_, exp) =>
        if exp ≤ now then (false, { r with memory := r.memory.delete j }) else (true, r)

/-- `blacklist_token`: `not jti or not exp` and a token that is not signed do nothing. -/
def blacklistToken (signed : Token → Option Claims) (accepts : Bool) (now : 𝕜) (token : Token)
    (r : Revoked 𝕜) : Revoked 𝕜 :=
  match signed token with
  | none => r
  | some payload =>
    match payload.jti.filter fun j => j ≠ "", payload.exp.filter fun e => e ≠ 0 with
    | some jti, some exp => blacklistJti accepts now jti (int ((exp : 𝕜) - now)) r
    | _, _ => r

/-- The library accepts the token: it is signed, and `exp` is not before the second of the
clock. -/
def accepted (signed : Token → Option Claims) (now : 𝕜) (token : Token) : Option Claims :=
  (signed token).filter fun payload => payload.exp.all fun exp => ⌊now⌋ ≤ exp

/-- `decode_token`. -/
def decodeToken (signed : Token → Option Claims) (answers : Bool) (now : 𝕜) (token : Token)
    (r : Revoked 𝕜) : Option Claims × Revoked 𝕜 :=
  match accepted signed now token with
  | none => (none, r)
  | some payload =>
    let (revoked, r') := isBlacklisted answers now payload.jti r
    (if revoked then none else some payload, r')

/-- A call, at a time.  The revocations of other processes are those that Redis takes. -/
inductive Call (𝕜 Token : Type)
  | blacklist (accepts : Bool) (now : 𝕜) (token : Token)
  | decode (answers : Bool) (now : 𝕜) (token : Token)

def Call.time : Call 𝕜 Token → 𝕜
  | .blacklist _ now _ | .decode _ now _ => now

def step (signed : Token → Option Claims) (r : Revoked 𝕜) : Call 𝕜 Token → Revoked 𝕜
  | .blacklist accepts now token => blacklistToken signed accepts now token r
  | .decode answers now token => (decodeToken signed answers now token r).2

/-- The calls are made one after the other, between two times. -/
def Between (t t' : 𝕜) (cs : List (Call 𝕜 Token)) : Prop :=
  List.IsChain (· ≤ ·) (t :: (cs.map Call.time ++ [t']))

/-- From the time `t` on the token is never decoded, by a look-up that Redis answers or by one
that it does not. -/
def StaysRevoked (signed : Token → Option Claims) (answers : Bool) (t : 𝕜) (token : Token)
    (r : Revoked 𝕜) : Prop :=
  ∀ t' cs, Between t t' cs →
    (decodeToken signed answers t' token (run (step signed) r cs)).1 = none

/-- Every token has an id of its own. -/
def UniqueIds (signed : Token → Option Claims) : Prop :=
  ∀ a b c d jti, signed a = some c → signed b = some d → c.jti = some jti → d.jti = some jti →
    c.exp = d.exp

end Blacklist

/-! ## No entry outlives its token -/

section Ends

variable {𝕜 Token : Type} [Field 𝕜] [LinearOrder 𝕜] {signed : Token → Option Claims} {r : Revoked 𝕜} {t : 𝕜}

/-- An entry for `jti` may end at `d`: a token with that id has not expired by then. -/
def EndsBy (signed : Token → Option Claims) (jti : String) (d : 𝕜) : Prop :=
  ∃ token payload exp, signed token = some payload ∧ payload.jti = some jti ∧
    payload.exp = some exp ∧ d ≤ exp

/-- No entry outlives the `exp` of its token. -/
structure Bounded (signed : Token → Option Claims) (r : Revoked 𝕜) : Prop where
  redis : ∀ jti v d, r.redis (key jti) = some (v, d) → EndsBy signed jti d
  memory : ∀ jti v d, r.memory jti = some (v, d) → EndsBy signed jti d

theorem key_injective : Function.Injective key := fun _ _ h => (String.append_right_inj _).1 h

theorem bounded_start : Bounded signed (Revoked.start : Revoked 𝕜) where
  redis jti v d h := by cases h
  memory jti v d h := by cases h

theorem bounded_blacklistJti (h : Bounded signed r) {accepts : Bool} {jti : String} {ttl : ℤ}
    (hends : 0 < ttl → EndsBy signed jti (t + ttl)) :
    Bounded signed (blacklistJti accepts t jti ttl r) := by
  unfold blacklistJti
  split_ifs with hnone haccepts
  · exact h
  · refine ⟨fun j v d hj => ?_, h.memory⟩
    by_cases hjti : j = jti
    · subst hjti
      simp only [Expiring.set_self, Option.some.injEq, Prod.mk.injEq] at hj
      rw [← hj.2]
      exact hends (by omega)
    · have hkey : key j ≠ key jti := fun heq => hjti (key_injective heq)
      simp only [Expiring.set_of_ne _ _ _ hkey] at hj
      exact h.redis j v d hj
  · refine ⟨h.redis, fun j v d hj => ?_⟩
    by_cases hjti : j = jti
    · subst hjti
      simp only [Expiring.set_self, Option.some.injEq, Prod.mk.injEq] at hj
      rw [← hj.2]
      exact hends (by omega)
    · simp only [Expiring.set_of_ne _ _ _ hjti] at hj
      exact h.memory j v d (Option.filter_eq_some_iff.1 hj).1

theorem bounded_isBlacklisted (h : Bounded signed r) (answers : Bool) (t : 𝕜)
    (jti : Option String) : Bounded signed (isBlacklisted answers t jti r).2 := by
  unfold isBlacklisted
  split
  · exact h
  · rename_i j _
    split_ifs with hredis
    · exact h
    · split
      · exact h
      · split_ifs with hexp
        · refine ⟨h.redis, fun i v d hi => ?_⟩
          by_cases hij : i = j
          · subst hij
            simp at hi
          · simp only [Expiring.delete_of_ne _ hij] at hi
            exact h.memory i v d hi
        · exact h

/-- A token that has reached its `exp` is not on the list any more. -/
theorem not_blacklisted (hunique : UniqueIds signed) (h : Bounded signed r) {token : Token}
    {payload : Claims} (hsigned : signed token = some payload)
    (hexp : ∀ exp ∈ payload.exp, (exp : 𝕜) ≤ t) (answers : Bool) :
    (isBlacklisted answers t payload.jti r).1 = false := by
  have hends : ∀ j ∈ payload.jti, ∀ d : 𝕜, EndsBy signed j d → d ≤ t := by
    rintro j hj d ⟨token', payload', exp, hsigned', hjti, hexp', hd⟩
    have hsame : payload.exp = payload'.exp := hunique _ _ _ _ j hsigned hsigned' hj hjti
    exact hd.trans (hexp exp (by rw [hsame]; exact hexp'))
  unfold isBlacklisted
  split
  · rfl
  · rename_i j hj
    have hjti : j ∈ payload.jti := (Option.filter_eq_some_iff.1 hj).1
    have hredis : redisGet answers t (key j) r = none := by
      rw [redisGet, Expiring.get?_eq_none fun v d hd => hends j hjti d (h.redis j v d hd), ite_self]
    rw [hredis, if_neg (by simp)]
    split
    · rfl
    · rename_i v exp hmem
      rw [if_pos (hends j hjti exp (h.memory j v exp hmem))]

end Ends

section Steps

variable {𝕜 Token : Type} [Field 𝕜] [LinearOrder 𝕜] [IsStrictOrderedRing 𝕜] [FloorRing 𝕜]
  {signed : Token → Option Claims} {r : Revoked 𝕜}

/-- The whole seconds that are left end by then. -/
theorem add_int_le {t : 𝕜} {exp : ℤ} (h : 0 < int ((exp : 𝕜) - t)) : t + int ((exp : 𝕜) - t) ≤ exp := by
  unfold int at h ⊢
  split_ifs at h ⊢ with hpos
  · have hfloor := Int.floor_le ((exp : 𝕜) - t)
    linarith
  · have hneg : ⌈(exp : 𝕜) - t⌉ ≤ 0 := Int.ceil_le.2 (by push_cast; linarith)
    omega

theorem bounded_blacklistToken (h : Bounded signed r) (accepts : Bool) (t : 𝕜) (token : Token) :
    Bounded signed (blacklistToken signed accepts t token r) := by
  unfold blacklistToken
  cases hsigned : signed token with
  | none => exact h
  | some payload =>
    simp only
    split
    · rename_i jti exp hjti hexp
      refine bounded_blacklistJti h fun hpos => ?_
      exact ⟨token, payload, exp, hsigned, (Option.filter_eq_some_iff.1 hjti).1,
        (Option.filter_eq_some_iff.1 hexp).1, add_int_le hpos⟩
    · exact h

theorem bounded_step (h : Bounded signed r) (c : Call 𝕜 Token) :
    Bounded signed (step signed r c) := by
  cases c with
  | blacklist accepts now token => exact bounded_blacklistToken h accepts now token
  | decode answers now token =>
    simp only [step, decodeToken]
    split
    · exact h
    · exact bounded_isBlacklisted h answers now _

end Steps

/-! ## The property -/

section Accepting

variable {𝕜 Token : Type} [Field 𝕜] [LinearOrder 𝕜] [FloorRing 𝕜]
  {signed : Token → Option Claims} {t t' : 𝕜} {token : Token}

/-- A token that is not accepted is not accepted later. -/
theorem accepted_anti (hle : t ≤ t') (h : accepted signed t token = none) :
    accepted signed t' token = none := by
  unfold accepted at h ⊢
  rw [Option.filter_eq_none_iff] at h ⊢
  intro payload hpayload haccepted
  refine h payload hpayload ?_
  cases hexp : payload.exp with
  | none => rfl
  | some exp =>
    rw [hexp] at haccepted
    have hlater : ⌊t'⌋ ≤ exp := by simpa using haccepted
    simpa using (Int.floor_mono hle).trans hlater

theorem decodeToken_of_not_accepted (h : accepted signed t token = none) (answers : Bool)
    (r : Revoked 𝕜) : (decodeToken signed answers t token r).1 = none := by
  unfold decodeToken
  rw [h]

omit [Field 𝕜] [FloorRing 𝕜] in
theorem Between.le {cs : List (Call 𝕜 Token)} (h : Between t t' cs) : t ≤ t' := by
  unfold Between at h
  rw [List.isChain_iff_pairwise] at h
  exact (List.pairwise_cons.1 h).1 t' (by simp)

end Accepting

section Results

variable {𝕜 Token : Type} [Field 𝕜] [LinearOrder 𝕜] [IsStrictOrderedRing 𝕜] [FloorRing 𝕜]
  {signed : Token → Option Claims}

/-- A token that is accepted now is accepted when it reaches its `exp`. -/
theorem accepted_at_exp {t : 𝕜} {token : Token} {payload : Claims}
    (h : accepted signed t token = some payload) :
    ∃ t', t ≤ t' ∧ accepted signed t' token = some payload ∧
      ∀ exp ∈ payload.exp, (exp : 𝕜) ≤ t' := by
  obtain ⟨hsigned, hexp⟩ := Option.filter_eq_some_iff.1 h
  cases hpayload : payload.exp with
  | none => exact ⟨t, le_refl t, h, by simp⟩
  | some exp =>
    rw [hpayload] at hexp
    have hfloor : ⌊t⌋ ≤ exp := by simpa using hexp
    refine ⟨max t exp, le_max_left _ _, Option.filter_eq_some_iff.2 ⟨hsigned, ?_⟩, ?_⟩
    · have hlater : ⌊max t (exp : 𝕜)⌋ ≤ exp := by
        rcases max_choice t (exp : 𝕜) with hmax | hmax <;> rw [hmax]
        · exact hfloor
        · exact (Int.floor_intCast exp).le
      rw [hpayload]
      simpa using hlater
    · rintro e he
      cases he
      exact le_max_right _ _

/-- A token that is accepted when it is revoked is decoded again later. -/
theorem not_staysRevoked (hunique : UniqueIds signed) {r : Revoked 𝕜} (h : Bounded signed r)
    (accepts answers : Bool) {t : 𝕜} {token : Token} {payload : Claims}
    (hpayload : accepted signed t token = some payload) :
    ¬ StaysRevoked signed answers t token (blacklistToken signed accepts t token r) := by
  intro hstays
  obtain ⟨t', hle, haccepted, hexp⟩ := accepted_at_exp hpayload
  have hlisted := not_blacklisted hunique (bounded_blacklistToken h accepts t token)
    (Option.filter_eq_some_iff.1 haccepted).1 hexp answers
  have hdecoded := hstays t' [] (by simp [Between, hle])
  unfold decodeToken at hdecoded
  rw [run_nil, haccepted] at hdecoded
  simp [hlisted] at hdecoded

theorem bounded_run (before : List (Call 𝕜 Token)) :
    Bounded signed (run (step signed) .start before) :=
  run_induction (I := Bounded signed) (fun _ c hr => bounded_step hr c) bounded_start before

/-- After any calls, a token that is revoked stays revoked exactly if it was not accepted any
more anyway. -/
theorem revoked_iff (hunique : UniqueIds signed) (before : List (Call 𝕜 Token))
    (accepts answers : Bool) (t : 𝕜) (token : Token) :
    StaysRevoked signed answers t token
        (blacklistToken signed accepts t token (run (step signed) .start before)) ↔
      accepted signed t token = none := by
  constructor
  · intro hstays
    by_contra hne
    obtain ⟨payload, hpayload⟩ := Option.ne_none_iff_exists'.1 hne
    exact not_staysRevoked hunique (bounded_run before) accepts answers hpayload hstays
  · intro hgone t' cs hbetween
    exact decodeToken_of_not_accepted (accepted_anti hbetween.le hgone) answers _

end Results

/-! ## One token -/

/-- The only token that is signed expires at 1800. -/
def oneToken (token : String) : Option Claims :=
  if token = "a" then some ⟨some "id", some 1800⟩ else none

theorem oneToken_unique : UniqueIds oneToken := by
  intro a b c d jti ha hb _ _
  unfold oneToken at ha hb
  split_ifs at ha hb
  cases ha
  cases hb
  rfl

theorem revoked_after_exp : StaysRevoked oneToken true (1801 : ℝ) "a"
    (blacklistToken oneToken true 1801 "a" (run (step oneToken) .start [])) := by
  refine (revoked_iff oneToken_unique [] true true 1801 "a").2 ?_
  simp [accepted, oneToken]

/-- A token that is revoked half an hour before its `exp` is decoded again, whether Redis took
the write or not, and where it answers every look-up. -/
theorem accepted_again :
    ¬ StaysRevoked oneToken true (0 : ℝ) "a" (blacklistToken oneToken true 0 "a" .start) ∧
      ¬ StaysRevoked oneToken true (0 : ℝ) "a" (blacklistToken oneToken false 0 "a" .start) := by
  have haccepted : accepted oneToken (0 : ℝ) "a" = some ⟨some "id", some 1800⟩ := by
    simp [accepted, oneToken]
  exact ⟨not_staysRevoked oneToken_unique bounded_start true true haccepted,
    not_staysRevoked oneToken_unique bounded_start false true haccepted⟩

end Tokens

end SweetCrust
