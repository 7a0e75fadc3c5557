import SweetCrust.Auth.Revocation
import SweetCrust.Lib.Base64
import SweetCrust.Lib.Text
import SweetCrust.Realtime.Presence

/-!
# Tokens as texts

`jwt.py` writes a token as three parts between dots, and `server.ts` reads it on its own: it
splits the text, computes the signature over the first two parts again, and decodes the second
one.  The JSON texts and HMAC-SHA256 are taken as they come, and so is the library that the
services decode tokens with.

* `Jws.encode`, `createTokenPair` — what the services write.
* `userFromToken` — the check of the realtime server.
* `requireAccessToken` — the check of the services.
* `userFromToken_pair` — of the two tokens of a user the server takes one, until its `exp`.
* `refused_after` — a token that Redis lists as revoked is refused until its last second, where
  Redis answers the server.
* `agree_iff` — when the server and the services say the same of a token, whether Redis answers
  them or not.
-/

namespace SweetCrust

open Base64 Realtime Runs Text

namespace Tokens

/-- The payload of a token. -/
structure Payload where
  /-- The number that `sub` is the text of. -/
  sub : Option ℤ
  type : Option String
  exp : Option ℤ
  jti : Option String
  role : Option String
  deriving DecidableEq

def Payload.claims (p : Payload) : Claims := ⟨p.jti, p.exp⟩

/-- The header of the tokens, their JSON texts, and HMAC-SHA256 under a secret. -/
structure Jws where
  header : List Byte
  dumps : Payload → List Byte
  parse : List Byte → Option Payload
  mac : String → List Char → List Byte

namespace Jws

/-- The parts of a token that are signed. -/
def data (jws : Jws) (p : Payload) : List Char :=
  Base64.encode jws.header ++ '.' :: Base64.encode (jws.dumps p)

def signature (jws : Jws) (secret : String) (data : List Char) : List Char :=
  Base64.encode (jws.mac secret data)

/-- `jwt.encode`. -/
def encode (jws : Jws) (secret : String) (p : Payload) : List Char :=
  jws.data p ++ '.' :: jws.signature secret (jws.data p)

end Jws

section Issue

variable {𝕜 : Type} [Field 𝕜] [LinearOrder 𝕜] [FloorRing 𝕜]

/-- The payload of `create_access_token`, for `extra` with a role. -/
def accessPayload (expireMinutes : ℕ) (now : 𝕜) (jti : String) (id : ℤ) (role : String) :
    Payload where
  sub := some id
  type := some "access"
  exp := some ⌊now + (expireMinutes * 60 : ℕ)⌋
  jti := some jti
  role := some role

/-- The payload of `create_refresh_token`. -/
def refreshPayload (expireDays : ℕ) (now : 𝕜) (jti : String) (id : ℤ) : Payload where
  sub := some id
  type := some "refresh"
  exp := some ⌊now + (expireDays * 86400 : ℕ)⌋
  jti := some jti
  role := none

structure Settings where
  jwtSecretKey : String
  accessTokenExpireMinutes : ℕ
  refreshTokenExpireDays : ℕ

/-- `create_token_pair`, less what does not vary.  The clock is read for each token. -/
def createTokenPair (jws : Jws) (settings : Settings) (now now' : 𝕜) (jti jti' : String) (id : ℤ)
    (role : String) : List Char × List Char :=
  (jws.encode settings.jwtSecretKey
      (accessPayload settings.accessTokenExpireMinutes now jti id role),
    jws.encode settings.jwtSecretKey
      (refreshPayload settings.refreshTokenExpireDays now' jti' id))

end Issue

/-! ## The realtime server -/

/-- `b64urlJson`. -/
def b64urlJson (jws : Jws) (part : List Char) : Option Payload :=
  let pad := List.replicate ((4 - part.length % 4) % 4) '='
  jws.parse (decode (replaceChar '_' '/' (replaceChar '-' '+' part) ++ pad))

section Server

variable {𝕜 : Type} [LinearOrder 𝕜]

/-- `isJtiBlacklisted`.  There is no store without `REDIS_URL`, or where Redis fails. -/
def isJtiBlacklisted (redisPub : Option (Expiring String String 𝕜)) (now : 𝕜)
    (jti : Option String) : Bool :=
  match truthy jti, redisPub with
  | some j, some redis => redis.get? now (key j) = some "1"
  | _, _ => false

/-- The checks of `userFromToken` on a payload. -/
def userFromPayload [IntCast 𝕜] (redisPub : Option (Expiring String String 𝕜)) (now : 𝕜)
    (payload : Payload) : Option AuthUser :=
  match payload.sub with
  | none => none
  | some sub =>
    if payload.type ≠ some "access" then none
    else if payload.exp.any fun exp => (exp : 𝕜) ≤ now then none
    else if isJtiBlacklisted redisPub now payload.jti then none
    else some ⟨sub, payload.role.getD ""⟩

/-- `userFromToken`. -/
def userFromToken [IntCast 𝕜] (jws : Jws) (secret : String)
    (redisPub : Option (Expiring String String 𝕜)) (now : 𝕜) (token : Option (List Char)) :
    Option AuthUser :=
  match token with
  | none => none
  | some token =>
    if token = [] ∨ secret = "" then none
    else
      match token.splitOn '.' with
      | [h, p, s] =>
        if jws.signature secret (h ++ '.' :: p) ≠ s then none
        else (b64urlJson jws p).bind (userFromPayload redisPub now)
      | _ => none

end Server

/-! ## Reading what was written -/

section Reading

variable {jws : Jws} {p : Payload}

theorem b64urlJson_encode (l : List Byte) : b64urlJson jws (Base64.encode l) = jws.parse l := by
  set pad := List.replicate ((4 - (Base64.encode l).length % 4) % 4) '=' with hpad
  set f : Char → Char := fun c =>
    if (if c = '-' then '+' else c) = '_' then '/' else if c = '-' then '+' else c with hf
  have hmap : replaceChar '_' '/' (replaceChar '-' '+' (Base64.encode l)) ++ pad =
      (Base64.encode l ++ pad).map f := by
    have hpadding : pad.map f = pad := by
      rw [hpad, List.map_replicate]
      rfl
    rw [List.map_append, hpadding, replaceChar, replaceChar, List.map_map]
    rfl
  rw [b64urlJson, hmap, decode_map, decode_encode]
  · intro c
    simp only [hf]
    split_ifs <;> simp_all
  · intro c
    simp only [hf]
    split_ifs with hminus hunder hunder
    · simp at hunder
    · rw [hminus]
      decide
    · rw [hunder]
      decide
    · rfl

theorem splitOn_encode (secret : String) :
    (jws.encode secret p).splitOn '.' = [Base64.encode jws.header, Base64.encode (jws.dumps p),
      jws.signature secret (jws.data p)] := by
  have htext : jws.encode secret p = ['.'].intercalate [Base64.encode jws.header,
      Base64.encode (jws.dumps p), jws.signature secret (jws.data p)] := by
    simp [Jws.encode, Jws.data, List.intercalate, List.intersperse]
  rw [htext, List.splitOn_intercalate]
  · intro l hl
    simp only [List.mem_cons, List.not_mem_nil, or_false] at hl
    rcases hl with rfl | rfl | rfl
    · exact (notMem_encode _).2
    · exact (notMem_encode _).2
    · exact (notMem_encode _).2
  · simp

variable {𝕜 : Type} [LinearOrder 𝕜] [IntCast 𝕜] {redisPub : Option (Expiring String String 𝕜)}
  {now : 𝕜} {secret : String}

/-- The server reads the payload that was written. -/
theorem userFromToken_encode (hsecret : secret ≠ "") (hparse : jws.parse (jws.dumps p) = some p) :
    userFromToken jws secret redisPub now (some (jws.encode secret p)) =
      userFromPayload redisPub now p := by
  have hne : jws.encode secret p ≠ [] := by simp [Jws.encode]
  have hsign : jws.signature secret (Base64.encode jws.header ++ '.' :: Base64.encode (jws.dumps p))
      = jws.signature secret (jws.data p) := rfl
  rw [userFromToken, if_neg (by simp [hne, hsecret]), splitOn_encode]
  simp only [hsign, ne_eq, not_true_eq_false, if_false]
  rw [b64urlJson_encode, hparse, Option.bind_some]

end Reading

/-! ## Which texts the server accepts -/

section Accepting

variable {𝕜 : Type} [Field 𝕜] [LinearOrder 𝕜] [FloorRing 𝕜] {jws : Jws} {secret : String}
  {redisPub : Option (Expiring String String 𝕜)} {now : 𝕜}

omit [FloorRing 𝕜] in
/-- A text that is accepted carries the signature of what is before its last dot. -/
theorem signed_of_userFromToken {token : List Char} {u : AuthUser}
    (h : userFromToken jws secret redisPub now (some token) = some u) :
    ∃ d, token = d ++ '.' :: jws.signature secret d := by
  unfold userFromToken at h
  simp only at h
  split_ifs at h with hempty
  split at h
  · rename_i hd p s hsplit
    split_ifs at h with hsign
    refine ⟨hd ++ '.' :: p, ?_⟩
    have htext : List.intercalate ['.'] (token.splitOn '.') = token := List.intercalate_splitOn '.'
    rw [hsplit] at htext
    rw [not_not.1 hsign, ← htext]
    simp [List.intercalate, List.intersperse]
  · cases h

/-- A signed text was signed in one way. -/
theorem data_eq {d d' : List Char}
    (h : d ++ '.' :: jws.signature secret d = d' ++ '.' :: jws.signature secret d') : d = d' := by
  have hrev := congrArg List.reverse h
  simp only [List.reverse_append, List.reverse_cons, List.append_assoc, List.singleton_append]
    at hrev
  have hnot : ∀ d, '.' ∉ (jws.signature secret d).reverse := fun d hmem =>
    (notMem_encode (jws.mac secret d)).2 (List.mem_reverse.1 hmem)
  have hparts := congrArg (splitAt? '.') hrev
  rw [splitAt?_append (hnot d), splitAt?_append (hnot d')] at hparts
  simp only [Option.some.injEq, Prod.mk.injEq] at hparts
  exact List.reverse_injective hparts.2

theorem userFromPayload_access {m : ℕ} {t : 𝕜} {jti : String} {id : ℤ} {role : String}
    {u : AuthUser} :
    userFromPayload redisPub now (accessPayload m t jti id role) = some u ↔
      u = ⟨id, role⟩ ∧ now < (⌊t + (m * 60 : ℕ)⌋ : ℤ) ∧
        isJtiBlacklisted redisPub now (some jti) = false := by
  set exp : ℤ := ⌊t + (m * 60 : ℕ)⌋ with hexp
  have hpayload : userFromPayload redisPub now (accessPayload m t jti id role) =
      if (exp : 𝕜) ≤ now then none
      else if isJtiBlacklisted redisPub now (some jti) then none else some ⟨id, role⟩ := by
    simp [userFromPayload, accessPayload, hexp]
  rw [hpayload]
  split_ifs with hle hlisted
  · simp [not_lt.2 hle]
  · simp [hlisted]
  · simp only [Option.some.injEq, not_le.1 hle, hlisted, and_true]
    exact eq_comm

theorem userFromPayload_refresh (d : ℕ) (t : 𝕜) (jti : String) (id : ℤ) :
    userFromPayload redisPub now (refreshPayload d t jti id) = none := by
  simp [userFromPayload, refreshPayload]

/-- A call of `create_token_pair`: the times its two tokens are made at, their ids, the user. -/
structure SignIn (𝕜 : Type) where
  now : 𝕜
  now' : 𝕜
  jti : String
  jti' : String
  id : ℤ
  role : String

def SignIn.access (settings : Settings) (s : SignIn 𝕜) : Payload :=
  accessPayload settings.accessTokenExpireMinutes s.now s.jti s.id s.role

def SignIn.refresh (settings : Settings) (s : SignIn 𝕜) : Payload :=
  refreshPayload settings.refreshTokenExpireDays s.now' s.jti' s.id

def SignIn.tokens (jws : Jws) (settings : Settings) (s : SignIn 𝕜) : List Char × List Char :=
  createTokenPair jws settings s.now s.now' s.jti s.jti' s.id s.role

theorem SignIn.tokens_fst (settings : Settings) (s : SignIn 𝕜) :
    (s.tokens jws settings).1 = jws.encode settings.jwtSecretKey (s.access settings) := rfl

theorem SignIn.tokens_snd (settings : Settings) (s : SignIn 𝕜) :
    (s.tokens jws settings).2 = jws.encode settings.jwtSecretKey (s.refresh settings) := rfl

/-- The JSON texts of the two payloads are read back. -/
def SignIn.Readable (jws : Jws) (settings : Settings) (s : SignIn 𝕜) : Prop :=
  jws.parse (jws.dumps (s.access settings)) = some (s.access settings) ∧
    jws.parse (jws.dumps (s.refresh settings)) = some (s.refresh settings)

/-- If only the services can sign, the server accepts exactly the access tokens that were made,
each for its own user and role, until its `exp`, and unless Redis lists it. -/
theorem userFromToken_iff {settings : Settings} (hsecret : settings.jwtSecretKey ≠ "")
    {signIns : List (SignIn 𝕜)} (hread : ∀ s ∈ signIns, s.Readable jws settings)
    {token : List Char}
    (hforge : ∀ d, token = d ++ '.' :: jws.signature settings.jwtSecretKey d →
      ∃ s ∈ signIns, d = jws.data (s.access settings) ∨ d = jws.data (s.refresh settings))
    (u : AuthUser) :
    userFromToken jws settings.jwtSecretKey redisPub now (some token) = some u ↔
      ∃ s ∈ signIns, token = (s.tokens jws settings).1 ∧ u = ⟨s.id, s.role⟩ ∧
        now < (⌊s.now + (settings.accessTokenExpireMinutes * 60 : ℕ)⌋ : ℤ) ∧
        isJtiBlacklisted redisPub now (some s.jti) = false := by
  constructor
  · intro h
    obtain ⟨d, htoken⟩ := signed_of_userFromToken h
    obtain ⟨s, hs, hd | hd⟩ := hforge d htoken
    · have htext : token = (s.tokens jws settings).1 := by rw [htoken, hd]; rfl
      rw [htext, SignIn.tokens_fst, userFromToken_encode hsecret (hread s hs).1] at h
      exact ⟨s, hs, htext, userFromPayload_access.1 h⟩
    · have htext : token = (s.tokens jws settings).2 := by rw [htoken, hd]; rfl
      rw [htext, SignIn.tokens_snd, userFromToken_encode hsecret (hread s hs).2, SignIn.refresh,
        userFromPayload_refresh] at h
      cases h
  · rintro ⟨s, hs, rfl, hu⟩
    rw [SignIn.tokens_fst, userFromToken_encode hsecret (hread s hs).1]
    exact userFromPayload_access.2 hu

end Accepting

/-! ## The services -/

section Services

variable {𝕜 Token : Type} [Field 𝕜] [LinearOrder 𝕜] [FloorRing 𝕜]

/-- What `decode_token` looks at. -/
def claimsOf (signed : Token → Option Payload) (token : Token) : Option Claims :=
  (signed token).map Payload.claims

/-- `require_access_token`. -/
def requireAccessToken (signed : Token → Option Payload) (answers : Bool) (now : 𝕜)
    (credentials : Option Token) (r : Revoked 𝕜) : Except (ℕ × String) Payload :=
  match credentials with
  | none => .error (401, "Not authenticated")
  | some token =>
    match (decodeToken (claimsOf signed) answers now token r).1.bind fun _ => signed token with
    | none => .error (401, "Invalid or revoked token")
    | some payload =>
      if payload.type ≠ some "access" ∨ payload.sub = none then
        .error (401, "Invalid or revoked token")
      else .ok payload

end Services

/-! ## Revoked tokens on the server -/

section Revoking

variable {𝕜 : Type} [Field 𝕜] [LinearOrder 𝕜] [IsStrictOrderedRing 𝕜] [FloorRing 𝕜]

/-- Redis lists the id until the last second before `exp`, or longer. -/
def ListedTo (jti : String) (exp : ℤ) (r : Revoked 𝕜) : Prop :=
  ∃ d, r.redis (key jti) = some ("1", d) ∧ (exp : 𝕜) - 1 < d

theorem lt_add_int {t : 𝕜} {exp : ℤ} (h : 0 < int ((exp : 𝕜) - t)) :
    (exp : 𝕜) - 1 < t + int ((exp : 𝕜) - t) := by
  unfold int at h ⊢
  split_ifs at h ⊢ with hpos
  · have hfloor := Int.lt_floor_add_one ((exp : 𝕜) - t)
    linarith
  · have hneg : ⌈(exp : 𝕜) - t⌉ ≤ 0 := Int.ceil_le.2 (by push_cast; linarith)
    omega

section Steps

variable {Token : Type} {signed : Token → Option Claims} {jti : String} {exp : ℤ}

/-- No call takes the id off the list: the tokens that have it have the same `exp`. -/
theorem ListedTo.step (hown : ∀ a c, signed a = some c → c.jti = some jti → c.exp = some exp)
    {r : Revoked 𝕜} (h : ListedTo jti exp r) (c : Call 𝕜 Token) :
    ListedTo jti exp (Tokens.step signed r c) := by
  cases c with
  | decode answers now token =>
    simp only [Tokens.step, decodeToken]
    split
    · exact h
    · simp only [isBlacklisted]
      split
      · exact h
      · split_ifs
        · exact h
        · split
          · exact h
          · split_ifs <;> exact h
  | blacklist accepts now token =>
    simp only [Tokens.step, blacklistToken]
    cases hsigned : signed token with
    | none => exact h
    | some payload =>
      simp only
      split
      · rename_i j e hj he
        unfold blacklistJti
        split_ifs with hnone haccepts
        · exact h
        · by_cases hsame : jti = j
          · subst hsame
            have hexp := hown token payload hsigned (Option.filter_eq_some_iff.1 hj).1
            rw [(Option.filter_eq_some_iff.1 he).1] at hexp
            cases hexp
            refine ⟨now + int ((exp : 𝕜) - now), by simp, lt_add_int ?_⟩
            omega
          · obtain ⟨d, hd, hlt⟩ := h
            have hkey : key jti ≠ key j := fun heq => hsame (key_injective heq)
            exact ⟨d, by simpa only [Expiring.set_of_ne _ _ _ hkey] using hd, hlt⟩
        · exact h
      · exact h

theorem ListedTo.run (hown : ∀ a c, signed a = some c → c.jti = some jti → c.exp = some exp)
    {r : Revoked 𝕜} (h : ListedTo jti exp r) (cs : List (Call 𝕜 Token)) :
    ListedTo jti exp (Runs.run (Tokens.step signed) r cs) :=
  run_induction (I := ListedTo jti exp) (fun _ c hr => hr.step hown c) h cs

end Steps

variable {jws : Jws} {settings : Settings} {signed : List Char → Option Payload} {s : SignIn 𝕜}

/-- The second at which the access token expires. -/
def SignIn.exp (settings : Settings) (s : SignIn 𝕜) : ℤ :=
  ⌊s.now + (settings.accessTokenExpireMinutes * 60 : ℕ)⌋

omit [IsStrictOrderedRing 𝕜] in
/-- The server on the access token of a user. -/
theorem userFromToken_access (hsecret : settings.jwtSecretKey ≠ "")
    (hread : s.Readable jws settings) {redisPub : Option (Expiring String String 𝕜)} {now : 𝕜}
    {u : AuthUser} :
    userFromToken jws settings.jwtSecretKey redisPub now (some (s.tokens jws settings).1) = some u ↔
      u = ⟨s.id, s.role⟩ ∧ now < s.exp settings ∧
        isJtiBlacklisted redisPub now (some s.jti) = false := by
  rw [SignIn.tokens_fst, userFromToken_encode hsecret hread.1, SignIn.access,
    userFromPayload_access]
  rfl

omit [Field 𝕜] [IsStrictOrderedRing 𝕜] [FloorRing 𝕜] in
/-- Where Redis answers the server, it looks the id up. -/
theorem isJtiBlacklisted_some {jti : String} (hjti : jti ≠ "") {redis : Expiring String String 𝕜}
    {now : 𝕜} :
    isJtiBlacklisted (some redis) now (some jti) = false ↔
      redis.get? now (key jti) ≠ some "1" := by
  unfold isJtiBlacklisted
  rw [truthy_some hjti]
  simp

/-- Once a token is revoked in Redis, the server refuses it wherever Redis answers it, whatever
calls follow, up to its last second and from its `exp` on; in the last second it takes the token
again if part of a second is left behind the whole seconds of the revocation. -/
theorem refused_after (hsecret : settings.jwtSecretKey ≠ "") (hread : s.Readable jws settings)
    (hunique : UniqueIds (claimsOf signed)) (hjti : s.jti ≠ "")
    (hsigned : signed (s.tokens jws settings).1 = some (s.access settings)) {t : 𝕜} (hpos : 0 ≤ t)
    (ht : t ≤ s.exp settings - 1) (r : Revoked 𝕜) :
    let revoked := blacklistToken (claimsOf signed) true t (s.tokens jws settings).1 r
    (∀ cs, ∀ t' : 𝕜, t' ≤ s.exp settings - 1 ∨ s.exp settings ≤ t' →
      userFromToken jws settings.jwtSecretKey (some (run (step (claimsOf signed)) revoked cs).redis)
        t' (some (s.tokens jws settings).1) = none) ∧
    ∀ t' : 𝕜, userFromToken jws settings.jwtSecretKey (some revoked.redis) t'
        (some (s.tokens jws settings).1) = some ⟨s.id, s.role⟩ ↔
      t + ⌊s.exp settings - t⌋ ≤ t' ∧ t' < s.exp settings := by
  intro revoked
  have hclaims : claimsOf signed (s.tokens jws settings).1 = some ⟨s.jti, s.exp settings⟩ := by
    rw [claimsOf, hsigned]
    rfl
  have hone : (1 : 𝕜) ≤ s.exp settings - t := by linarith
  have hint : int ((s.exp settings : 𝕜) - t) = ⌊(s.exp settings : 𝕜) - t⌋ := by
    rw [int, if_pos (by linarith)]
  have hfloor : 1 ≤ ⌊(s.exp settings : 𝕜) - t⌋ := Int.le_floor.2 (by exact_mod_cast hone)
  have hzero : s.exp settings ≠ 0 := by
    intro heq
    rw [heq] at hone
    push_cast at hone
    linarith
  have hredis : revoked.redis (key s.jti) = some ("1", t + ⌊(s.exp settings : 𝕜) - t⌋) := by
    simp only [revoked, blacklistToken, hclaims]
    rw [Option.filter_some_pos (by simpa using hjti), Option.filter_some_pos (by simpa using hzero)]
    have hset : ¬ (s.jti = "" ∨ ⌊(s.exp settings : 𝕜) - t⌋ ≤ 0) := by
      simp only [hjti, false_or]
      omega
    simp only [blacklistJti, hint, if_neg hset]
    exact Expiring.set_self r.redis "1" _ _
  have hlisted : ListedTo s.jti (s.exp settings) revoked := by
    refine ⟨_, hredis, ?_⟩
    rw [← hint]
    exact lt_add_int (by rw [hint]; omega)
  have hown : ∀ a c, claimsOf signed a = some c → c.jti = some s.jti →
      c.exp = some (s.exp settings) := fun a c ha hc => hunique a _ c _ s.jti ha hclaims hc rfl
  refine ⟨fun cs t' ht' => ?_, fun t' => ?_⟩
  · rw [Option.eq_none_iff_forall_ne_some]
    intro u hu
    obtain ⟨-, hexp, hfree⟩ := (userFromToken_access hsecret hread).1 hu
    rw [isJtiBlacklisted_some hjti] at hfree
    obtain ⟨d, hd, hlt⟩ := hlisted.run hown cs
    rcases ht' with hlate | hover
    · exact hfree (Expiring.get?_eq_some.2 ⟨d, hd, hlate.trans_lt hlt⟩)
    · exact absurd hexp (not_lt.2 hover)
  · rw [userFromToken_access hsecret hread, isJtiBlacklisted_some hjti]
    have hfree : revoked.redis.get? t' (key s.jti) ≠ some "1" ↔
        t + ⌊(s.exp settings : 𝕜) - t⌋ ≤ t' := by
      rw [ne_eq, Expiring.get?_eq_some, hredis]
      simp
    rw [hfree]
    tauto

omit [Field 𝕜] [IsStrictOrderedRing 𝕜] [FloorRing 𝕜] in
/-- An id is revoked if Redis answers and lists it, or the memory of the process does. -/
theorem isBlacklisted_iff {jti : String} (hjti : jti ≠ "") {answers : Bool} {now : 𝕜}
    {r : Revoked 𝕜} :
    (isBlacklisted answers now (some jti) r).1 = true ↔
      answers = true ∧ r.redis.get? now (key jti) = some "1" ∨ r.memory.get? now jti = some () := by
  have hget : redisGet answers now (key jti) r = some "1" ↔
      answers = true ∧ r.redis.get? now (key jti) = some "1" := by
    cases answers <;> simp [redisGet]
  unfold isBlacklisted
  rw [Option.filter_some_pos (by simpa using hjti), ← hget]
  simp only
  split_ifs with hredis
  · simp [hredis]
  · cases hmem : r.memory jti with
    | none => simp [hredis, Expiring.get?_of_none hmem]
    | some e =>
      obtain ⟨v, d⟩ := e
      by_cases hd : d ≤ now
      · simp [hredis, hd, Expiring.get?_eq_some, hmem, not_lt.2 hd]
      · simp [hredis, hd, Expiring.get?_eq_some, hmem, not_le.1 hd]

omit [IsStrictOrderedRing 𝕜] in
/-- A service takes the access token of a user until the second of its `exp` is over. -/
theorem requireAccessToken_ok
    (hsigned : signed (s.tokens jws settings).1 = some (s.access settings)) {answers : Bool}
    {now : 𝕜} {r : Revoked 𝕜} :
    (∃ p, requireAccessToken signed answers now (some (s.tokens jws settings).1) r = .ok p) ↔
      now < s.exp settings + 1 ∧ ¬ (isBlacklisted answers now (some s.jti) r).1 = true := by
  have hclaims : claimsOf signed (s.tokens jws settings).1 = some ⟨s.jti, s.exp settings⟩ := by
    rw [claimsOf, hsigned]
    rfl
  have haccepted : accepted (claimsOf signed) now (s.tokens jws settings).1 =
      if now < s.exp settings + 1 then some ⟨s.jti, s.exp settings⟩ else none := by
    rw [accepted, hclaims]
    by_cases hlt : now < (s.exp settings : 𝕜) + 1
    · rw [if_pos hlt, Option.filter_some_pos (by simpa using Int.floor_le_iff.2 hlt)]
    · rw [if_neg hlt, Option.filter_some_neg]
      simpa using fun hle : ⌊now⌋ ≤ s.exp settings => hlt (Int.floor_le_iff.1 hle)
  unfold requireAccessToken decodeToken
  simp only [haccepted]
  by_cases hlt : now < (s.exp settings : 𝕜) + 1
  · cases hlisted : (isBlacklisted answers now (some s.jti) r).1 with
    | true => simp [hlt, hlisted]
    | false => simp [hlt, hlisted, hsigned, SignIn.access, accessPayload]
  · simp [hlt]

/-- After any calls the server and a service say the same of an access token, except in the second
that begins with its `exp`, and where one of the two does not see its revocation: the server where
Redis does not answer it or the revocation is only in the memory of the service, the service where
Redis does not answer it and the revocation is only there. -/
theorem agree_iff (hsecret : settings.jwtSecretKey ≠ "") (hread : s.Readable jws settings)
    (hunique : UniqueIds (claimsOf signed)) (hjti : s.jti ≠ "")
    (hsigned : signed (s.tokens jws settings).1 = some (s.access settings))
    (before : List (Call 𝕜 (List Char))) (answersServer answers : Bool) (now : 𝕜) :
    let r := run (step (claimsOf signed)) .start before
    let redisPub := if answersServer then some r.redis else none
    let listed := r.redis.get? now (key s.jti) = some "1"
    let held := r.memory.get? now s.jti = some ()
    ((∃ u, userFromToken jws settings.jwtSecretKey redisPub now
        (some (s.tokens jws settings).1) = some u) ↔
      ∃ p, requireAccessToken signed answers now (some (s.tokens jws settings).1) r = .ok p) ↔
    ¬ ((s.exp settings : 𝕜) ≤ now ∧ now < s.exp settings + 1) ∧
      (answersServer = true ∧ listed ↔ answers = true ∧ listed ∨ held) := by
  intro r redisPub listed held
  have hclaims : claimsOf signed (s.tokens jws settings).1 = some ⟨s.jti, s.exp settings⟩ := by
    rw [claimsOf, hsigned]
    rfl
  have hserver : (∃ u, userFromToken jws settings.jwtSecretKey redisPub now
      (some (s.tokens jws settings).1) = some u) ↔
      now < s.exp settings ∧ ¬ (answersServer = true ∧ listed) := by
    simp only [userFromToken_access hsecret hread, exists_and_right, exists_eq, true_and, redisPub]
    cases answersServer <;> simp [isJtiBlacklisted, truthy_some hjti, listed]
  rw [hserver, requireAccessToken_ok hsigned, isBlacklisted_iff hjti]
  change (now < s.exp settings ∧ ¬ (answersServer = true ∧ listed) ↔
    now < s.exp settings + 1 ∧ ¬ (answers = true ∧ listed ∨ held)) ↔ _
  rcases lt_or_ge now (s.exp settings : 𝕜) with hlt | hge
  · have hlater : now < (s.exp settings : 𝕜) + 1 := hlt.trans (lt_add_one _)
    have hbefore : ¬ (s.exp settings : 𝕜) ≤ now := not_le.2 hlt
    tauto
  · -- an entry has expired by then, in Redis and in memory
    have hgone := not_blacklisted hunique (bounded_run before) hclaims
      (t := now) (by rintro e he; cases he; exact hge) true
    rw [← Bool.not_eq_true, isBlacklisted_iff hjti] at hgone
    have hlisted : ¬ listed := fun h => hgone (.inl ⟨rfl, h⟩)
    have hheld : ¬ held := fun h => hgone (.inr h)
    have hbefore : ¬ now < (s.exp settings : 𝕜) := not_lt.2 hge
    tauto

end Revoking

/-! ## One user -/

/-- A customer signs in. -/
def customer : SignIn ℚ := ⟨0, 0, "a", "b", 7, "customer"⟩

def oneHour : Settings := ⟨"secret", 60, 30⟩

def ascii (s : String) : List Byte := s.toList.map fun c => Fin.ofNat 256 c.toNat

/-- The JSON texts of the two payloads, as character codes. -/
def accessJson : List Byte :=
  ascii "\x7b\"sub\":\"7\",\"type\":\"access\",\"exp\":3600,\"jti\":\"a\",\"role\":\"customer\"\x7d"

def refreshJson : List Byte :=
  ascii "\x7b\"sub\":\"7\",\"type\":\"refresh\",\"exp\":2592000,\"jti\":\"b\"\x7d"

/-- The texts and signatures of the two tokens of the customer. -/
def customerJws : Jws where
  header := ascii "\x7b\"alg\":\"HS256\",\"typ\":\"JWT\"\x7d"
  dumps p := if p.type = some "access" then accessJson else refreshJson
  parse l :=
    if l = accessJson then some (customer.access oneHour)
    else if l = refreshJson then some (customer.refresh oneHour)
    else none
  mac _ d :=
    if d.length = 125 then
      [182, 10, 230, 255, 178, 77, 114, 77, 14, 23, 126, 123, 225, 158, 22, 13, 82, 56, 114, 112,
        54, 218, 168, 27, 252, 252, 35, 145, 228, 91, 29, 251]
    else
      [184, 243, 12, 163, 203, 182, 53, 93, 155, 239, 138, 94, 201, 156, 138, 126, 152, 248, 168,
        148, 119, 37, 171, 168, 36, 104, 220, 3, 13, 202, 183, 10]

/-- The library, on the one access token there is. -/
def customerSigned (token : List Char) : Option Payload :=
  if token = (customer.tokens customerJws oneHour).1 then some (customer.access oneHour) else none

theorem customer_readable : customer.Readable customerJws oneHour := by
  have hne : refreshJson ≠ accessJson := by decide
  constructor
  · simp [customerJws, SignIn.access, accessPayload]
  · simp [customerJws, SignIn.refresh, refreshPayload, hne]

theorem customerSigned_unique : UniqueIds (claimsOf customerSigned) := by
  intro a b c d jti ha hb _ _
  unfold claimsOf customerSigned at ha hb
  split_ifs at ha with htoken
  · split_ifs at hb with htoken'
    · cases ha
      cases hb
      rfl
    · cases hb
  · cases ha

theorem customer_exp : customer.exp oneHour = 3600 := by
  simp only [SignIn.exp, customer, oneHour]
  norm_num

theorem userFromToken_iff_customer :
    userFromToken customerJws oneHour.jwtSecretKey (some .empty) (0 : ℚ)
      (some (customer.tokens customerJws oneHour).1) = some ⟨7, "customer"⟩ := by
  have hread : ∀ s ∈ [customer], s.Readable customerJws oneHour := by
    simpa using customer_readable
  refine (userFromToken_iff (by decide) hread ?_ _).2 ?_
  · exact fun d hd => ⟨customer, by simp, .inl (data_eq hd).symm⟩
  · refine ⟨customer, by simp, rfl, rfl, ?_, rfl⟩
    have hexp := customer_exp
    rw [SignIn.exp] at hexp
    rw [hexp]
    norm_num

theorem refused_after_customer :
    userFromToken customerJws oneHour.jwtSecretKey
      (some (run (step (claimsOf customerSigned)) (blacklistToken (claimsOf customerSigned) true 60
        (customer.tokens customerJws oneHour).1 Revoked.start) []).redis) (120 : ℚ)
      (some (customer.tokens customerJws oneHour).1) = none := by
  refine (refused_after (by decide) customer_readable customerSigned_unique (by decide)
    (if_pos rfl) (by norm_num) ?_ Revoked.start).1 [] 120 (.inl ?_)
  · rw [customer_exp]
    norm_num
  · rw [customer_exp]
    norm_num

theorem agree_iff_customer :
    (∃ u, userFromToken customerJws oneHour.jwtSecretKey
        (if true then some (run (step (claimsOf customerSigned)) Revoked.start []).redis else none)
        (60 : ℚ) (some (customer.tokens customerJws oneHour).1) = some u) ↔
      ∃ p, requireAccessToken customerSigned false (60 : ℚ)
        (some (customer.tokens customerJws oneHour).1)
        (run (step (claimsOf customerSigned)) Revoked.start []) = .ok p := by
  refine (agree_iff (by decide) customer_readable customerSigned_unique (by decide) (if_pos rfl)
    [] true false 60).2 ⟨?_, ?_⟩
  · rw [customer_exp]
    norm_num
  · simp [Revoked.start, Expiring.get?]

end Tokens

end SweetCrust
