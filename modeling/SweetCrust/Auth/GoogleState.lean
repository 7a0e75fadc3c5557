import SweetCrust.Auth.SignIn

/-!
# Signing in with Google in a browser

`_google_oauth_authorize_url` keeps the role, the app's address and its own callback as three lines
of one text under a random key, and `_google_oauth_finish` takes the text out again.  A text that
does not have three lines is read as one of an older form, which was written for retailers and had
no role.

Google's answers, the random values and `json.dumps` are inputs.

* `callbackUri`, `authorizeUrl` — the start.
* `readState`, `finish` — the end; `unpack` is the decoding.
* `unpack_pack_iff` — the text decodes to what was encoded if neither address has a line break.
* `recovers_iff` — so does a sign-in that is finished.
-/

namespace SweetCrust

open Transaction Text Decimal

namespace Auth

/-! ## Addresses -/

/-- `urlparse(url).hostname`, less its small letters. -/
def hostname (url : List Char) : List Char :=
  let url := (url.dropWhile fun c => c ≤ ' ').filter fun c => c ∉ ['\t', '\n', '\r']
  let isScheme (s : List Char) : Bool :=
    s.head?.any Char.isAlpha && s.all fun c => c.isAlphanum || c ∈ ['+', '-', '.']
  let rest := match splitAt? ':' url with
    | some (scheme, rest) => if isScheme scheme then rest else url
    | none => url
  let netloc := if "//".toList.isPrefixOf rest then
      (rest.drop 2).takeWhile fun c => c ∉ ['/', '?', '#']
    else []
  let host := netloc.rtakeWhile fun c => c ≠ '@'
  match splitAt? '[' host with
  | some (_, bracketed) => bracketed.takeWhile fun c => c ≠ ']'
  | none => host.takeWhile fun c => c ≠ ':'

/-- `_is_private_lan_host`. -/
def isPrivateLanHost (url : List Char) : Bool :=
  let host := lower (hostname url)
  if host ∈ ["localhost".toList, "127.0.0.1".toList, "::1".toList] then false
  else if "192.168.".toList.isPrefixOf host || "10.".toList.isPrefixOf host then true
  else if "172.".toList.isPrefixOf host then
    (((host.splitOn '.')[1]?).bind parseInt).any fun second => 16 ≤ second && second ≤ 31
  else false

structure GoogleSettings where
  googleClientId : Option String
  googleClientSecret : Option String
  authPublicBaseUrl : Option String

/-- `retailer_google_callback_uri`. -/
def callbackUri (settings : GoogleSettings) : String :=
  let base := ((truthy settings.authPublicBaseUrl).getD "http://127.0.0.1:8080").toList.rdropWhile
    fun c => c = '/'
  let base := if isPrivateLanHost base then "http://127.0.0.1:8080".toList else base
  String.ofList base ++ "/api/v1/auth/retailer/google/callback"

/-- The bytes of a character, as a URL has them. -/
def percent (c : Char) : List Char :=
  (String.utf8EncodeChar c).flatMap fun b =>
    ['%', (Nat.digitChar (b.toNat / 16)).toUpper, (Nat.digitChar (b.toNat % 16)).toUpper]

def unreserved (c : Char) : Bool := c.isAlphanum || c ∈ ['_', '.', '-', '~']

/-- `quote`. -/
def quote (s : String) : String :=
  String.ofList (s.toList.flatMap fun c => if unreserved c || c = '/' then [c] else percent c)

/-- `quote_plus`. -/
def quotePlus (s : String) : String :=
  String.ofList (s.toList.flatMap fun c =>
    if c = ' ' then ['+'] else if unreserved c then [c] else percent c)

/-- `urlencode`. -/
def urlencode (params : List (String × String)) : String :=
  "&".intercalate (params.map fun p => quotePlus p.1 ++ "=" ++ quotePlus p.2)

/-! ## The start -/

/-- What is kept while the user is at Google's. -/
structure OAuthState where
  role : String
  appRedirect : String
  callback : String
  deriving DecidableEq

/-- `f"{role}\n{app_redirect}\n{callback}"`. -/
def OAuthState.pack (s : OAuthState) : String :=
  s.role ++ "\n" ++ s.appRedirect ++ "\n" ++ s.callback

/-- Whom the address is for. -/
inductive Audience
  | customer
  | retailer
  deriving DecidableEq

def Audience.role : Audience → String
  | .customer => "customer"
  | .retailer => "retailer"

/-- `allowed_prefixes`. -/
def Audience.allowedPrefixes : Audience → List String
  | .customer => ["usermobile:", "exp:", "http://", "https://"]
  | .retailer => ["sweetcrustretailer:", "exp:", "http://", "https://"]

/-- `ephemeral.put`.  What it writes to the map of its worker is an input of `popOnce`. -/
def putOnce (now : ℕ) (key value : String) (ttlSeconds : ℕ) : Handler Unit :=
  modifyCache fun redis => redis.set key value (now + ttlSeconds * second)

/-- `ephemeral.pop` on a worker whose map still has `mem`. -/
def popOnce (mem : String → Option String) (now : ℕ) (key : String) : Handler (Option String) := do
  let redis ← getCache
  modifyCache fun redis => redis.delete key
  return (redis.get? now key).or (mem key)

/-- `f"gauth:state:{state}"`. -/
def stateKey (state : String) : String := "gauth:state:" ++ state

/-- `_google_oauth_authorize_url`, with `state` for the random text. -/
def authorizeUrl (settings : GoogleSettings) (now : ℕ) (state : String) (audience : Audience)
    (appRedirect : String) : Handler String := do
  raiseIf (truthy settings.googleClientId = none ∨ truthy settings.googleClientSecret = none)
    (.unavailable "GOOGLE_CLIENT_ID / GOOGLE_CLIENT_SECRET not configured")
  raiseIf (¬ ∃ p ∈ audience.allowedPrefixes, p.toList <+: appRedirect.toList)
    (.badRequest "Invalid app redirect")
  let callback := callbackUri settings
  putOnce now (stateKey state) (OAuthState.pack ⟨audience.role, appRedirect, callback⟩) 600
  return "https://accounts.google.com/o/oauth2/v2/auth?" ++ urlencode
    [("client_id", settings.googleClientId.getD ""), ("redirect_uri", callback),
      ("response_type", "code"), ("scope", "openid email profile"), ("state", state),
      ("access_type", "online"), ("prompt", "select_account")]

/-! ## The end -/

/-- The fields of a text that was kept. -/
def unpack (packed : String) : OAuthState :=
  match packed.toList.splitOn '\n' with
  | [role, appRedirect, callback] =>
    ⟨String.ofList role, String.ofList appRedirect, String.ofList callback⟩
  | parts => ⟨"retailer", String.ofList (parts.getD 0 []), String.ofList (parts.getD 1 [])⟩

/-- What `_google_oauth_finish` begins with: the state that was kept. -/
def readState (mem : String → Option String) (now : ℕ) (state : String) : Handler OAuthState := do
  let packed ← popOnce mem now (stateKey state)
  let packed ← match truthy packed with
    | some packed => pure (some packed)
    | none => popOnce mem now ("gauth:cust:state:" ++ state)
  let packed ← orRaise ((truthy packed).filter fun p => '\n' ∈ p.toList)
    (.badRequest "Google sign-in expired. Try again.")
  return unpack packed

/-- What Google answers when a code is exchanged. -/
structure TokenData where
  idToken : Option String
  errorDescription : Option String
  error : Option String

/-- Google, which may not answer, and what it says about the user of a token. -/
structure Google where
  exchange : (code callback : String) → Option TokenData
  info : (idToken : String) → Option GoogleInfo

/-- Why there is no token. -/
def TokenData.detail (data : TokenData) : String :=
  (truthy data.errorDescription).getD ((truthy data.error).getD "No id_token from Google")

/-- Who finishes the sign-in for a role, with `hex` for the random part of a phone. -/
def loginFor (role : String) (info? : Option GoogleInfo) (hex : String) : Handler Tokens :=
  if role = "customer" then googleLogin info? true else retailerGoogleLogin info? hex true

/-- The rest of `_google_oauth_finish`, with `code` from Google and `finishCode` for the random
text. -/
def finishWith (login : Option GoogleInfo → String → Handler Tokens) (google : Google)
    (dumps : Tokens → String) (now : ℕ) (code hex finishCode appRedirect callback : String) :
    Handler (String × Tokens) := do
  let data ← orRaise (google.exchange code callback) (.unauthorized "Google token exchange failed")
  let idToken ← orRaise (truthy data.idToken)
    (.unauthorized ("Google sign-in failed: " ++ data.detail))
  let tokens ← login (google.info idToken) hex
  putOnce now ("gauth:finish:" ++ finishCode) (dumps tokens) 120
  let sep := if '?' ∈ appRedirect.toList then "&" else "?"
  return (appRedirect ++ sep ++ "code=" ++ quote finishCode, tokens)

/-- `_google_oauth_finish`. -/
def finish (mem : String → Option String) (google : Google) (dumps : Tokens → String) (now : ℕ)
    (code state hex finishCode : String) : Handler (String × Tokens) := do
  let s ← readState mem now state
  finishWith (loginFor s.role) google dumps now code hex finishCode s.appRedirect s.callback

/-! ## Decoding -/

theorem splitOn_pack (s : OAuthState) : s.pack.toList.splitOn '\n' =
    s.role.toList.splitOn '\n' ++
      (s.appRedirect.toList.splitOn '\n' ++ s.callback.toList.splitOn '\n') := by
  have hpack : s.pack.toList =
      s.role.toList ++ '\n' :: (s.appRedirect.toList ++ '\n' :: s.callback.toList) := by
    simp [OAuthState.pack]
  rw [hpack, List.splitOn_append_cons_self, List.splitOn_append_cons_self]

/-- A text with another number of lines is one of the older form. -/
theorem unpack_of_length {packed : String} (h : (packed.toList.splitOn '\n').length ≠ 3) :
    unpack packed = ⟨"retailer", String.ofList ((packed.toList.splitOn '\n').getD 0 []),
      String.ofList ((packed.toList.splitOn '\n').getD 1 [])⟩ := by
  unfold unpack
  split
  · rename_i hparts
    rw [hparts] at h
    exact absurd rfl h
  · rfl

theorem unpack_pack_iff {s : OAuthState} (hrole : '\n' ∉ s.role.toList) :
    unpack s.pack = s ↔ '\n' ∉ s.appRedirect.toList ∧ '\n' ∉ s.callback.toList := by
  have hfirst : s.role.toList.splitOn '\n' = [s.role.toList] := List.splitOn_eq_singleton hrole
  constructor
  · intro h
    by_contra hbreak
    have hlength : (s.pack.toList.splitOn '\n').length ≠ 3 := by
      rw [splitOn_pack, List.length_append, List.length_append, length_splitOn, length_splitOn,
        length_splitOn, List.count_eq_zero_of_not_mem hrole]
      intro hthree
      refine hbreak ⟨List.count_eq_zero.1 ?_, List.count_eq_zero.1 ?_⟩ <;> omega
    rw [unpack_of_length hlength, splitOn_pack, hfirst] at h
    -- The older form takes the role for the address, which then has no line break either.
    have hredirect : s.appRedirect = s.role := by
      rw [← congrArg OAuthState.appRedirect h]
      simp
    rw [hredirect, hfirst] at h
    have hcallback : s.callback = s.role := by
      rw [← congrArg OAuthState.callback h]
      simp
    rw [hredirect, hcallback] at hbreak
    exact hbreak ⟨hrole, hrole⟩
  · rintro ⟨hredirect, hcallback⟩
    unfold unpack
    rw [splitOn_pack, hfirst, List.splitOn_eq_singleton hredirect,
      List.splitOn_eq_singleton hcallback]
    simp

theorem lineBreak_mem_pack (s : OAuthState) : '\n' ∈ s.pack.toList := by
  simp [OAuthState.pack]

/-! ## Sign-ins -/

/-- Who finishes the sign-in for an audience. -/
def Audience.login : Audience → Option GoogleInfo → String → Handler Tokens
  | .customer => fun info? _ => googleLogin info? true
  | .retailer => fun info? hex => retailerGoogleLogin info? hex true

theorem loginFor_role (a : Audience) : loginFor a.role = a.login := by
  cases a with
  | customer => rfl
  | retailer => rfl

theorem lineBreak_notMem_role (a : Audience) : '\n' ∉ a.role.toList := by
  cases a <;> decide

section SignIns

variable {settings : GoogleSettings} {mem : String → Option String} {now later : ℕ}
  {state url appRedirect packed : String} {a : Audience} {w v started : World Store Redis}

/-- The state that the start keeps. -/
def kept (settings : GoogleSettings) (a : Audience) (appRedirect : String) : OAuthState :=
  ⟨a.role, appRedirect, callbackUri settings⟩

theorem cache_of_authorizeUrl
    (h : authorizeUrl settings now state a appRedirect w = (.ok url, started)) :
    started.cache = w.cache.set (stateKey state) (kept settings a appRedirect).pack
      (now + 600 * second) := by
  simp only [authorizeUrl, putOnce, raiseIf_bind, modifyCache_bind, pure_run] at h
  split_ifs at h with hsettings hallowed
  · cases h
  · cases h
    rfl
  · cases h

/-- The state is there as it was put: in Redis, or, where Redis has nothing or is off, in the map of
the worker. -/
def StillHeld (settings : GoogleSettings) (mem : String → Option String) (later : ℕ)
    (state : String) (a : Audience) (appRedirect : String) (started v : World Store Redis) : Prop :=
  (v.cache (stateKey state) = started.cache (stateKey state)) ∨
    v.cache.get? later (stateKey state) = none ∧
      mem (stateKey state) = some (kept settings a appRedirect).pack

/-- A text that is found is taken out and decoded. -/
theorem readState_of_found
    (hget : (v.cache.get? now (stateKey state)).or (mem (stateKey state)) = some packed)
    (hbreak : '\n' ∈ packed.toList) :
    readState mem now state v =
      (.ok (unpack packed), { v with cache := v.cache.delete (stateKey state) }) := by
  have hne : packed ≠ "" := by
    rintro rfl
    cases hbreak
  have hpop : popOnce mem now (stateKey state) v =
      (.ok (some packed), { v with cache := v.cache.delete (stateKey state) }) := by
    show (Except.ok ((v.cache.get? now (stateKey state)).or _), _) = _
    rw [hget]
  unfold readState
  rw [bind_run_of_ok hpop, truthy_some hne]
  simp [truthy_some hne, Option.filter_some, hbreak]

/-- What the start has kept is found until it expires. -/
theorem readState_started
    (h : authorizeUrl settings now state a appRedirect w = (.ok url, started))
    (hheld : StillHeld settings mem later state a appRedirect started v)
    (hlater : later < now + 600 * second) :
    readState mem later state v =
      (.ok (unpack (kept settings a appRedirect).pack),
        { v with cache := v.cache.delete (stateKey state) }) := by
  refine readState_of_found ?_ (lineBreak_mem_pack _)
  obtain hkept | ⟨hnone, hmem⟩ := hheld
  · rw [cache_of_authorizeUrl h, Expiring.set_self] at hkept
    rw [Expiring.get?_eq_some.2 ⟨_, hkept, hlater⟩]
    rfl
  · rw [hnone, hmem]
    rfl

/-- The end decodes what the start has encoded, and goes on with it: a customer's sign-in is
finished by `google_login`, and a retailer's by `retailer_google_login`. -/
structure Recovers (settings : GoogleSettings) (mem : String → Option String) (now : ℕ)
    (state : String) (a : Audience) (appRedirect : String) (v : World Store Redis) : Prop where
  decoded : (readState mem now state v).1 = .ok (kept settings a appRedirect)
  finished : ∀ google dumps code hex finishCode,
    finish mem google dumps now code state hex finishCode v =
      finishWith a.login google dumps now code hex finishCode appRedirect (callbackUri settings)
        (readState mem now state v).2

/-- A sign-in whose state has not expired and has not been used is finished as it was started,
exactly if there is no line break in the app's address and none in the callback. -/
theorem recovers_iff (h : authorizeUrl settings now state a appRedirect w = (.ok url, started))
    (hheld : StillHeld settings mem later state a appRedirect started v)
    (hlater : later < now + 600 * second) :
    Recovers settings mem later state a appRedirect v ↔
      '\n' ∉ appRedirect.toList ∧ '\n' ∉ (callbackUri settings).toList := by
  have hiff := unpack_pack_iff (s := kept settings a appRedirect) (lineBreak_notMem_role a)
  have hread : readState mem later state v =
      (.ok (unpack (kept settings a appRedirect).pack),
        { v with cache := v.cache.delete (stateKey state) }) :=
    readState_started h hheld hlater
  constructor
  · rintro ⟨hdecoded, -⟩
    rw [hread] at hdecoded
    exact hiff.1 (Except.ok.inj hdecoded)
  · intro hline
    rw [hiff.2 hline] at hread
    refine ⟨by rw [hread], fun google dumps code hex finishCode => ?_⟩
    unfold finish
    rw [bind_run_of_ok hread, hread]
    show finishWith (loginFor a.role) google dumps later code hex finishCode appRedirect
      (callbackUri settings) _ = _
    rw [loginFor_role]

end SignIns

/-! ## Two addresses of the app -/

def testSettings : GoogleSettings where
  googleClientId := some "id"
  googleClientSecret := some "secret"
  authPublicBaseUrl := some "http://localhost:8080/"

def nothingYet : World Store Redis := ⟨{}, {}, .empty⟩

/-- The world after a sign-in has been started. -/
def startedWith (a : Audience) (appRedirect : String) : World Store Redis :=
  (authorizeUrl testSettings 0 "x7Q" a appRedirect nothingYet).2

theorem home_recovers :
    Recovers testSettings (fun _ => none) minute "x7Q" .customer "usermobile://home"
      (startedWith .customer "usermobile://home") := by
  have h : authorizeUrl testSettings 0 "x7Q" .customer "usermobile://home" nothingYet =
      (.ok _, startedWith .customer "usermobile://home") := rfl
  exact (recovers_iff h (.inl rfl) (by decide)).2 (by decide +kernel)

/-- A customer whose app's address has a line break is signed in as a retailer. -/
theorem brokenHome_retailer :
    (authorizeUrl testSettings 0 "x7Q" .customer "usermobile:\nhome" nothingYet).1.toOption.isSome ∧
      (readState (fun _ => none) minute "x7Q" (startedWith .customer "usermobile:\nhome")).1 =
        .ok ⟨"retailer", "customer", "usermobile:"⟩ ∧
      ¬ Recovers testSettings (fun _ => none) minute "x7Q" .customer "usermobile:\nhome"
        (startedWith .customer "usermobile:\nhome") := by
  have hread : (readState (fun _ => none) minute "x7Q"
      (startedWith .customer "usermobile:\nhome")).1 =
      .ok ⟨"retailer", "customer", "usermobile:"⟩ := by
    decide +kernel
  refine ⟨by decide +kernel, hread, fun h => ?_⟩
  have hdecoded := h.decoded
  rw [hread, Except.ok.injEq] at hdecoded
  exact absurd (congrArg OAuthState.role hdecoded) (by decide)

end Auth

end SweetCrust
