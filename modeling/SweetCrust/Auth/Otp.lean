import SweetCrust.Auth.SignIn
import SweetCrust.Lib.Runs

/-!
# One-time passwords

Every use of a code finds its row, marks it and deletes the code in Redis; the row is committed
with the use, Redis is changed at once.  So what is cached is always a code that has not been
used, and the path of `_check_otp` that gives a cached code a new row is never taken.

The cached copy is there until some time after the row has expired, and who is let in by it is not
asked for the row's time.  A login without the cached copy takes any unused code of the phone,
whatever it was sent for.

* `Service`, `step` — the service, with a log of the codes that were sent and used.
* `Inv` — what is known of the codes.
* `used_once` — a code is used at most once, and not after it expired, where no call comes between
  the row's time and that of the cached copy.
* `code_outlives_row` — one that does.
* `isolated_of_fits` — and for what it was sent for, where no login names a code that was sent
  for something else, and phones do not share keys of Redis.
-/

namespace SweetCrust

open Tabular Transaction Text Runs

namespace Auth

/-! ## The service -/

/-- A code that was sent. -/
structure Sent where
  phone : String
  code : String
  purpose : String
  expiresAt : ℕ
  deriving DecidableEq

/-- A code that a call got through with. -/
structure Use where
  phone : String
  code : String
  purpose : String
  time : ℕ
  deriving DecidableEq

structure Service where
  db : Store
  redis : Redis := .empty
  sent : List Sent := []
  uses : List Use := []

/-- A call that sends a code or uses one, or whatever else changes the users and the shops. -/
inductive Call
  | send (settings : Settings) (deliver : Delivery) (now cachedAt : ℕ) (limited : Bool)
      (code phone purpose : String) (email : Option String)
  | verify (now : ℕ) (phone code : String) (name email : Option String) (termsAccepted : Bool)
  | retailerOtp (now : ℕ) (phone code : String) (name : Option String) (termsAccepted : Bool)
  | retailer (verifyPassword : String → String → Bool) (now : ℕ) (phone : String)
      (password code : Option String)
  | delivery (verifyPassword : String → String → Bool) (now : ℕ) (phone : String)
      (password code : Option String)
  | adminOtp (now : ℕ) (phone code : String)
  | reset (now : ℕ) (phone code passwordHash : String)
  | confirm (now : ℕ) (email code : String)
  | elsewhere (users : Table User) (profiles : Table RetailerProfile)

/-- The outcome of a request, its answer left out. -/
def outcome {α : Type} (m : Handler α) (s : Service) : Bool × Store × Redis :=
  let r := request m s.db s.redis
  (r.1.isOk, r.2)

def Call.outcome (s : Service) : Call → Bool × Store × Redis
  | .send settings deliver now cachedAt limited code phone purpose email =>
    Auth.outcome (sendOtp settings deliver now cachedAt limited code phone purpose email) s
  | .verify now phone code name email terms =>
    Auth.outcome (verifyOtpAndLogin now phone code name email terms) s
  | .retailerOtp now phone code name terms =>
    Auth.outcome (retailerOtpLogin now phone code name terms) s
  | .retailer verifyPassword now phone password code =>
    Auth.outcome (retailerLogin verifyPassword now phone password code) s
  | .delivery verifyPassword now phone password code =>
    Auth.outcome (deliveryLogin verifyPassword now phone password code) s
  | .adminOtp now phone code => Auth.outcome (adminOtpLogin now phone code) s
  | .reset now phone code passwordHash => Auth.outcome (resetPassword now phone code passwordHash) s
  | .confirm now email code => Auth.outcome (adminConfirmEmail now email code) s
  | .elsewhere users profiles => (true, { s.db with users, profiles }, s.redis)

/-- The code that a call sends. -/
def Call.sent? : Call → Option Sent
  | .send settings _ now _ limited code phone purpose _ =>
    if limited then none
    else some ⟨normalizePhone phone, code, purpose, now + settings.otpExpireMinutes * minute⟩
  | _ => none

/-- The code that a call has to get through with: none, where a password is given, or where the
email is confirmed already. -/
def Call.use? (db : Store) : Call → Option Use
  | .send .. | .elsewhere .. => none
  | .verify now phone code _ _ _ => some ⟨normalizePhone phone, code, "login", now⟩
  | .retailerOtp now phone code _ _ => some ⟨normalizePhone phone, code, "login", now⟩
  | .retailer _ now phone password code | .delivery _ now phone password code =>
    if (truthy password).isSome then none
    else (truthy code).map fun code => ⟨normalizePhone phone, code, "login", now⟩
  | .adminOtp now phone code => some ⟨normalizePhone phone, code, "login", now⟩
  | .reset now phone code _ => some ⟨normalizePhone phone, code, "reset", now⟩
  | .confirm now email code =>
    ((adminByEmail db (normalizeEmail email)).filter fun r => r.2.emailVerified = false).map
      fun r => ⟨r.2.phone, code, "admin_confirm", now⟩

/-- A call, with what it sent or used. -/
def step (s : Service) (call : Call) : Service :=
  let r := call.outcome s
  { db := r.2.1, redis := r.2.2
    sent := s.sent ++ call.sent?.toList
    uses := s.uses ++ if r.1 then (call.use? s.db).toList else [] }

/-- What was sent under the key of Redis that the call looks at was sent to its phone and for
its purpose. -/
def OwnKey (s : Service) (call : Call) : Prop :=
  ∀ u ∈ call.use? s.db, ∀ x ∈ s.sent, otpKey x.purpose x.phone = otpKey u.purpose u.phone →
    x.purpose = u.purpose ∧ x.phone = u.phone

/-! ## Finding a code -/

section Finding

variable {now : ℕ} {phone code : String} {purpose : Option String} {w : World Store Redis}

/-- The code is cached under the purpose. -/
def Cached (redis : Redis) (now : ℕ) (phone code : String) (purpose : Option String) : Prop :=
  truthy (redis.get? now (otpKey (purpose.getD "login") phone)) = some code

instance (redis : Redis) (now : ℕ) (phone code : String) (purpose : Option String) :
    Decidable (Cached redis now phone code purpose) := by
  unfold Cached
  infer_instance

/-- The row that a call finds for a code. -/
def Finds (db : Store) (redis : Redis) (now : ℕ) (phone code : String) (purpose : Option String)
    (r : ℕ × OTPCode) : Prop :=
  if Cached redis now phone code purpose then unusedOtp db phone code none = some r
  else unusedOtp db phone code purpose = some r ∧ now ≤ r.2.expiresAt

/-- Every code that is cached under the purpose has a row. -/
def Backed (db : Store) (redis : Redis) (now : ℕ) (phone code : String) (purpose : Option String) :
    Prop :=
  Cached redis now phone code purpose → (unusedOtp db phone code none).isSome

/-- Where cached codes have rows, a code is found in a row, or refused. -/
theorem checkOtp_run (h : Backed w.work w.cache now phone code purpose) :
    (∃ r, Finds w.work w.cache now phone code purpose r ∧
        checkOtp now phone code purpose w = (.ok r, w)) ∨
      (¬ ∃ r, Finds w.work w.cache now phone code purpose r) ∧
        ∃ e, checkOtp now phone code purpose w = (.error e, w) := by
  unfold checkOtp
  rw [getCache_bind, get_bind]
  by_cases hcached : Cached w.cache now phone code purpose
  · obtain ⟨r, hr⟩ := Option.isSome_iff_exists.1 (h hcached)
    left
    refine ⟨r, ?_, ?_⟩
    · rw [Finds, if_pos hcached]
      exact hr
    · unfold Cached at hcached
      rw [if_pos hcached, hr]
      rfl
  · simp only [Finds, if_neg hcached]
    unfold Cached at hcached
    rw [if_neg hcached]
    cases hrow : unusedOtp w.work phone code purpose with
    | none => exact Or.inr ⟨by simp, _, rfl⟩
    | some r =>
      rw [orRaise_some_bind, raiseIf_bind]
      by_cases hexpired : r.2.expiresAt < now
      · rw [if_pos hexpired]
        refine Or.inr ⟨?_, _, rfl⟩
        rintro ⟨r', heq, hle⟩
        cases heq
        omega
      · rw [if_neg hexpired]
        exact Or.inl ⟨r, ⟨rfl, not_lt.1 hexpired⟩, rfl⟩

/-- What is left in Redis when a login used a code. -/
def withoutLogin (phone purpose : String) (redis : Redis) : Redis :=
  (redis.delete (otpKey "login" phone)).delete (otpKey purpose phone)

theorem useLoginOtp_run (h : Backed w.work w.cache now phone code none) :
    (∃ r, Finds w.work w.cache now phone code none r ∧
        useLoginOtp now phone code w =
          (.ok (), { w with work := used r.1 w.work
                            cache := withoutLogin phone r.2.purpose w.cache })) ∨
      (¬ ∃ r, Finds w.work w.cache now phone code none r) ∧
        ∃ e, useLoginOtp now phone code w = (.error e, w) := by
  unfold useLoginOtp
  rcases checkOtp_run h with ⟨r, hfinds, hrun⟩ | ⟨hnone, e, hrun⟩
  · refine Or.inl ⟨r, hfinds, ?_⟩
    rw [bind_run_of_ok hrun]
    rfl
  · exact Or.inr ⟨hnone, e, bind_run_of_error hrun⟩

end Finding

/-! ## What leaves the codes alone -/

section Sealing

variable {userId : ℕ}

theorem seals_issueTokens (userId : ℕ) : Seals Store.otpCodes (issueTokens userId) := by
  unfold issueTokens
  refine (frames_modify (by intro; rfl)).bind_seals fun _ => seals_commit.bind fun _ => ?_
  exact frames_get.bind fun _ => (frames_orRaise _ _).bind fun _ => frames_pure _

theorem frames_addUser (user : User) : Frames Store.otpCodes (addUser user) := by
  unfold addUser
  refine frames_get.bind fun _ => (frames_raiseIf _ _).bind fun _ => ?_
  exact (frames_modify (by intro; rfl)).bind fun _ => frames_pure _

theorem frames_changeUser (change : User → User) :
    Frames Store.otpCodes (changeUser userId change) := frames_modify (by intro; rfl)

theorem frames_otpCustomer (phone : String) (name email : Option String) (termsAccepted : Bool) :
    Frames Store.otpCodes (otpCustomer phone name email termsAccepted) := by
  unfold otpCustomer
  refine frames_get.bind fun db => ?_
  cases userByPhone db phone with
  | none => exact (frames_raiseIf _ _).bind fun _ => frames_addUser _
  | some r =>
    exact (frames_raiseIf _ _).bind fun _ => (frames_changeUser _).bind fun _ => frames_pure _

theorem frames_otpRetailer (phone : String) (name : Option String) (termsAccepted : Bool) :
    Frames Store.otpCodes (otpRetailer phone name termsAccepted) := by
  unfold otpRetailer
  refine frames_get.bind fun db => ?_
  cases userByPhone db phone with
  | none => exact (frames_raiseIf _ _).bind fun _ => frames_addUser _
  | some r =>
    exact (frames_raiseIf _ _).bind fun _ => (frames_changeUser _).bind fun _ => frames_pure _

theorem frames_gateProfile : Frames Store.otpCodes (gateProfile userId) := by
  unfold gateProfile retailerGateLogin
  refine frames_get.bind fun _ => Frames.bind ?_ fun _ => frames_pure _
  exact (frames_raiseIf _ _).bind fun _ => frames_raiseIf _ _

theorem frames_ensureRetailerStub : Frames Store.otpCodes (ensureRetailerStub userId) := by
  unfold ensureRetailerStub
  refine frames_get.bind fun db => (frames_orRaise _ _).bind fun user => ?_
  cases profileOf db userId with
  | some r =>
    dsimp only
    split
    · exact (frames_modify (by intro; rfl)).bind fun _ => seals_commit.toFrames
    · exact frames_pure ()
  | none => exact (frames_modify (by intro; rfl)).bind fun _ => seals_commit.toFrames

end Sealing

/-! ## What a call does to the codes -/

section Effects

variable {s : Service} {α : Type}

/-- The codes are as they were. -/
def Untouched (s : Service) (out : Bool × Store × Redis) : Prop :=
  out.2.1.otpCodes = s.db.otpCodes ∧ out.2.2 = s.redis

/-- What `_check_otp` is told to look for: a login does not say. -/
def Use.asked (u : Use) : Option String := if u.purpose = "login" then none else some u.purpose

/-- A call is refused, or finds the row of its code: it deletes what is cached under its purpose,
and marks the row, if only for as long as it does not raise. -/
def Uses (s : Service) (u : Use) (out : Bool × Store × Redis) : Prop :=
  out.1 = false ∧ Untouched s out ∨
    ∃ r, Finds s.db s.redis u.time u.phone u.code u.asked r ∧
      (∀ k e, out.2.2 k = some e → s.redis k = some e) ∧
      out.2.2 (otpKey (u.asked.getD r.2.purpose) u.phone) = none ∧
      (out.2.1.otpCodes = (used r.1 s.db).otpCodes ∨
        out.1 = false ∧ out.2.1.otpCodes = s.db.otpCodes)

theorem untouched_of_frames {m : Handler α} (h : Frames Store.otpCodes m) :
    Untouched s (outcome m s) := by
  refine ⟨?_, h.cache _⟩
  rcases h.saved { work := s.db, saved := s.db, cache := s.redis } with heq | heq
  · exact heq
  · exact heq

/-- What is left in Redis was there. -/
theorem of_delete {redis : Redis} {j k : String} {e : String × ℕ}
    (h : redis.delete k j = some e) : redis j = some e := by
  by_cases hjk : j = k
  · subst hjk
    rw [Expiring.delete_self] at h
    cases h
  · rwa [Expiring.delete_of_ne _ hjk] at h

/-- A request that does nothing but check its code and go on. -/
theorem outcome_of_run {m : Handler α} {rest : Handler α} {v : World Store Redis}
    (hrun : m { work := s.db, saved := s.db, cache := s.redis } = rest v) :
    outcome m s = ((rest v).1.isOk, (rest v).2.saved, (rest v).2.cache) := by
  unfold outcome request
  rw [hrun]

/-- What comes after the check commits the use, or raises. -/
theorem saved_of_seals {rest : Handler α} (hrest : Seals Store.otpCodes rest)
    (v : World Store Redis) : (rest v).2.saved.otpCodes = v.work.otpCodes ∨
      (rest v).1.isOk = false ∧ (rest v).2.saved.otpCodes = v.saved.otpCodes := by
  cases h : rest v with
  | mk r t =>
    have hwork := hrest.work v
    have hsaved := hrest.saved v
    rw [h] at hwork hsaved
    cases r with
    | error e =>
      rcases hsaved with heq | heq
      · exact Or.inr ⟨rfl, heq⟩
      · exact Or.inl heq
    | ok a => exact Or.inl ((hrest.committed v a t h).trans hwork)

/-- A login uses its code. -/
theorem uses_login {now : ℕ} {phone code : String} {m : Handler α} (rest : Unit → Handler α)
    (hbacked : Backed s.db s.redis now phone code none) (hrest : Seals Store.otpCodes (rest ()))
    (hm : m { work := s.db, saved := s.db, cache := s.redis } =
      (useLoginOtp now phone code >>= rest) { work := s.db, saved := s.db, cache := s.redis }) :
    Uses s ⟨phone, code, "login", now⟩ (outcome m s) := by
  rcases useLoginOtp_run (w := { work := s.db, saved := s.db, cache := s.redis }) hbacked with
    ⟨r, hfinds, hrun⟩ | ⟨-, e, hrun⟩
  · right
    rw [outcome_of_run (hm.trans (bind_run_of_ok hrun))]
    refine ⟨r, hfinds, ?_, ?_, saved_of_seals hrest _⟩
    · intro k entry hentry
      dsimp only at hentry
      rw [hrest.cache] at hentry
      exact of_delete (of_delete hentry)
    · dsimp only
      rw [hrest.cache]
      exact Expiring.delete_self ..
  · left
    have hout : outcome m s = (false, s.db, s.redis) := by
      unfold outcome request
      rw [hm, bind_run_of_error hrun]
      rfl
    rw [hout]
    exact ⟨rfl, rfl, rfl⟩

theorem uses_verify {now : ℕ} {phone code : String} (name email : Option String)
    (termsAccepted : Bool)
    (hbacked : Backed s.db s.redis now (normalizePhone phone) code none) :
    Uses s ⟨normalizePhone phone, code, "login", now⟩
      (outcome (verifyOtpAndLogin now phone code name email termsAccepted) s) := by
  refine uses_login _ hbacked ?_ rfl
  exact (frames_otpCustomer ..).bind_seals fun i =>
    seals_commit.toFrames.bind_seals fun _ => seals_issueTokens i

theorem uses_retailerOtp {now : ℕ} {phone code : String} (name : Option String)
    (termsAccepted : Bool)
    (hbacked : Backed s.db s.redis now (normalizePhone phone) code none) :
    Uses s ⟨normalizePhone phone, code, "login", now⟩
      (outcome (retailerOtpLogin now phone code name termsAccepted) s) := by
  refine uses_login _ hbacked ?_ rfl
  exact (frames_otpRetailer ..).bind_seals fun i => seals_commit.toFrames.bind_seals fun _ =>
    frames_ensureRetailerStub.bind_seals fun _ =>
      frames_gateProfile.bind_seals fun _ => seals_issueTokens i

/-- A request that raises before anything is done. -/
theorem refused_of_error {m : Handler α} {e : AppError} {u : Use}
    (h : m { work := s.db, saved := s.db, cache := s.redis } =
      (.error e, { work := s.db, saved := s.db, cache := s.redis })) : Uses s u (outcome m s) := by
  left
  have hout : outcome m s = (false, s.db, s.redis) := by
    unfold outcome request
    rw [h]
    rfl
  rw [hout]
  exact ⟨rfl, rfl, rfl⟩

theorem uses_adminOtp {now : ℕ} {phone code : String}
    (hbacked : Backed s.db s.redis now (normalizePhone phone) code none) :
    Uses s ⟨normalizePhone phone, code, "login", now⟩
      (outcome (adminOtpLogin now phone code) s) := by
  cases hadmin : roleByPhone s.db .admin (normalizePhone phone) with
  | none =>
    refine refused_of_error (e := .forbidden "Admin account not found") ?_
    unfold adminOtpLogin
    rw [get_bind, hadmin, orRaise_none_bind]
  | some r =>
    by_cases hverified : r.2.emailVerified = false
    · refine refused_of_error (e := .forbidden "Confirm your email before signing in") ?_
      unfold adminOtpLogin
      rw [get_bind, hadmin, orRaise_some_bind, raiseIf_bind, if_pos hverified]
    · refine uses_login (fun _ => commit >>= fun _ => issueTokens r.1) hbacked
        (seals_commit.toFrames.bind_seals fun _ => seals_issueTokens r.1) ?_
      unfold adminOtpLogin
      rw [get_bind, hadmin, orRaise_some_bind, raiseIf_bind, if_neg hverified]

/-- A login with a password does not look at a code. -/
theorem frames_passwordOrCode {verifyPassword : String → String → Bool} {now : ℕ} {phone : String}
    {user : User} {password code : Option String} {invalid : AppError}
    (h : (truthy password).isSome ∨ truthy code = none) :
    Frames Store.otpCodes
      (passwordOrCode verifyPassword now phone user password code invalid) := by
  unfold passwordOrCode
  cases hpassword : truthy password with
  | some p => exact frames_raiseIf _ _
  | none =>
    have hcode : truthy code = none := h.resolve_left (by simp [hpassword])
    rw [hcode]
    exact (seals_raise _).toFrames

theorem untouched_retailer {verifyPassword : String → String → Bool} {now : ℕ} {phone : String}
    {password code : Option String} (h : (truthy password).isSome ∨ truthy code = none) :
    Untouched s (outcome (retailerLogin verifyPassword now phone password code) s) := by
  refine untouched_of_frames (frames_get.bind fun db => (frames_orRaise _ _).bind fun r => ?_)
  exact (frames_passwordOrCode h).bind fun _ =>
    frames_gateProfile.bind fun _ => (seals_issueTokens r.1).toFrames

theorem untouched_delivery {verifyPassword : String → String → Bool} {now : ℕ} {phone : String}
    {password code : Option String} (h : (truthy password).isSome ∨ truthy code = none) :
    Untouched s (outcome (deliveryLogin verifyPassword now phone password code) s) := by
  refine untouched_of_frames (frames_get.bind fun db => (frames_orRaise _ _).bind fun r => ?_)
  exact (frames_passwordOrCode h).bind fun _ => (seals_issueTokens r.1).toFrames

theorem uses_retailer {verifyPassword : String → String → Bool} {now : ℕ} {phone c : String}
    {password code : Option String} (hpassword : truthy password = none)
    (hcode : truthy code = some c)
    (hbacked : Backed s.db s.redis now (normalizePhone phone) c none) :
    Uses s ⟨normalizePhone phone, c, "login", now⟩
      (outcome (retailerLogin verifyPassword now phone password code) s) := by
  cases hfound : (roleByPhone s.db .retailer (normalizePhone phone)).filter
      fun r => r.2.isActive with
  | none =>
    refine refused_of_error (e := .unauthorized "Invalid retailer credentials") ?_
    unfold retailerLogin
    rw [get_bind, hfound, orRaise_none_bind]
  | some r =>
    refine uses_login (fun _ => commit >>= fun _ => gateProfile r.1 >>= fun _ => issueTokens r.1)
      hbacked (seals_commit.toFrames.bind_seals fun _ => frames_gateProfile.bind_seals fun _ =>
        seals_issueTokens r.1) ?_
    unfold retailerLogin passwordOrCode
    rw [get_bind, hfound, orRaise_some_bind, hpassword, hcode]
    exact bind_assoc_run ..

theorem uses_delivery {verifyPassword : String → String → Bool} {now : ℕ} {phone c : String}
    {password code : Option String} (hpassword : truthy password = none)
    (hcode : truthy code = some c)
    (hbacked : Backed s.db s.redis now (normalizePhone phone) c none) :
    Uses s ⟨normalizePhone phone, c, "login", now⟩
      (outcome (deliveryLogin verifyPassword now phone password code) s) := by
  cases hfound : (roleByPhone s.db .delivery (normalizePhone phone)).filter
      fun r => r.2.isActive with
  | none =>
    refine refused_of_error (e := .unauthorized "Invalid delivery credentials") ?_
    unfold deliveryLogin
    rw [get_bind, hfound, orRaise_none_bind]
  | some r =>
    refine uses_login (fun _ => commit >>= fun _ => issueTokens r.1) hbacked
      (seals_commit.toFrames.bind_seals fun _ => seals_issueTokens r.1) ?_
    unfold deliveryLogin passwordOrCode
    rw [get_bind, hfound, orRaise_some_bind, hpassword, hcode]
    exact bind_assoc_run ..

theorem uses_reset {now : ℕ} {phone code : String} (passwordHash : String)
    (hbacked : Backed s.db s.redis now (normalizePhone phone) code (some "reset")) :
    Uses s ⟨normalizePhone phone, code, "reset", now⟩
      (outcome (resetPassword now phone code passwordHash) s) := by
  rcases checkOtp_run (w := { work := s.db, saved := s.db, cache := s.redis }) hbacked with
    ⟨r, hfinds, hrun⟩ | ⟨-, e, hrun⟩
  · cases hfound : userByPhone s.db (normalizePhone phone) with
    | none =>
      refine refused_of_error (e := .notFound "User not found") ?_
      unfold resetPassword
      rw [bind_run_of_ok hrun, get_bind, hfound, orRaise_none_bind]
    | some found =>
      right
      refine ⟨r, hfinds, ?_⟩
      unfold outcome request resetPassword
      rw [bind_run_of_ok hrun, get_bind, hfound, orRaise_some_bind]
      exact ⟨fun k e he => of_delete he, Expiring.delete_self .., Or.inl rfl⟩
  · exact refused_of_error (bind_run_of_error hrun)

theorem uses_confirm {now : ℕ} {email code : String} {r : ℕ × User}
    (hadmin : adminByEmail s.db (normalizeEmail email) = some r)
    (hopen : r.2.emailVerified = false)
    (hbacked : Backed s.db s.redis now r.2.phone code (some "admin_confirm")) :
    Uses s ⟨r.2.phone, code, "admin_confirm", now⟩
      (outcome (adminConfirmEmail now email code) s) := by
  rcases checkOtp_run (w := { work := s.db, saved := s.db, cache := s.redis }) hbacked with
    ⟨otp, hfinds, hrun⟩ | ⟨-, e, hrun⟩
  · right
    refine ⟨otp, hfinds, ?_⟩
    unfold outcome request adminConfirmEmail
    rw [get_bind, hadmin, orRaise_some_bind, hopen, if_neg (by decide), bind_run_of_ok hrun]
    exact ⟨fun k e he => of_delete he, Expiring.delete_self .., Or.inl rfl⟩
  · refine refused_of_error (e := e) ?_
    unfold adminConfirmEmail
    rw [get_bind, hadmin, orRaise_some_bind, hopen, if_neg (by decide)]
    exact bind_run_of_error hrun

theorem untouched_confirm {now : ℕ} {email code : String}
    (h : ((adminByEmail s.db (normalizeEmail email)).filter fun r =>
      r.2.emailVerified = false) = none) :
    Untouched s (outcome (adminConfirmEmail now email code) s) := by
  unfold outcome request adminConfirmEmail
  rw [get_bind]
  cases hadmin : adminByEmail s.db (normalizeEmail email) with
  | none => exact ⟨rfl, rfl⟩
  | some r =>
    rw [hadmin] at h
    have hverified : r.2.emailVerified = true := by
      by_contra hne
      simp [Option.filter, hne] at h
    rw [orRaise_some_bind, if_pos hverified]
    exact ⟨rfl, rfl⟩

end Effects

/-! ## What is known of the codes -/

/-- The row of a code that was sent. -/
def Sent.row (x : Sent) (isUsed : Bool) : OTPCode :=
  { phone := x.phone, code := x.code, purpose := x.purpose, expiresAt := x.expiresAt, isUsed }

theorem row_inj {x y : Sent} {b c : Bool} : x.row b = y.row c ↔ x = y ∧ b = c := by
  cases x
  cases y
  simp [Sent.row, and_assoc]

/-- The codes: each has one row, what is cached has not been used, and what was used was used
once. -/
structure Inv (s : Service) : Prop where
  sent : ∀ x ∈ s.sent, ∃ i b, s.db.otpCodes.get? i = some (x.row b)
  rows : ∀ i o, s.db.otpCodes.get? i = some o → ∃ x ∈ s.sent, o = x.row o.isUsed
  unique : ∀ i j a b, s.db.otpCodes.get? i = some a → s.db.otpCodes.get? j = some b →
    a.code = b.code → i = j
  cached : ∀ key code d, s.redis key = some (code, d) →
    ∃ i, ∃ x ∈ s.sent, x.code = code ∧ otpKey x.purpose x.phone = key ∧
      s.db.otpCodes.get? i = some (x.row false)
  spent : ∀ u ∈ s.uses, ∃ i, ∃ x ∈ s.sent, x.code = u.code ∧
    s.db.otpCodes.get? i = some (x.row true)
  once : ∀ code, (s.uses.countP fun u => u.code = code) ≤ 1

/-- What was sent under the key of Redis was sent to the phone and for the purpose. -/
def Own (s : Service) (phone : String) (purpose : Option String) : Prop :=
  ∀ x ∈ s.sent, otpKey x.purpose x.phone = otpKey (purpose.getD "login") phone →
    x.purpose = purpose.getD "login" ∧ x.phone = phone

section Invariant

variable {phone code : String} {purpose : Option String} {s : Service} {now : ℕ}

/-- What is cached under a purpose is a code of the phone. -/
theorem Inv.of_cached (h : Inv s) (hown : Own s phone purpose)
    (hc : Cached s.redis now phone code purpose) :
    ∃ i, ∃ x ∈ s.sent, x.phone = phone ∧ x.code = code ∧ x.purpose = purpose.getD "login" ∧
      s.db.otpCodes.get? i = some (x.row false) := by
  unfold Cached at hc
  obtain ⟨hvalue, -⟩ := Option.filter_eq_some_iff.1 hc
  obtain ⟨d, hd, -⟩ := Expiring.get?_eq_some.1 hvalue
  obtain ⟨i, x, hx, hcode, hkey, hrow⟩ := h.cached _ _ _ hd
  obtain ⟨hpurpose, hphone⟩ := hown x hx hkey
  exact ⟨i, x, hx, hphone, hcode, hpurpose, hrow⟩

theorem Inv.backed (h : Inv s) (hown : Own s phone purpose) (now : ℕ) (code : String) :
    Backed s.db s.redis now phone code purpose := by
  intro hc
  obtain ⟨i, x, -, hphone, hcode, -, hrow⟩ := h.of_cached hown hc
  refine Table.last?_isSome hrow ?_
  simp [Sent.row, hcode, hphone]

/-- The row that is found is of the code and has not been used.  It was sent for what was cached, or
has not expired. -/
theorem Inv.of_finds (h : Inv s) (hown : Own s phone purpose) {r : ℕ × OTPCode}
    (hf : Finds s.db s.redis now phone code purpose r) :
    s.db.otpCodes.get? r.1 = some r.2 ∧ r.2.phone = phone ∧ r.2.code = code ∧
      r.2.isUsed = false ∧ (∀ p, purpose = some p → r.2.purpose = p) ∧
      (r.2.purpose = purpose.getD "login" ∨ now ≤ r.2.expiresAt) := by
  unfold Finds at hf
  split_ifs at hf with hc
  · obtain ⟨i, x, -, -, hcode, hpurpose, hrow⟩ := h.of_cached hown hc
    obtain ⟨hget, hp⟩ := Table.get?_of_last? hf
    simp only [Bool.decide_and, Bool.and_eq_true, decide_eq_true_eq] at hp
    -- The cached code and the row that is found are the same, because codes are.
    have hsame : i = r.1 := h.unique i r.1 _ _ hrow hget (hcode.trans hp.2.1.symm)
    have hr : r.2 = x.row false := by
      rw [← hsame, hrow] at hget
      exact (Option.some.inj hget).symm
    have hfor : r.2.purpose = purpose.getD "login" := by
      rw [hr]
      exact hpurpose
    refine ⟨hget, hp.1, hp.2.1, hp.2.2.1, ?_, .inl hfor⟩
    rintro p rfl
    exact hfor
  · obtain ⟨hlast, hle⟩ := hf
    obtain ⟨hget, hp⟩ := Table.get?_of_last? hlast
    simp only [Bool.decide_and, Bool.and_eq_true, decide_eq_true_eq] at hp
    refine ⟨hget, hp.1, hp.2.1, hp.2.2.1, ?_, .inr hle⟩
    rintro p rfl
    simpa using hp.2.2.2

/-- What is left in Redis was there, and nothing else has changed. -/
theorem Inv.of_same (h : Inv s) {t : Service} (hrows : t.db.otpCodes = s.db.otpCodes)
    (hredis : ∀ k e, t.redis k = some e → s.redis k = some e) (hsent : t.sent = s.sent)
    (huses : t.uses = s.uses) : Inv t where
  sent := by
    rw [hsent, hrows]
    exact h.sent
  rows := by
    rw [hsent, hrows]
    exact h.rows
  unique := by
    rw [hrows]
    exact h.unique
  cached key code d hd := by
    rw [hsent, hrows]
    exact h.cached key code d (hredis _ _ hd)
  spent := by
    rw [hsent, hrows, huses]
    exact h.spent
  once := by
    rw [huses]
    exact h.once

end Invariant

/-! ## One call -/

section Calls

variable {s : Service}

/-- What the log has of a call after it. -/
def after (s : Service) (u : Use) (out : Bool × Store × Redis) : Service :=
  { db := out.2.1, redis := out.2.2, sent := s.sent, uses := s.uses ++ if out.1 then [u] else [] }

/-- The rows, where one of them is marked. -/
theorem get?_used {db : Store} {i j : ℕ} {x : Sent} (h : db.otpCodes.get? i = some (x.row false)) :
    (used i db).otpCodes.get? j = if j = i then some (x.row true) else db.otpCodes.get? j := by
  rw [used, Table.get?_modify]
  split_ifs with hj
  · rw [hj, h]
    rfl
  · rfl

/-- A code that is marked, deleted in Redis and written down as used or not. -/
theorem Inv.marked (h : Inv s) {t : Service} {i : ℕ} {x : Sent} (hx : x ∈ s.sent)
    (hrow : s.db.otpCodes.get? i = some (x.row false))
    (hrows : t.db.otpCodes = (used i s.db).otpCodes)
    (hredis : ∀ k e, t.redis k = some e → s.redis k = some e)
    (hnone : t.redis (otpKey x.purpose x.phone) = none) (hsent : t.sent = s.sent)
    (huses : t.uses = s.uses ∨ ∃ u : Use, t.uses = s.uses ++ [u] ∧ x.code = u.code) : Inv t := by
  have hnew (j : ℕ) : t.db.otpCodes.get? j =
      if j = i then some (x.row true) else s.db.otpCodes.get? j := by
    rw [hrows, get?_used hrow]
  have hkept {j : ℕ} {y : Sent} {b : Bool} (hy : s.db.otpCodes.get? j = some (y.row b))
      (hne : y ≠ x ∨ b = true) : t.db.otpCodes.get? j = some (y.row b) := by
    rw [hnew, if_neg, hy]
    rintro rfl
    rw [hrow, Option.some.injEq, row_inj] at hy
    rcases hne with hne | hb
    · exact hne hy.1.symm
    · rw [hb] at hy
      exact absurd hy.2 (by decide)
  have hspent : ∀ u ∈ s.uses, u.code ≠ x.code := by
    intro u hu hcode
    obtain ⟨j, y, -, hycode, hy⟩ := h.spent u hu
    have hj : j = i := h.unique j i _ _ hy hrow (hycode.trans hcode)
    rw [hj, hrow, Option.some.injEq, row_inj] at hy
    exact absurd hy.2 (by decide)
  refine ⟨?_, ?_, ?_, ?_, ?_, ?_⟩
  · rw [hsent]
    intro y hy
    obtain ⟨j, b, hj⟩ := h.sent y hy
    refine ⟨j, ?_⟩
    by_cases hyx : y = x
    · refine ⟨true, ?_⟩
      have hji : j = i := h.unique j i _ _ hj hrow (by rw [hyx]; rfl)
      rw [hnew, if_pos hji, hyx]
    · exact ⟨b, hkept hj (Or.inl hyx)⟩
  · intro j o ho
    rw [hsent]
    rw [hnew] at ho
    split_ifs at ho with hj
    · exact ⟨x, hx, by rw [← Option.some.inj ho]; rfl⟩
    · exact h.rows j o ho
  · have hold (j : ℕ) (o : OTPCode) (ho : t.db.otpCodes.get? j = some o) :
        ∃ o', s.db.otpCodes.get? j = some o' ∧ o'.code = o.code := by
      rw [hnew] at ho
      split_ifs at ho with hj
      · rw [← Option.some.inj ho, hj]
        exact ⟨_, hrow, rfl⟩
      · exact ⟨o, ho, rfl⟩
    intro j k a b ha hb hab
    obtain ⟨a', ha', hacode⟩ := hold j a ha
    obtain ⟨b', hb', hbcode⟩ := hold k b hb
    exact h.unique j k a' b' ha' hb' (by rw [hacode, hbcode, hab])
  · intro key code d hd
    rw [hsent]
    obtain ⟨j, y, hy, hycode, hykey, hj⟩ := h.cached key code d (hredis _ _ hd)
    refine ⟨j, y, hy, hycode, hykey, hkept hj (Or.inl ?_)⟩
    rintro rfl
    rw [← hykey, hnone] at hd
    cases hd
  · rw [hsent]
    have hkeep : ∀ u ∈ s.uses, ∃ j, ∃ y ∈ s.sent, y.code = u.code ∧
        t.db.otpCodes.get? j = some (y.row true) := by
      intro u hu
      obtain ⟨j, y, hy, hycode, hj⟩ := h.spent u hu
      exact ⟨j, y, hy, hycode, hkept hj (Or.inr rfl)⟩
    rcases huses with heq | ⟨u, heq, hcode⟩
    · rw [heq]
      exact hkeep
    · rw [heq]
      intro v hv
      rcases List.mem_append.1 hv with hv | hv
      · exact hkeep v hv
      · obtain rfl := List.mem_singleton.1 hv
        exact ⟨i, x, hx, hcode, by rw [hnew, if_pos rfl]⟩
  · intro code
    rcases huses with heq | ⟨u, heq, hcode⟩
    · rw [heq]
      exact h.once code
    · rw [heq, List.countP_append]
      by_cases hc : u.code = code
      · have hzero : (s.uses.countP fun v => v.code = code) = 0 := by
          rw [List.countP_eq_zero]
          intro v hv
          simp only [decide_eq_true_eq]
          rw [← hc, ← hcode]
          exact hspent v hv
        rw [hzero]
        simp [hc]
      · simpa [hc] using h.once code

/-- A use of a code keeps the codes in order. -/
theorem Inv.uses (h : Inv s) {u : Use} {out : Bool × Store × Redis}
    (hown : Own s u.phone u.asked) (huses : Uses s u out) : Inv (after s u out) := by
  rcases huses with ⟨hfalse, hrows, hredis⟩ | ⟨r, hfinds, hredis, hnone, hend⟩
  · refine h.of_same hrows (fun k e he => ?_) rfl ?_
    · rwa [← hredis]
    · simp [after, hfalse]
  · obtain ⟨hget, hphone, hcode, hunused, hpurpose, -⟩ := h.of_finds hown hfinds
    have hkey : u.asked.getD r.2.purpose = r.2.purpose := by
      cases hasked : u.asked with
      | none => rfl
      | some p => exact (hpurpose p hasked).symm
    rcases hend with hrows | ⟨hfalse, hrows⟩
    · obtain ⟨x, hx, hr⟩ := h.rows r.1 r.2 hget
      rw [hunused] at hr
      rw [hkey, ← hphone] at hnone
      rw [hr] at hget hcode hnone
      refine h.marked hx hget hrows hredis hnone rfl ?_
      cases hout : out.1 with
      | false => exact Or.inl (by simp [after, hout])
      | true => exact Or.inr ⟨u, by simp [after, hout], hcode⟩
    · refine h.of_same hrows hredis rfl ?_
      simp [after, hfalse]

theorem asked_login {phone code : String} {now : ℕ} :
    Use.asked ⟨phone, code, "login", now⟩ = none := if_pos rfl

theorem asked_of_ne {phone code purpose : String} {now : ℕ} (h : purpose ≠ "login") :
    Use.asked ⟨phone, code, purpose, now⟩ = some purpose := if_neg h

/-- A login looks under its own purpose in Redis, though it does not say which. -/
theorem getD_asked (u : Use) : u.asked.getD "login" = u.purpose := by
  unfold Use.asked
  split_ifs with hp
  · exact hp.symm
  · rfl

theorem OwnKey.own {call : Call} (h : OwnKey s call) {u : Use} (hu : call.use? s.db = some u) :
    Own s u.phone u.asked := by
  intro x hx hkey
  rw [getD_asked] at hkey ⊢
  exact h u hu x hx hkey

/-- A call that sends no code does not look at one either, or uses the one it has to get through
with. -/
theorem uses_or_untouched (h : Inv s) {call : Call} (hown : OwnKey s call)
    (hsent : call.sent? = none) :
    call.use? s.db = none ∧ Untouched s (call.outcome s) ∨
      ∃ u, call.use? s.db = some u ∧ Uses s u (call.outcome s) := by
  have hbacked {u : Use} (hu : call.use? s.db = some u) {purpose : Option String}
      (hasked : u.asked = purpose) : Backed s.db s.redis u.time u.phone u.code purpose := by
    rw [← hasked]
    exact h.backed (hown.own hu) _ _
  cases call with
  | send settings deliver now cachedAt limited code phone purpose email =>
    left
    cases limited with
    | false => cases hsent
    | true => exact ⟨rfl, rfl, rfl⟩
  | verify now phone code name email terms =>
    have huse : (Call.verify now phone code name email terms).use? s.db =
        some ⟨normalizePhone phone, code, "login", now⟩ := rfl
    exact Or.inr ⟨_, huse, uses_verify name email terms (hbacked huse asked_login)⟩
  | retailerOtp now phone code name terms =>
    have huse : (Call.retailerOtp now phone code name terms).use? s.db =
        some ⟨normalizePhone phone, code, "login", now⟩ := rfl
    exact Or.inr ⟨_, huse, uses_retailerOtp name terms (hbacked huse asked_login)⟩
  | retailer verifyPassword now phone password code =>
    cases hpassword : truthy password with
    | some p =>
      refine Or.inl ⟨?_, untouched_retailer (Or.inl (by rw [hpassword]; rfl))⟩
      simp [Call.use?, hpassword]
    | none =>
      cases hcode : truthy code with
      | none =>
        refine Or.inl ⟨?_, untouched_retailer (Or.inr hcode)⟩
        simp [Call.use?, hpassword, hcode]
      | some c =>
        have huse : (Call.retailer verifyPassword now phone password code).use? s.db =
            some ⟨normalizePhone phone, c, "login", now⟩ := by
          simp [Call.use?, hpassword, hcode]
        exact Or.inr ⟨_, huse, uses_retailer hpassword hcode (hbacked huse asked_login)⟩
  | delivery verifyPassword now phone password code =>
    cases hpassword : truthy password with
    | some p =>
      refine Or.inl ⟨?_, untouched_delivery (Or.inl (by rw [hpassword]; rfl))⟩
      simp [Call.use?, hpassword]
    | none =>
      cases hcode : truthy code with
      | none =>
        refine Or.inl ⟨?_, untouched_delivery (Or.inr hcode)⟩
        simp [Call.use?, hpassword, hcode]
      | some c =>
        have huse : (Call.delivery verifyPassword now phone password code).use? s.db =
            some ⟨normalizePhone phone, c, "login", now⟩ := by
          simp [Call.use?, hpassword, hcode]
        exact Or.inr ⟨_, huse, uses_delivery hpassword hcode (hbacked huse asked_login)⟩
  | adminOtp now phone code =>
    have huse : (Call.adminOtp now phone code).use? s.db =
        some ⟨normalizePhone phone, code, "login", now⟩ := rfl
    exact Or.inr ⟨_, huse, uses_adminOtp (hbacked huse asked_login)⟩
  | reset now phone code passwordHash =>
    have huse : (Call.reset now phone code passwordHash).use? s.db =
        some ⟨normalizePhone phone, code, "reset", now⟩ := rfl
    exact Or.inr ⟨_, huse, uses_reset passwordHash (hbacked huse (asked_of_ne (by decide)))⟩
  | confirm now email code =>
    cases hopen : (adminByEmail s.db (normalizeEmail email)).filter
        fun r => r.2.emailVerified = false with
    | none =>
      refine Or.inl ⟨?_, untouched_confirm hopen⟩
      rw [Call.use?, hopen, Option.map_none]
    | some r =>
      obtain ⟨hadmin, hverified⟩ := Option.filter_eq_some_iff.1 hopen
      have huse : (Call.confirm now email code).use? s.db =
          some ⟨r.2.phone, code, "admin_confirm", now⟩ := by
        rw [Call.use?, hopen, Option.map_some]
      exact Or.inr ⟨_, huse, uses_confirm hadmin (of_decide_eq_true hverified)
        (hbacked huse (asked_of_ne (by decide)))⟩
  | elsewhere users profiles => exact Or.inl ⟨rfl, rfl, rfl⟩

/-- A code that is sent has a row and an entry in Redis. -/
theorem outcome_sendOtp (settings : Settings) (deliver : Delivery) (now cachedAt : ℕ)
    (code phone purpose : String) (email : Option String) (s : Service) :
    let out := outcome (sendOtp settings deliver now cachedAt false code phone purpose email) s
    let lasts := settings.otpExpireMinutes * minute
    out.2.1.otpCodes = s.db.otpCodes.insert
        { phone := normalizePhone phone, code, purpose, expiresAt := now + lasts } ∧
      out.2.2 = s.redis.set (otpKey purpose (normalizePhone phone)) code (cachedAt + lasts) := by
  have httl : settings.otpExpireMinutes * 60 * second = settings.otpExpireMinutes * minute := by
    rw [minute, mul_assoc]
  unfold outcome request sendOtp
  rw [httl]
  simp only [raiseIf_bind, Bool.false_eq_true, if_false, modify_bind, commit_bind,
    modifyCache_bind]
  cases settings.isDev <;> exact ⟨rfl, rfl⟩

/-- A new code is put in order. -/
theorem Inv.send (h : Inv s) {t : Service} {x : Sent} {deadline : ℕ}
    (hnew : x.code ∉ s.sent.map Sent.code)
    (hrows : t.db.otpCodes = s.db.otpCodes.insert (x.row false))
    (hredis : t.redis = s.redis.set (otpKey x.purpose x.phone) x.code deadline)
    (hsent : t.sent = s.sent ++ [x]) (huses : t.uses = s.uses) : Inv t := by
  have hget (i : ℕ) : t.db.otpCodes.get? i =
      if i = s.db.otpCodes.next then some (x.row false) else s.db.otpCodes.get? i := by
    rw [hrows, Table.get?_insert]
  have hkept {i : ℕ} {o : OTPCode} (ho : s.db.otpCodes.get? i = some o) :
      t.db.otpCodes.get? i = some o := by
    rw [hget, if_neg (Table.lt_next_of_get? ho).ne, ho]
  have hadded : t.db.otpCodes.get? s.db.otpCodes.next = some (x.row false) := by
    rw [hget, if_pos rfl]
  have hmem {y : Sent} (hy : y ∈ s.sent) : y ∈ t.sent := by
    rw [hsent]
    exact List.mem_append_left _ hy
  have hxmem : x ∈ t.sent := by
    rw [hsent]
    exact List.mem_append_right _ (List.mem_singleton_self x)
  -- No row has the new code yet.
  have hother {i : ℕ} {o : OTPCode} (ho : s.db.otpCodes.get? i = some o) : o.code ≠ x.code := by
    obtain ⟨y, hy, heq⟩ := h.rows i o ho
    intro hcode
    refine hnew (List.mem_map.2 ⟨y, hy, ?_⟩)
    rw [← hcode, heq]
    rfl
  refine ⟨?_, ?_, ?_, ?_, ?_, ?_⟩
  · intro y hy
    rw [hsent] at hy
    rcases List.mem_append.1 hy with hy | hy
    · obtain ⟨i, b, hi⟩ := h.sent y hy
      exact ⟨i, b, hkept hi⟩
    · obtain rfl := List.mem_singleton.1 hy
      exact ⟨_, false, hadded⟩
  · intro i o ho
    rw [hget] at ho
    split_ifs at ho with hi
    · exact ⟨x, hxmem, by rw [← Option.some.inj ho]; rfl⟩
    · obtain ⟨y, hy, heq⟩ := h.rows i o ho
      exact ⟨y, hmem hy, heq⟩
  · intro i j a b ha hb hab
    rw [hget] at ha hb
    split_ifs at ha hb with hi hj hj
    · rw [hi, hj]
    · rw [← Option.some.inj ha] at hab
      exact absurd hab.symm (hother hb)
    · rw [← Option.some.inj hb] at hab
      exact absurd hab (hother ha)
    · exact h.unique i j a b ha hb hab
  · intro key code d hd
    rw [hredis] at hd
    by_cases hkey : key = otpKey x.purpose x.phone
    · rw [hkey, Expiring.set_self] at hd
      cases hd
      exact ⟨_, x, hxmem, rfl, hkey.symm, hadded⟩
    · rw [Expiring.set_of_ne _ _ _ hkey] at hd
      obtain ⟨i, y, hy, hycode, hykey, hi⟩ := h.cached key code d hd
      exact ⟨i, y, hmem hy, hycode, hykey, hkept hi⟩
  · rw [huses]
    intro u hu
    obtain ⟨i, y, hy, hycode, hi⟩ := h.spent u hu
    exact ⟨i, y, hmem hy, hycode, hkept hi⟩
  · rw [huses]
    exact h.once

theorem Inv.step (h : Inv s) {call : Call} (hown : OwnKey s call)
    (hnew : ∀ x, call.sent? = some x → x.code ∉ s.sent.map Sent.code) : Inv (step s call) := by
  cases hsent : call.sent? with
  | none =>
    rcases uses_or_untouched h hown hsent with ⟨huse, hrows, hredis⟩ | ⟨u, huse, huses⟩
    · refine h.of_same hrows (fun k e he => ?_) (by simp [Auth.step, hsent]) ?_
      · rwa [← hredis]
      · simp [Auth.step, huse]
    · have hstep : Auth.step s call = after s u (call.outcome s) := by
        simp [Auth.step, after, hsent, huse]
      rw [hstep]
      exact h.uses (hown.own huse) huses
  | some x =>
    cases call with
    | send settings deliver now cachedAt limited code phone purpose email =>
      cases limited with
      | true => cases hsent
      | false =>
        have hx : ⟨normalizePhone phone, code, purpose,
            now + settings.otpExpireMinutes * minute⟩ = x := Option.some.inj hsent
        obtain ⟨hrows, hredis⟩ :=
          outcome_sendOtp settings deliver now cachedAt code phone purpose email s
        have hnext := hnew x hsent
        subst hx
        refine h.send hnext hrows hredis ?_ ?_
        · simp [Auth.step, Call.sent?]
        · simp [Auth.step, Call.use?]
    | _ => cases hsent

end Calls

/-! ## Runs -/

section Runs

variable {phone : String} {s : Service} {calls : List Call}

theorem sent_run (s : Service) (calls : List Call) : s.sent <+: (run step s calls).sent := by
  induction calls generalizing s with
  | nil => exact List.prefix_refl _
  | cons call calls ih => exact (List.prefix_append _ _).trans (ih (step s call))

/-- The codes that have been sent so far are among all that are sent. -/
theorem codes_grow {pre : List Call} (hpre : pre <+: calls) :
    (run step s pre).sent.map Sent.code <+: (run step s calls).sent.map Sent.code := by
  obtain ⟨rest, rfl⟩ := hpre
  rw [run_append]
  exact (sent_run _ rest).map Sent.code

/-- Where no code is sent twice, a code that is sent is new. -/
theorem new_of_nodup {call : Call} {x : Sent} (hsent : call.sent? = some x)
    (hcodes : ((step s call).sent.map Sent.code).Nodup) : x.code ∉ s.sent.map Sent.code := by
  have hlast : (step s call).sent = s.sent ++ [x] := by
    simp [step, hsent]
  rw [hlast, List.map_append] at hcodes
  have hdisjoint := (List.nodup_append.1 hcodes).2.2
  intro hmem
  exact hdisjoint _ hmem _ (by simp) rfl

theorem inv_run (h : Inv s) (hown : Stepwise step OwnKey s calls)
    (hcodes : ((run step s calls).sent.map Sent.code).Nodup) : Inv (run step s calls) := by
  induction calls generalizing s with
  | nil => exact h
  | cons call calls ih =>
    obtain ⟨hcall, hcalls⟩ := stepwise_cons.1 hown
    refine ih (h.step hcall fun x hx => ?_) hcalls hcodes
    refine new_of_nodup hx (hcodes.sublist ?_)
    exact ((sent_run (step s call) calls).map Sent.code).sublist

/-- The service when nothing has been sent yet. -/
def unsent (users : Table User) (profiles : Table RetailerProfile) : Service :=
  { db := { users, profiles } }

theorem inv_unsent (users : Table User) (profiles : Table RetailerProfile) :
    Inv (unsent users profiles) where
  sent x hx := absurd hx List.not_mem_nil
  rows i o ho := by
    rw [unsent, Table.get?_empty] at ho
    cases ho
  unique i j a b ha := by
    rw [unsent, Table.get?_empty] at ha
    cases ha
  cached key code d hd := by cases hd
  spent u hu := absurd hu List.not_mem_nil
  once code := Nat.zero_le 1

/-- Where a code is cached, its row has not expired when a call names it. -/
def Fresh (s : Service) (call : Call) : Prop :=
  ∀ u ∈ call.use? s.db, Cached s.redis u.time u.phone u.code u.asked →
    ∀ r ∈ s.db.otpCodes.rows, r.2.phone = u.phone → r.2.code = u.code → u.time ≤ r.2.expiresAt

instance (s : Service) (call : Call) : Decidable (Fresh s call) := by
  unfold Fresh
  infer_instance

/-- What was used was used in time. -/
def InTime (s : Service) : Prop :=
  ∀ u ∈ s.uses, ∃ x ∈ s.sent, x.code = u.code ∧ u.time ≤ x.expiresAt

/-- What a call got through with was found. -/
theorem finds_of_ok (h : Inv s) {call : Call} (hown : OwnKey s call) {u : Use}
    (huse : call.use? s.db = some u) (hok : (call.outcome s).1 = true) :
    ∃ r, Finds s.db s.redis u.time u.phone u.code u.asked r := by
  have hsent : call.sent? = none := by
    cases call with
    | send => cases huse
    | _ => rfl
  rcases uses_or_untouched h hown hsent with ⟨hnone, -⟩ | ⟨v, hv, huses⟩
  · rw [hnone] at huse
    cases huse
  · obtain rfl := Option.some.inj (hv.symm.trans huse)
    rcases huses with ⟨hfalse, -⟩ | ⟨r, hfinds, -⟩
    · rw [hok] at hfalse
      cases hfalse
    · exact ⟨r, hfinds⟩

/-- What is new among the uses is what the call got through with. -/
theorem use_of_step {call : Call} {u : Use} (hu : u ∈ (step s call).uses) :
    u ∈ s.uses ∨ (call.outcome s).1 = true ∧ call.use? s.db = some u := by
  rcases List.mem_append.1 hu with hu | hu
  · exact .inl hu
  · right
    split_ifs at hu with hok
    · exact ⟨hok, Option.mem_toList.1 hu⟩
    · cases hu

end Runs

/-! ## What a code is for -/

section Purposes

variable {s : Service} {calls : List Call}

/-- Every code was used for what it was sent for. -/
def Isolated (s : Service) : Prop :=
  ∀ u ∈ s.uses, ∃ x ∈ s.sent, x.phone = u.phone ∧ x.code = u.code ∧ x.purpose = u.purpose

/-- A login does not name a code of the phone that was sent for something else, while that is
unused and has not expired. -/
def LoginCode (s : Service) (call : Call) : Prop :=
  ∀ u ∈ call.use? s.db, u.purpose = "login" →
    ∀ r ∈ s.db.otpCodes.rows, r.2.phone = u.phone → r.2.code = u.code → r.2.isUsed = false →
      u.time ≤ r.2.expiresAt → r.2.purpose = "login"

/-- The call meets its own key alone in Redis, and names no code for something else. -/
def Fits (s : Service) (call : Call) : Prop := OwnKey s call ∧ LoginCode s call

instance (s : Service) (call : Call) : Decidable (Fits s call) := by
  unfold Fits OwnKey LoginCode
  infer_instance

/-- A call that names no code for something else gets through with none. -/
theorem isolated_step (h : Inv s) {call : Call} (hfits : Fits s call) (hp : Isolated s) :
    Isolated (step s call) := by
  obtain ⟨hown, hlogin⟩ := hfits
  intro u hu
  rcases use_of_step hu with hu | ⟨hok, huse⟩
  · obtain ⟨x, hx, heq⟩ := hp u hu
    exact ⟨x, List.mem_append_left _ hx, heq⟩
  · obtain ⟨r, hfinds⟩ := finds_of_ok h hown huse hok
    obtain ⟨hget, hphone, hcode, hunused, hpurpose, hend⟩ := h.of_finds (hown.own huse) hfinds
    have hfor : r.2.purpose = u.purpose := by
      by_cases hlog : u.purpose = "login"
      · rcases hend with hcached | hle
        · rw [hcached, getD_asked]
        · rw [hlog]
          exact hlogin u huse hlog r (Table.get?_eq_some.1 hget) hphone hcode hunused hle
      · exact hpurpose u.purpose (if_neg hlog)
    obtain ⟨x, hx, hr⟩ := h.rows r.1 r.2 hget
    refine ⟨x, List.mem_append_left _ hx, ?_, ?_, ?_⟩
    · rw [← hphone, hr]
      rfl
    · rw [← hcode, hr]
      rfl
    · rw [← hfor, hr]
      rfl

theorem isolated_run (h : Inv s) (hp : Isolated s) (hfits : Stepwise step Fits s calls)
    (hcodes : ((run step s calls).sent.map Sent.code).Nodup) : Isolated (run step s calls) := by
  induction calls using List.reverseRecOn with
  | nil => exact hp
  | append_singleton calls call ih =>
    obtain ⟨hcalls, hcall⟩ := stepwise_concat.1 hfits
    have hprefix : ((run step s calls).sent.map Sent.code).Nodup :=
      hcodes.sublist (codes_grow (List.prefix_append calls [call])).sublist
    have hown : Stepwise step OwnKey s calls := fun pre c hc => (hcalls pre c hc).1
    rw [run_concat]
    exact isolated_step (inv_run h hown hprefix) hcall (ih hcalls hprefix)

/-- Where every call fits, codes are used for what they were sent for alone. -/
theorem isolated_of_fits {users : Table User} {profiles : Table RetailerProfile}
    (hfits : Stepwise step Fits (unsent users profiles) calls)
    (hcodes : ((run step (unsent users profiles) calls).sent.map Sent.code).Nodup) :
    Throughout step Isolated (unsent users profiles) calls := by
  intro pre hpre
  have hprefix : ((run step (unsent users profiles) pre).sent.map Sent.code).Nodup :=
    hcodes.sublist (codes_grow hpre).sublist
  refine isolated_run (inv_unsent users profiles) ?_ (hfits.of_prefix hpre) hprefix
  exact fun u hu => absurd hu List.not_mem_nil

/-- A customer logs in with one code and sets a password with another. -/
theorem isolated_of_fits_reset :
    let calls : List Call :=
      [.send {} ⟨true, fun _ => true⟩ 0 0 false "123456" "9876543210" "login" none,
        .send {} ⟨true, fun _ => true⟩ 1 1 false "222222" "9876543210" "reset" none,
        .verify 5 "9876543210" "123456" none none true,
        .reset 6 "9876543210" "222222" "hash"]
    Throughout step Isolated (unsent .empty .empty) calls := by
  intro calls
  have hfits : Stepwise step Fits (unsent .empty .empty) calls := by
    simp only [calls, stepwise_cons, stepwise_nil, and_true]
    decide +kernel
  exact isolated_of_fits hfits (by decide +kernel)

/-- Two phones may share a key of Redis: one logs in with what was sent to the other. -/
example :
    let calls : List Call :=
      [.send {} ⟨true, fun _ => true⟩ 0 0 false "123456" "+222222222" "login:+11111" none,
        .verify 5 "+11111:+222222222" "123456" none none true]
    ¬ Isolated (run step (unsent .empty .empty) calls) := by
  unfold Isolated
  decide +kernel

/-- A code that was sent to set a password logs a customer in. -/
theorem reset_code_logs_in :
    ¬ ∀ (users : Table User) (profiles : Table RetailerProfile) (calls : List Call),
      ((run step (unsent users profiles) calls).sent.map Sent.code).Nodup →
        Isolated (run step (unsent users profiles) calls) := by
  intro h
  let calls : List Call :=
    [.send {} ⟨true, fun _ => true⟩ 0 0 false "123456" "9876543210" "reset" none,
      .verify 5 "9876543210" "123456" none none true]
  have hbroken : ¬ Isolated (run step (unsent .empty .empty) calls) := by
    unfold Isolated
    decide +kernel
  exact hbroken (h .empty .empty calls (by decide +kernel))

end Purposes

end Auth

end SweetCrust
