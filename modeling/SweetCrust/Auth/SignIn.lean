import SweetCrust.Data.Rows
import SweetCrust.Lib.Decimal
import SweetCrust.Lib.Expiring
import SweetCrust.Lib.Text
import SweetCrust.Lib.Transaction

/-!
# Signing in

The functions of the auth service that send and use one-time passwords, and those that issue
tokens.  A code is a row of `otp_codes` and an entry of Redis; the entry ends by itself.  What a
request does to Redis stays when it raises, what it does to the database only if it was
committed.

Times are in microseconds, and a request takes place at one instant.  The rate limiter, the
delivery of codes by SMS and mail, the check of passwords and of Google's tokens, the decoding of
tokens and the choice of random values are inputs.

* `sendOtp`, `checkOtp`, `useLoginOtp` — sending a code, finding one and using it to log in.
* `issueTokens` — what every sign-in ends with.
* `verifyOtpAndLogin`, `googleLogin`, `adminLogin`, `adminOtpLogin`, `retailerOtpLogin`,
  `retailerGoogleLogin`, `retailerLogin`, `deliveryLogin`, `refreshTokens` — the sign-ins.
* `resetPassword`, `adminConfirmEmail` — the other uses of a code.
-/

namespace SweetCrust

open Tabular Transaction Text Decimal

namespace Auth

/-! ## The tables and Redis -/

structure Store where
  users : Table User := .empty
  profiles : Table RetailerProfile := .empty
  otpCodes : Table OTPCode := .empty

abbrev Redis : Type := Expiring String String ℕ

/-- A handler of the service. -/
abbrev Handler (α : Type) : Type := Tx AppError Store Redis α

def second : ℕ := 1000000

def minute : ℕ := 60 * second

/-- `_normalize_phone`. -/
def normalizePhone (phone : String) : String :=
  let digits := phone.toList.filter isdigit
  if digits.length = 10 then "+91" ++ String.ofList digits
  else if phone.toList.head? = some '+' then phone
  else "+" ++ String.ofList digits

/-- `f"otp:{purpose}:{phone}"`. -/
def otpKey (purpose phone : String) : String := "otp:" ++ purpose ++ ":" ++ phone

def userByPhone (db : Store) (phone : String) : Option (ℕ × User) :=
  db.users.first? fun u => u.phone = phone

def userByEmail (db : Store) (email : String) : Option (ℕ × User) :=
  db.users.first? fun u => u.email = some email

/-- The user of a role with a phone. -/
def roleByPhone (db : Store) (role : UserRole) (phone : String) : Option (ℕ × User) :=
  db.users.first? fun u => u.phone = phone ∧ u.role = role

def adminByEmail (db : Store) (email : String) : Option (ℕ × User) :=
  db.users.first? fun u => u.email = some email ∧ u.role = .admin

/-- `get_retailer_profile`. -/
def profileOf (db : Store) (userId : ℕ) : Option (ℕ × RetailerProfile) :=
  db.profiles.first? fun p => p.userId = userId

/-- The unused code that was issued last. -/
def unusedOtp (db : Store) (phone code : String) (purpose : Option String) :
    Option (ℕ × OTPCode) :=
  db.otpCodes.last? fun o =>
    o.phone = phone ∧ o.code = code ∧ o.isUsed = false ∧ purpose.all fun p => o.purpose = p

/-- `email.strip().lower()`. -/
def normalizeEmail (email : String) : String :=
  String.ofList (lower (strip isSpace email.toList))

/-- `text.strip()`. -/
def stripText (text : String) : String := String.ofList (strip isSpace text.toList)

/-! ## Tokens -/

/-- `create_token_pair`, and what is returned beside it. -/
structure Tokens where
  sub : ℕ
  role : UserRole
  user : User
  isNew : Option Bool := none
  approvalStatus : Option String := none
  message : Option String := none

/-- `_issue_tokens`: `presence.set_online` commits. -/
def issueTokens (userId : ℕ) : Handler Tokens := do
  modify fun db => { db with users := db.users.modify userId fun u => { u with isOnline := true } }
  commit
  let user ← orRaise ((← get).users.get? userId) (.uncaught "no such user")
  return { sub := userId, role := user.role, user }

/-! ## One-time passwords -/

structure Settings where
  otpExpireMinutes : ℕ := 10
  isDev : Bool := false

/-- Whether SMS and mail take a code. -/
structure Delivery where
  sms : Bool
  mail : String → Bool

structure OtpSent where
  phone : String
  message : String
  smsSent : Bool
  emailSent : Bool
  devOtp : Option String
  deriving DecidableEq

/-- `send_otp`, where the rate limiter lets it through or not and `_otp_code` is `code`.  The row's
deadline is counted from `now`, and that of the cached copy from `cachedAt`, when Redis gets it
after the commit. -/
def sendOtp (settings : Settings) (delivery : Delivery) (now cachedAt : ℕ) (limited : Bool)
    (code : String) (phone purpose : String) (email : Option String) : Handler OtpSent := do
  let phone := normalizePhone phone
  raiseIf limited (.rateLimited "Too many OTP requests. Try again in a few minutes.")
  let expires := now + settings.otpExpireMinutes * minute
  modify fun db =>
    { db with otpCodes := db.otpCodes.insert { phone, code, purpose, expiresAt := expires } }
  commit
  modifyCache fun redis =>
    redis.set (otpKey purpose phone) code (cachedAt + settings.otpExpireMinutes * 60 * second)
  if settings.isDev then
    return { phone, message := "OTP ready (dev — SMS/email skipped)", smsSent := false
             emailSent := false, devOtp := some code }
  else
    let db ← get
    let target := (truthy email).or ((userByPhone db phone).bind fun r => truthy r.2.email)
    return { phone, message := "OTP sent", smsSent := delivery.sms
             emailSent := target.elim false delivery.mail, devOtp := none }

/-- `_check_otp`: a code that is only left in Redis gets a row again. -/
def checkOtp (now : ℕ) (phone code : String) (purpose : Option String) :
    Handler (ℕ × OTPCode) := do
  let redis ← getCache
  let db ← get
  if truthy (redis.get? now (otpKey (purpose.getD "login") phone)) = some code then
    match unusedOtp db phone code none with
    | some r => return r
    | none =>
      let otp : OTPCode :=
        { phone, code, purpose := purpose.getD "login", expiresAt := now + minute }
      modify fun db => { db with otpCodes := db.otpCodes.insert otp }
      commit
      return (db.otpCodes.next, otp)
  else
    let r ← orRaise (unusedOtp db phone code purpose) (.badRequest "Invalid or expired OTP")
    raiseIf (r.2.expiresAt < now) (.badRequest "Invalid or expired OTP")
    return r

/-- `otp.is_used = True`. -/
def used (otpId : ℕ) (db : Store) : Store :=
  { db with otpCodes := db.otpCodes.modify otpId fun o => { o with isUsed := true } }

/-- What every login does with a code: it is checked, used, and deleted in Redis. -/
def useLoginOtp (now : ℕ) (phone code : String) : Handler Unit := do
  let otp ← checkOtp now phone code none
  modify (used otp.1)
  modifyCache fun redis => redis.delete (otpKey "login" phone)
  modifyCache fun redis => redis.delete (otpKey otp.2.purpose phone)

/-! ## Customers -/

/-- A user that has just been added; the phones of users are unique. -/
def addUser (user : User) : Handler ℕ := do
  let db ← get
  raiseIf (userByPhone db user.phone).isSome (.uncaught "duplicate phone")
  modify fun db => { db with users := db.users.insert user }
  return db.users.next

def changeUser (userId : ℕ) (change : User → User) : Handler Unit :=
  modify fun db => { db with users := db.users.modify userId change }

/-- `user.role.value`. -/
def roleText : UserRole → String
  | .customer => "customer"
  | .admin => "admin"
  | .delivery => "delivery"
  | .retailer => "retailer"

/-- The customer of `verify_otp_and_login`, who is added where there is none. -/
def otpCustomer (phone : String) (name email : Option String) (termsAccepted : Bool) :
    Handler ℕ := do
  match userByPhone (← get) phone with
  | none =>
    raiseIf (termsAccepted = false) (.badRequest "Accept terms and privacy policy")
    addUser
      { phone, name := some ((truthy name).getD "Guest User"), email, role := .customer
        totalOrders := 0, termsAccepted }
  | some found =>
    raiseIf (found.2.role ≠ .customer)
      (.forbidden ("Use the " ++ roleText found.2.role ++ " login endpoint for this account"))
    changeUser found.1 fun u =>
      { u with
        name := (truthy name).or u.name
        email := (truthy email).or u.email
        termsAccepted := termsAccepted || u.termsAccepted }
    return found.1

/-- `verify_otp_and_login`. -/
def verifyOtpAndLogin (now : ℕ) (phone code : String) (name email : Option String)
    (termsAccepted : Bool) : Handler Tokens := do
  useLoginOtp now (normalizePhone phone) code
  let userId ← otpCustomer (normalizePhone phone) name email termsAccepted
  commit
  issueTokens userId

/-- What Google says about a user. -/
structure GoogleInfo where
  email : Option String
  name : Option String
  picture : Option String
  sub : String

/-- `s[-10:]`. -/
def lastTen (s : String) : String := String.ofList (s.toList.rtake 10)

/-- `email.split("@")[0]`. -/
def beforeAt (email : String) : String :=
  String.ofList (email.toList.takeWhile fun c => c ≠ '@')

/-- The user's new name and picture, where Google has them. -/
def fromGoogle (info : GoogleInfo) (u : User) : User :=
  { u with name := (truthy info.name).or u.name, avatarUrl := (truthy info.picture).or u.avatarUrl }

def invalidGoogleToken : AppError :=
  .unauthorized ("Invalid Google token. Use Continue with Google (browser sign-in), or check " ++
    "GOOGLE_CLIENT_ID.")

/-- The customer of `google_login`, who is added where there is none. -/
def googleCustomer (info : GoogleInfo) (email : String) (termsAccepted : Bool) : Handler ℕ := do
  match userByEmail (← get) email with
  | none =>
    raiseIf (termsAccepted = false) (.badRequest "Accept terms and privacy policy")
    addUser
      { phone := "+91G" ++ lastTen info.sub
        name := some ((truthy info.name).getD (beforeAt email))
        email := some email, avatarUrl := info.picture, role := .customer, totalOrders := 0
        termsAccepted := true }
  | some found =>
    raiseIf (found.2.role ≠ .customer) (.forbidden "Google login is for customers only")
    changeUser found.1 (fromGoogle info)
    return found.1

/-- `google_login`, where Google's token says `info?`. -/
def googleLogin (info? : Option GoogleInfo) (termsAccepted : Bool) : Handler Tokens := do
  let info ← orRaise info? invalidGoogleToken
  let email ← orRaise (truthy info.email) invalidGoogleToken
  let userId ← googleCustomer info email termsAccepted
  commit
  issueTokens userId

/-! ## Admins -/

def invalidCredentials : AppError := .unauthorized "Invalid credentials"

/-- `user.password_hash and verify_password(password, user.password_hash)`. -/
def verified (verifyPassword : String → String → Bool) (password : String) (user : User) : Bool :=
  (truthy user.passwordHash).any (verifyPassword password)

/-- `admin_login`. -/
def adminLogin (verifyPassword : String → String → Bool) (password : String)
    (phone email : Option String) : Handler Tokens := do
  raiseIf (truthy phone = none ∧ truthy email = none) (.badRequest "Phone or email is required")
  let db ← get
  let found := match truthy phone with
    | some phone => roleByPhone db .admin (normalizePhone phone)
    | none => adminByEmail db (normalizeEmail (email.getD ""))
  let admin ← orRaise (found.filter fun r => verified verifyPassword password r.2)
    invalidCredentials
  raiseIf (admin.2.isActive = false) (.forbidden "Account disabled")
  raiseIf (admin.2.emailVerified = false)
    (.forbidden "Confirm your email before signing in. Check your inbox for the code.")
  issueTokens admin.1

/-- `admin_otp_login`. -/
def adminOtpLogin (now : ℕ) (phone code : String) : Handler Tokens := do
  let db ← get
  let admin ← orRaise (roleByPhone db .admin (normalizePhone phone))
    (.forbidden "Admin account not found")
  raiseIf (admin.2.emailVerified = false) (.forbidden "Confirm your email before signing in")
  useLoginOtp now (normalizePhone phone) code
  commit
  issueTokens admin.1

/-- `admin_confirm_email`. -/
def adminConfirmEmail (now : ℕ) (email code : String) : Handler String := do
  let db ← get
  let admin ← orRaise (adminByEmail db (normalizeEmail email))
    (.notFound "Admin account not found")
  if admin.2.emailVerified then return "Email already confirmed"
  else
    let otp ← checkOtp now admin.2.phone code (some "admin_confirm")
    modify (used otp.1)
    changeUser admin.1 fun u => { u with emailVerified := true }
    modifyCache fun redis => redis.delete (otpKey "admin_confirm" admin.2.phone)
    commit
    return "Email confirmed. You can sign in now."

/-! ## Retailers -/

/-- `_ensure_retailer_stub`. -/
def ensureRetailerStub (userId : ℕ) : Handler Unit := do
  let db ← get
  let user ← orRaise (db.users.get? userId) (.uncaught "no such user")
  match profileOf db userId with
  | some (i, existing) =>
    let named := (truthy user.name).isSome ∧
      (truthy existing.ownerName = none ∨ existing.ownerName = some "Shop Owner")
    let pictured := (truthy user.avatarUrl).isSome ∧ truthy existing.shopLogoUrl = none
    if named ∨ pictured then
      modify fun db =>
        { db with
          profiles := db.profiles.modify i fun p =>
            { p with
              ownerName := if named then user.name else p.ownerName
              shopLogoUrl := if pictured then user.avatarUrl else p.shopLogoUrl } }
      commit
  | none =>
    let contact := if "+91R".toList.isPrefixOf user.phone.toList then none
      else truthy (some user.phone)
    modify fun db =>
      { db with
        profiles := db.profiles.insert
          { userId, shopName := "My Shop", ownerName := user.name, contactPhone := contact
            shopLogoUrl := user.avatarUrl, creditAllowed := false, creditLimit := 0
            outstandingBalance := 0, payableBalance := 0, isWholesaler := false
            isBlocked := false, approvalStatus := "incomplete" } }
    commit

/-- `_retailer_gate_login`: a shop without a profile passes. -/
def retailerGateLogin (profile : Option RetailerProfile) : Handler Unit := do
  raiseIf (profile.elim "approved" RetailerProfile.approvalStatus = "rejected")
    (.forbidden "Shop registration was rejected. Contact the bakery owner.")
  raiseIf (profile.elim false RetailerProfile.isBlocked) (.forbidden "Shop is blocked")

/-- The profile of a shop passes the gate. -/
def gateProfile (userId : ℕ) : Handler (Option RetailerProfile) := do
  let profile := (profileOf (← get) userId).map Prod.snd
  retailerGateLogin profile
  return profile

/-- The retailer of `retailer_otp_login`, who is added where there is none. -/
def otpRetailer (phone : String) (name : Option String) (termsAccepted : Bool) : Handler ℕ := do
  match userByPhone (← get) phone with
  | none =>
    raiseIf (termsAccepted = false) (.badRequest "Accept terms and privacy policy")
    addUser
      { phone, name := some (stripText ((truthy name).getD "Shop Owner")), role := .retailer
        totalOrders := 0, termsAccepted := true }
  | some found =>
    raiseIf (found.2.role ≠ .retailer)
      (.forbidden ("Use the " ++ roleText found.2.role ++ " login for this account"))
    changeUser found.1 fun u =>
      { u with
        name := ((truthy name).map stripText).or u.name
        termsAccepted := termsAccepted || u.termsAccepted }
    return found.1

/-- `retailer_otp_login`. -/
def retailerOtpLogin (now : ℕ) (phone code : String) (name : Option String)
    (termsAccepted : Bool) : Handler Tokens := do
  useLoginOtp now (normalizePhone phone) code
  let userId ← otpRetailer (normalizePhone phone) name termsAccepted
  commit
  ensureRetailerStub userId
  let _ ← gateProfile userId
  issueTokens userId

/-- What a retailer is told after signing in with Google. -/
def googleMessage (isNew : Bool) (status : String) : String :=
  if isNew then
    "Google registration successful. Complete your shop profile and KYC, " ++
      "then send for owner approval."
  else if status = "incomplete" then
    "Welcome back. Finish your shop profile to submit for approval."
  else if status = "pending" then "Welcome back. Your shop is awaiting owner approval."
  else "Welcome back. You are signed in with Google."

/-- The retailer of `_retailer_google_tokens_for_info`, who is added where there is none, with
`hex` for the random part of a phone. -/
def googleRetailer (info : GoogleInfo) (email hex : String) : Handler ℕ := do
  let db ← get
  match userByEmail db email with
  | none =>
    let phone := "+91R" ++ lastTen info.sub
    addUser
      { phone := if (userByPhone db phone).isSome then "+91R" ++ hex else phone
        name := some ((truthy info.name).getD (beforeAt email))
        email := some email, emailVerified := true, avatarUrl := info.picture
        role := .retailer, totalOrders := 0, termsAccepted := true }
  | some found =>
    raiseIf (found.2.role ≠ .retailer)
      (.forbidden ("This Google account is already registered as " ++ roleText found.2.role ++
        ". Use a different Google account for retailer sign-in."))
    changeUser found.1 fun u => { fromGoogle info u with emailVerified := true }
    return found.1

/-- What `_retailer_google_tokens_for_info` adds to the tokens. -/
def Tokens.told (isNew : Bool) (profile : Option RetailerProfile) (tokens : Tokens) : Tokens :=
  let status := profile.elim "incomplete" RetailerProfile.approvalStatus
  { tokens with
    isNew := some isNew, approvalStatus := some status
    message := some (googleMessage isNew status) }

/-- `_retailer_google_tokens_for_info`. -/
def retailerGoogleTokensForInfo (info : GoogleInfo) (email hex : String) : Handler Tokens := do
  let isNew := (userByEmail (← get) email).isNone
  let userId ← googleRetailer info email hex
  commit
  ensureRetailerStub userId
  let profile ← gateProfile userId
  let tokens ← issueTokens userId
  return tokens.told isNew profile

/-- `retailer_google_login`. -/
def retailerGoogleLogin (info? : Option GoogleInfo) (hex : String) (termsAccepted : Bool) :
    Handler Tokens := do
  raiseIf (termsAccepted = false) (.badRequest "Accept terms and privacy policy")
  let info ← orRaise info? invalidGoogleToken
  let email ← orRaise (truthy info.email) invalidGoogleToken
  retailerGoogleTokensForInfo info email hex

/-- A password, or a code where there is none. -/
def passwordOrCode (verifyPassword : String → String → Bool) (now : ℕ) (phone : String)
    (user : User) (password code : Option String) (invalid : AppError) : Handler Unit :=
  match truthy password, truthy code with
  | some password, _ => raiseIf (verified verifyPassword password user = false) invalid
  | none, some code => do
    useLoginOtp now phone code
    commit
  | none, none => raise (.badRequest "Provide password or OTP code")

/-- `retailer_login`. -/
def retailerLogin (verifyPassword : String → String → Bool) (now : ℕ) (phone : String)
    (password code : Option String) : Handler Tokens := do
  let db ← get
  let retailer ← orRaise
    ((roleByPhone db .retailer (normalizePhone phone)).filter fun r => r.2.isActive)
    (.unauthorized "Invalid retailer credentials")
  passwordOrCode verifyPassword now (normalizePhone phone) retailer.2 password code
    (.unauthorized "Invalid retailer credentials")
  let _ ← gateProfile retailer.1
  issueTokens retailer.1

/-! ## Riders, passwords and refreshed tokens -/

/-- `delivery_login`. -/
def deliveryLogin (verifyPassword : String → String → Bool) (now : ℕ) (phone : String)
    (password code : Option String) : Handler Tokens := do
  let db ← get
  let rider ← orRaise
    ((roleByPhone db .delivery (normalizePhone phone)).filter fun r => r.2.isActive)
    (.unauthorized "Invalid delivery credentials")
  passwordOrCode verifyPassword now (normalizePhone phone) rider.2 password code
    (.unauthorized "Invalid delivery credentials")
  issueTokens rider.1

/-- `reset_password`, where the password hashes to `passwordHash`. -/
def resetPassword (now : ℕ) (phone code passwordHash : String) : Handler String := do
  let otp ← checkOtp now (normalizePhone phone) code (some "reset")
  let db ← get
  let found ← orRaise (userByPhone db (normalizePhone phone)) (.notFound "User not found")
  modify (used otp.1)
  modifyCache fun redis => redis.delete (otpKey "reset" (normalizePhone phone))
  changeUser found.1 fun u => { u with passwordHash := some passwordHash }
  commit
  return "Password updated"

/-- The payload of a refresh token: its type and its user. -/
structure Payload where
  type : Option String
  sub : ℕ

/-- `refresh_tokens`, where the token decodes to `payload?`. -/
def refreshTokens (payload? : Option Payload) : Handler Tokens := do
  let payload ← orRaise (payload?.filter fun p => p.type = some "refresh")
    (.unauthorized "Invalid or revoked refresh token")
  let db ← get
  let _ ← orRaise ((db.users.get? payload.sub).filter User.isActive) (.unauthorized "User inactive")
  issueTokens payload.sub

end Auth

end SweetCrust
