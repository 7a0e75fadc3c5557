import SweetCrust.Auth.SignIn

/-!
# The gate of the sign-ins

Nine functions issue tokens, and each of them checks for itself who may have them.  A login that
adds the user adds an active one; a user it finds is looked at for the role, and only by some for
whether the account is active.  The gate of the shops lets a shop without a profile pass, and
refreshing tokens asks nothing but that the user is active.

* `SignIn`, `SignIn.handler`, `SignIn.role` — the sign-ins.
* `Gate` — who tokens are to be issued to.
* `SignIn.Meets` — what a sign-in leaves unchecked.
* `gate_iff` — the tokens that are issued pass the gate exactly where that holds.
-/

namespace SweetCrust

open Tabular Transaction Text

namespace Auth

/-! ## The sign-ins -/

inductive SignIn
  | verifyOtp (now : ℕ) (phone code : String) (name email : Option String) (termsAccepted : Bool)
  | google (info? : Option GoogleInfo) (termsAccepted : Bool)
  | admin (verifyPassword : String → String → Bool) (password : String)
      (phone email : Option String)
  | adminOtp (now : ℕ) (phone code : String)
  | retailerOtp (now : ℕ) (phone code : String) (name : Option String) (termsAccepted : Bool)
  | retailerGoogle (info? : Option GoogleInfo) (hex : String) (termsAccepted : Bool)
  | retailer (verifyPassword : String → String → Bool) (now : ℕ) (phone : String)
      (password code : Option String)
  | delivery (verifyPassword : String → String → Bool) (now : ℕ) (phone : String)
      (password code : Option String)
  | refresh (payload? : Option Payload)

def SignIn.handler : SignIn → Handler Tokens
  | .verifyOtp now phone code name email terms => verifyOtpAndLogin now phone code name email terms
  | .google info? terms => googleLogin info? terms
  | .admin verifyPassword password phone email => adminLogin verifyPassword password phone email
  | .adminOtp now phone code => adminOtpLogin now phone code
  | .retailerOtp now phone code name terms => retailerOtpLogin now phone code name terms
  | .retailerGoogle info? hex terms => retailerGoogleLogin info? hex terms
  | .retailer verifyPassword now phone password code =>
    retailerLogin verifyPassword now phone password code
  | .delivery verifyPassword now phone password code =>
    deliveryLogin verifyPassword now phone password code
  | .refresh payload? => refreshTokens payload?

/-- The role of the endpoint; tokens are refreshed for any role. -/
def SignIn.role : SignIn → Option UserRole
  | .verifyOtp .. | .google .. => some .customer
  | .admin .. | .adminOtp .. => some .admin
  | .retailerOtp .. | .retailerGoogle .. | .retailer .. => some .retailer
  | .delivery .. => some .delivery
  | .refresh .. => none

/-- The user has a shop that is neither blocked nor rejected. -/
def ShopPasses (db : Store) (userId : ℕ) : Prop :=
  ∃ r ∈ profileOf db userId, r.2.isBlocked = false ∧ r.2.approvalStatus ≠ "rejected"

/-- What a role asks of its users. -/
def RolePasses (db : Store) (userId : ℕ) (user : User) : Prop :=
  (user.role = .admin → user.emailVerified = true) ∧
    (user.role = .retailer → ShopPasses db userId)

/-- The user may have tokens. -/
def Allowed (db : Store) (role : Option UserRole) (userId : ℕ) : Prop :=
  ∃ user ∈ db.users.get? userId,
    user.isActive = true ∧ (∀ r ∈ role, user.role = r) ∧ RolePasses db userId user

/-- The tokens are issued to a user who may have them, and have that user's role. -/
def Gate (db : Store) (role : Option UserRole) (tokens : Tokens) : Prop :=
  Allowed db role tokens.sub ∧ ∀ user ∈ db.users.get? tokens.sub, tokens.role = user.role

/-- Who is found is active. -/
def Active (found : Option (ℕ × User)) : Prop := ∀ r ∈ found, r.2.isActive = true

/-- What a sign-in leaves unchecked. -/
def SignIn.Meets (db : Store) : SignIn → Prop
  | .verifyOtp _ phone .. | .retailerOtp _ phone .. => Active (userByPhone db (normalizePhone phone))
  | .google info? _ | .retailerGoogle info? .. =>
    ∀ info ∈ info?, ∀ email ∈ truthy info.email, Active (userByEmail db email)
  | .adminOtp _ phone _ => Active (roleByPhone db .admin (normalizePhone phone))
  | .retailer _ _ phone .. =>
    ∀ r ∈ roleByPhone db .retailer (normalizePhone phone), (profileOf db r.1).isSome
  | .refresh payload? => ∀ p ∈ payload?, ∀ user ∈ db.users.get? p.sub, RolePasses db p.sub user
  | .admin .. | .delivery .. => True

/-! ## What the steps of a sign-in leave alone -/

section Keeping

variable {now : ℕ} {phone code : String}

/-- The users and the shops. -/
def people (db : Store) : Table User × Table RetailerProfile := (db.users, db.profiles)

theorem keeps_checkOtp (purpose : Option String) :
    Keeps people (checkOtp now phone code purpose) := by
  unfold checkOtp
  refine keeps_getCache.bind fun redis => frames_get.keeps.bind fun db => ?_
  split_ifs
  · cases unusedOtp db phone code none with
    | some r => exact (frames_pure r).keeps
    | none =>
      refine (frames_modify (by intro; rfl)).keeps.bind fun _ => ?_
      exact seals_commit.keeps.bind fun _ => (frames_pure _).keeps
  · refine (frames_orRaise _ _).keeps.bind fun r => ?_
    exact (frames_raiseIf _ _).keeps.bind fun _ => (frames_pure r).keeps

theorem keeps_useLoginOtp : Keeps people (useLoginOtp now phone code) := by
  unfold useLoginOtp
  refine (keeps_checkOtp none).bind fun otp => (frames_modify (by intro; rfl)).keeps.bind fun _ => ?_
  exact (keeps_modifyCache _).bind fun _ => keeps_modifyCache _

theorem keeps_passwordOrCode (verifyPassword : String → String → Bool) (user : User)
    (password code : Option String) (invalid : AppError) :
    Keeps people (passwordOrCode verifyPassword now phone user password code invalid) := by
  unfold passwordOrCode
  cases truthy password with
  | some p => exact (frames_raiseIf _ _).keeps
  | none =>
    cases truthy code with
    | some c => exact keeps_useLoginOtp.bind fun _ => seals_commit.keeps
    | none => exact (seals_raise _).keeps

theorem keeps_ensureRetailerStub (userId : ℕ) :
    Keeps Store.users (ensureRetailerStub userId) := by
  unfold ensureRetailerStub
  refine frames_get.keeps.bind fun db => (frames_orRaise _ _).keeps.bind fun user => ?_
  cases profileOf db userId with
  | some r =>
    dsimp only
    split
    · exact (frames_modify (by intro; rfl)).keeps.bind fun _ => seals_commit.keeps
    · exact (frames_pure ()).keeps
  | none => exact (frames_modify (by intro; rfl)).keeps.bind fun _ => seals_commit.keeps

end Keeping

/-! ## Who is let through -/

section Passing

variable {w v : World Store Redis} {userId : ℕ} {tokens : Tokens} {role : Option UserRole}

theorem allowed_congr {db db' : Store} (h : people db' = people db) :
    Allowed db' role userId ↔ Allowed db role userId := by
  have husers : db'.users = db.users := congrArg Prod.fst h
  have hprofiles : db'.profiles = db.profiles := congrArg Prod.snd h
  unfold Allowed RolePasses ShopPasses profileOf
  rw [husers, hprofiles]

/-- The tokens that are issued to a user pass the gate where the user does. -/
theorem gate_issueTokens (h : issueTokens userId w = (.ok tokens, v)) :
    Gate v.saved role tokens ↔ Allowed w.work role userId := by
  unfold issueTokens at h
  rw [modify_bind, commit_bind, get_bind] at h
  dsimp only at h
  rw [Table.get?_modify_self] at h
  cases hget : w.work.users.get? userId with
  | none =>
    rw [hget, Option.map_none, orRaise_none_bind] at h
    cases h
  | some user =>
    rw [hget, Option.map_some, orRaise_some_bind] at h
    cases h
    simp [Gate, Allowed, RolePasses, ShopPasses, profileOf, hget]

/-- A retailer that passes the gate of the shops has no blocked or rejected shop. -/
theorem gateProfile_ok {profile : Option RetailerProfile}
    (h : gateProfile userId w = (.ok profile, v)) :
    v = w ∧ (ShopPasses w.work userId ↔ (profileOf w.work userId).isSome) := by
  unfold gateProfile retailerGateLogin at h
  rw [get_bind, bind_assoc_run, raiseIf_bind] at h
  split_ifs at h with hrejected
  · cases h
  · rw [raiseIf_bind] at h
    split_ifs at h with hblocked
    · cases h
    · cases h
      refine ⟨rfl, ?_⟩
      cases hprofile : profileOf w.work userId with
      | none => simp [ShopPasses, hprofile]
      | some r =>
        rw [hprofile] at hrejected hblocked
        simpa [ShopPasses, hprofile] using And.intro hblocked hrejected

/-- After a shop was looked for there is one. -/
theorem profileOf_ensured (h : ensureRetailerStub userId w = (.ok (), v)) :
    (profileOf v.work userId).isSome := by
  unfold ensureRetailerStub at h
  rw [get_bind] at h
  cases huser : w.work.users.get? userId with
  | none =>
    rw [huser, orRaise_none_bind] at h
    cases h
  | some user =>
    rw [huser, orRaise_some_bind] at h
    cases hprofile : profileOf w.work userId with
    | some r =>
      rw [hprofile] at h
      dsimp only at h
      split at h
      · cases h
        unfold profileOf at hprofile ⊢
        dsimp only
        rw [Table.first?_modify, hprofile]
        · rfl
        · intro p
          rfl
      · cases h
        rw [hprofile]
        rfl
    | none =>
      rw [hprofile] at h
      cases h
      unfold profileOf at hprofile ⊢
      dsimp only
      rw [Table.first?_insert, hprofile]
      simp

end Passing

/-! ## Who is found or added -/

section Joining

variable {w v : World Store Redis} {i userId : ℕ} {role : UserRole} {phone email : String}
  {termsAccepted : Bool}

/-- The user of the role that was found or added: one who was added is active. -/
def Joined (found : Option (ℕ × User)) (role : UserRole) (db : Store) (userId : ℕ) : Prop :=
  ∃ user ∈ db.users.get? userId, user.role = role ∧ (user.isActive = true ↔ Active found)

theorem joined_addUser {user : User} (h : addUser user w = (.ok userId, v))
    (hrole : user.role = role) (hactive : user.isActive = true) :
    Joined none role v.work userId := by
  unfold addUser at h
  rw [get_bind, raiseIf_bind] at h
  split_ifs at h
  · cases h
  · cases h
    refine ⟨user, ?_, hrole, ?_⟩
    · simp
    · simp [Active, hactive]

/-- A user who has accepted the terms is added. -/
theorem joined_terms {user : User} {e : AppError}
    (h : (raiseIf (termsAccepted = false) e >>= fun _ => addUser user) w = (.ok userId, v))
    (hrole : user.role = role) (hactive : user.isActive = true) :
    Joined none role v.work userId := by
  rw [raiseIf_bind] at h
  split_ifs at h
  · cases h
  · exact joined_addUser h hrole hactive

/-- A user who was found is refused for the role, or changed. -/
theorem joined_found {r : ℕ × User} {e : AppError} {change : User → User}
    (h : (raiseIf (r.2.role ≠ role) e >>= fun _ => changeUser r.1 change >>= fun _ => pure r.1) w =
      (.ok userId, v)) (hget : w.work.users.get? r.1 = some r.2)
    (hchange : ∀ u, (change u).role = u.role ∧ (change u).isActive = u.isActive) :
    Joined (some r) role v.work userId := by
  rw [raiseIf_bind] at h
  split_ifs at h with hrole
  · cases h
  · unfold changeUser at h
    rw [modify_bind] at h
    cases h
    refine ⟨change r.2, ?_, ?_, ?_⟩
    · simp [hget]
    · rw [(hchange r.2).1, not_not.1 hrole]
    · simp [Active, (hchange r.2).2]

theorem joined_otpCustomer {name mail : Option String}
    (h : otpCustomer phone name mail termsAccepted w = (.ok userId, v)) :
    Joined (userByPhone w.work phone) .customer v.work userId := by
  unfold otpCustomer at h
  rw [get_bind] at h
  cases hfound : userByPhone w.work phone with
  | none =>
    rw [hfound] at h
    exact joined_terms h rfl rfl
  | some found =>
    rw [hfound] at h
    exact joined_found h (Table.get?_of_first? hfound).1 fun u => ⟨rfl, rfl⟩

theorem joined_otpRetailer {name : Option String}
    (h : otpRetailer phone name termsAccepted w = (.ok userId, v)) :
    Joined (userByPhone w.work phone) .retailer v.work userId := by
  unfold otpRetailer at h
  rw [get_bind] at h
  cases hfound : userByPhone w.work phone with
  | none =>
    rw [hfound] at h
    exact joined_terms h rfl rfl
  | some found =>
    rw [hfound] at h
    exact joined_found h (Table.get?_of_first? hfound).1 fun u => ⟨rfl, rfl⟩

theorem joined_googleCustomer {info : GoogleInfo}
    (h : googleCustomer info email termsAccepted w = (.ok userId, v)) :
    Joined (userByEmail w.work email) .customer v.work userId := by
  unfold googleCustomer at h
  rw [get_bind] at h
  cases hfound : userByEmail w.work email with
  | none =>
    rw [hfound] at h
    exact joined_terms h rfl rfl
  | some found =>
    rw [hfound] at h
    exact joined_found h (Table.get?_of_first? hfound).1 fun u => ⟨rfl, rfl⟩

theorem joined_googleRetailer {info : GoogleInfo} {hex : String}
    (h : googleRetailer info email hex w = (.ok userId, v)) :
    Joined (userByEmail w.work email) .retailer v.work userId := by
  unfold googleRetailer at h
  rw [get_bind] at h
  cases hfound : userByEmail w.work email with
  | none =>
    rw [hfound] at h
    exact joined_addUser h rfl rfl
  | some found =>
    rw [hfound] at h
    exact joined_found h (Table.get?_of_first? hfound).1 fun u => ⟨rfl, rfl⟩

/-- A customer who joins may have tokens where the one who was found is active. -/
theorem allowed_of_joined {found : Option (ℕ × User)} {db : Store}
    (h : Joined found .customer db userId) :
    Allowed db (some .customer) userId ↔ Active found := by
  obtain ⟨user, hget, hrole, hactive⟩ := h
  have hget' : db.users.get? userId = some user := hget
  simp [Allowed, RolePasses, hget', hrole, hactive]

/-- A retailer who joins and whose shop passes, likewise. -/
theorem allowed_of_joined_retailer {found : Option (ℕ × User)} {db : Store}
    (h : Joined found .retailer db userId) (hshop : ShopPasses db userId) :
    Allowed db (some .retailer) userId ↔ Active found := by
  obtain ⟨user, hget, hrole, hactive⟩ := h
  have hget' : db.users.get? userId = some user := hget
  simp [Allowed, RolePasses, hget', hrole, hactive, hshop]

/-- What comes after a retailer has joined: the shop is looked for, and has to pass. -/
theorem gate_retailer {found : Option (ℕ × User)} {tokens : Tokens}
    (h : Joined found .retailer w.work userId) {profile : Option RetailerProfile}
    {u x : World Store Redis} (hstub : ensureRetailerStub userId w = (.ok (), u))
    (hgate : gateProfile userId u = (.ok profile, x)) (hissue : issueTokens userId x = (.ok tokens, v)) :
    Gate v.saved (some .retailer) tokens ↔ Active found := by
  obtain ⟨rfl, hshop⟩ := gateProfile_ok hgate
  have husers : x.work.users = w.work.users := (keeps_ensureRetailerStub userId).of_run hstub
  rw [gate_issueTokens hissue]
  refine allowed_of_joined_retailer ?_ (hshop.2 (profileOf_ensured hstub))
  unfold Joined at h ⊢
  rwa [husers]

end Joining

/-! ## The sign-ins, one by one -/

section Paths

variable {w v : World Store Redis} {now : ℕ} {phone code : String} {termsAccepted : Bool}
  {info? : Option GoogleInfo} {tokens : Tokens} {role : Option UserRole}
  {verifyPassword : String → String → Bool}

/-- The user of a role that was found. -/
theorem of_roleByPhone {db : Store} {role : UserRole} {r : ℕ × User}
    (h : roleByPhone db role phone = some r) :
    db.users.get? r.1 = some r.2 ∧ r.2.role = role := by
  obtain ⟨hget, hp⟩ := Table.get?_of_first? h
  exact ⟨hget, (of_decide_eq_true hp).2⟩

theorem gate_verifyOtp {name email : Option String}
    (h : verifyOtpAndLogin now phone code name email termsAccepted w = (.ok tokens, v)) :
    Gate v.saved (some .customer) tokens ↔
      Active (userByPhone w.work (normalizePhone phone)) := by
  obtain ⟨_, u, huse, h⟩ := bind_ok_iff.1 h
  obtain ⟨i, x, hjoin, h⟩ := bind_ok_iff.1 h
  rw [commit_bind] at h
  have husers : u.work.users = w.work.users := congrArg Prod.fst (keeps_useLoginOtp.of_run huse)
  rw [gate_issueTokens h, allowed_of_joined (joined_otpCustomer hjoin)]
  unfold userByPhone
  rw [husers]

theorem gate_google (h : googleLogin info? termsAccepted w = (.ok tokens, v)) :
    Gate v.saved (some .customer) tokens ↔
      ∀ info ∈ info?, ∀ email ∈ truthy info.email, Active (userByEmail w.work email) := by
  unfold googleLogin at h
  cases info? with
  | none => cases h
  | some info =>
    rw [orRaise_some_bind] at h
    cases hemail : truthy info.email with
    | none =>
      rw [hemail] at h
      cases h
    | some email =>
      rw [hemail, orRaise_some_bind] at h
      obtain ⟨i, x, hjoin, h⟩ := bind_ok_iff.1 h
      rw [commit_bind] at h
      rw [gate_issueTokens h, allowed_of_joined (joined_googleCustomer hjoin)]
      simp [hemail]

/-- An admin who gave the password has to be active and verified. -/
theorem gate_admitted {password : String} {found : Option (ℕ × User)} {e₁ e₂ e₃ : AppError}
    (h : (orRaise (found.filter fun r => verified verifyPassword password r.2) e₁ >>= fun admin =>
      raiseIf (admin.2.isActive = false) e₂ >>= fun _ =>
      raiseIf (admin.2.emailVerified = false) e₃ >>= fun _ => issueTokens admin.1) w =
        (.ok tokens, v))
    (hfound : ∀ r ∈ found, w.work.users.get? r.1 = some r.2 ∧ r.2.role = .admin) :
    Gate v.saved (some .admin) tokens := by
  cases hpassword : found.filter fun r => verified verifyPassword password r.2 with
  | none =>
    rw [hpassword, orRaise_none_bind] at h
    cases h
  | some r =>
    rw [hpassword, orRaise_some_bind, raiseIf_bind] at h
    split_ifs at h with hactive
    · cases h
    rw [raiseIf_bind] at h
    split_ifs at h with hverified
    · cases h
    obtain ⟨hget, hrole⟩ := hfound r (Option.filter_eq_some_iff.1 hpassword).1
    rw [gate_issueTokens h]
    simp [Allowed, RolePasses, hget, hrole, hactive, hverified]

theorem gate_admin {password : String} {phone email : Option String}
    (h : adminLogin verifyPassword password phone email w = (.ok tokens, v)) :
    Gate v.saved (some .admin) tokens := by
  unfold adminLogin at h
  rw [raiseIf_bind] at h
  split_ifs at h with hnone
  · cases h
  rw [get_bind] at h
  cases hphone : truthy phone with
  | some given =>
    rw [hphone] at h
    exact gate_admitted h fun r hr => of_roleByPhone hr
  | none =>
    rw [hphone] at h
    refine gate_admitted h fun r hr => ?_
    obtain ⟨hget, hp⟩ := Table.get?_of_first? hr
    exact ⟨hget, (of_decide_eq_true hp).2⟩

theorem gate_adminOtp (h : adminOtpLogin now phone code w = (.ok tokens, v)) :
    Gate v.saved (some .admin) tokens ↔
      Active (roleByPhone w.work .admin (normalizePhone phone)) := by
  unfold adminOtpLogin at h
  rw [get_bind] at h
  cases hfound : roleByPhone w.work .admin (normalizePhone phone) with
  | none =>
    rw [hfound] at h
    cases h
  | some r =>
    rw [hfound, orRaise_some_bind, raiseIf_bind] at h
    split_ifs at h with hverified
    · cases h
    obtain ⟨_, u, huse, h⟩ := bind_ok_iff.1 h
    rw [commit_bind] at h
    obtain ⟨hget, hrole⟩ := of_roleByPhone hfound
    rw [gate_issueTokens h, allowed_congr (keeps_useLoginOtp.of_run huse)]
    simp [Allowed, RolePasses, Active, hget, hrole, hverified]

theorem gate_retailerOtp {name : Option String}
    (h : retailerOtpLogin now phone code name termsAccepted w = (.ok tokens, v)) :
    Gate v.saved (some .retailer) tokens ↔
      Active (userByPhone w.work (normalizePhone phone)) := by
  obtain ⟨_, u, huse, h⟩ := bind_ok_iff.1 h
  obtain ⟨i, x, hjoin, h⟩ := bind_ok_iff.1 h
  rw [commit_bind] at h
  obtain ⟨_, y, hstub, h⟩ := bind_ok_iff.1 h
  obtain ⟨profile, z, hgate, hissue⟩ := bind_ok_iff.1 h
  have husers : u.work.users = w.work.users := congrArg Prod.fst (keeps_useLoginOtp.of_run huse)
  have hjoined := joined_otpRetailer hjoin
  unfold userByPhone at hjoined ⊢
  rw [husers] at hjoined
  exact gate_retailer (w := ⟨x.work, x.work, x.cache⟩) hjoined hstub hgate hissue

theorem gate_told {db : Store} {isNew : Bool} {profile : Option RetailerProfile} :
    Gate db role (tokens.told isNew profile) ↔ Gate db role tokens := Iff.rfl

theorem gate_retailerGoogle {hex : String}
    (h : retailerGoogleLogin info? hex termsAccepted w = (.ok tokens, v)) :
    Gate v.saved (some .retailer) tokens ↔
      ∀ info ∈ info?, ∀ email ∈ truthy info.email, Active (userByEmail w.work email) := by
  unfold retailerGoogleLogin at h
  rw [raiseIf_bind] at h
  split_ifs at h with hterms
  · cases h
  cases info? with
  | none => cases h
  | some info =>
    rw [orRaise_some_bind] at h
    cases hemail : truthy info.email with
    | none =>
      rw [hemail] at h
      cases h
    | some email =>
      rw [hemail, orRaise_some_bind] at h
      unfold retailerGoogleTokensForInfo at h
      rw [get_bind] at h
      obtain ⟨i, x, hjoin, h⟩ := bind_ok_iff.1 h
      rw [commit_bind] at h
      obtain ⟨_, y, hstub, h⟩ := bind_ok_iff.1 h
      obtain ⟨profile, z, hgate, h⟩ := bind_ok_iff.1 h
      obtain ⟨issued, u, hissue, h⟩ := bind_ok_iff.1 h
      cases h
      have hjoined := joined_googleRetailer hjoin
      rw [gate_told, gate_retailer (w := ⟨x.work, x.work, x.cache⟩) hjoined hstub hgate hissue]
      simp [hemail]

theorem gate_retailerLogin {password code : Option String}
    (h : retailerLogin verifyPassword now phone password code w = (.ok tokens, v)) :
    Gate v.saved (some .retailer) tokens ↔
      ∀ r ∈ roleByPhone w.work .retailer (normalizePhone phone), (profileOf w.work r.1).isSome := by
  unfold retailerLogin at h
  rw [get_bind] at h
  cases hfound : (roleByPhone w.work .retailer (normalizePhone phone)).filter
      fun r => r.2.isActive with
  | none =>
    rw [hfound] at h
    cases h
  | some r =>
    rw [hfound, orRaise_some_bind] at h
    obtain ⟨hrole, hactive⟩ := Option.filter_eq_some_iff.1 hfound
    obtain ⟨_, u, hpass, hrest⟩ := bind_ok_iff.1 h
    obtain ⟨profile, x, hgate, hissue⟩ := bind_ok_iff.1 hrest
    obtain ⟨rfl, hshop⟩ := gateProfile_ok hgate
    have hpeople := (keeps_passwordOrCode verifyPassword r.2 password code _).of_run hpass
    have hprofiles : profileOf x.work r.1 = profileOf w.work r.1 := by
      unfold profileOf
      rw [show x.work.profiles = w.work.profiles from congrArg Prod.snd hpeople]
    have hshop' : ShopPasses w.work r.1 ↔ (profileOf w.work r.1).isSome := by
      unfold ShopPasses at hshop ⊢
      rwa [hprofiles] at hshop
    obtain ⟨hget, hretailer⟩ := of_roleByPhone hrole
    rw [gate_issueTokens hissue, allowed_congr hpeople]
    simp [Allowed, RolePasses, hget, hretailer, hactive, hrole, hshop']

theorem gate_delivery {password code : Option String}
    (h : deliveryLogin verifyPassword now phone password code w = (.ok tokens, v)) :
    Gate v.saved (some .delivery) tokens := by
  unfold deliveryLogin at h
  rw [get_bind] at h
  cases hfound : (roleByPhone w.work .delivery (normalizePhone phone)).filter
      fun r => r.2.isActive with
  | none =>
    rw [hfound] at h
    cases h
  | some r =>
    rw [hfound, orRaise_some_bind] at h
    obtain ⟨hrole, hactive⟩ := Option.filter_eq_some_iff.1 hfound
    obtain ⟨_, u, hpass, h⟩ := bind_ok_iff.1 h
    obtain ⟨hget, hrider⟩ := of_roleByPhone hrole
    have hkept := (keeps_passwordOrCode verifyPassword r.2 password code _).of_run hpass
    rw [gate_issueTokens h, allowed_congr hkept]
    simp [Allowed, RolePasses, hget, hrider, hactive]

theorem gate_refresh {payload? : Option Payload}
    (h : refreshTokens payload? w = (.ok tokens, v)) :
    Gate v.saved none tokens ↔
      ∀ p ∈ payload?, ∀ user ∈ w.work.users.get? p.sub, RolePasses w.work p.sub user := by
  unfold refreshTokens at h
  cases hpayload : payload?.filter fun p => p.type = some "refresh" with
  | none =>
    rw [hpayload] at h
    cases h
  | some p =>
    rw [hpayload, orRaise_some_bind, get_bind] at h
    obtain ⟨rfl, htype⟩ := Option.filter_eq_some_iff.1 hpayload
    cases huser : (w.work.users.get? p.sub).filter User.isActive with
    | none =>
      rw [huser] at h
      cases h
    | some user =>
      rw [huser, orRaise_some_bind] at h
      obtain ⟨hget, hactive⟩ := Option.filter_eq_some_iff.1 huser
      rw [gate_issueTokens h]
      simp [Allowed, hget, hactive]

end Paths

/-! ## All of them -/

/-- Tokens that are issued pass the gate exactly where what the sign-in leaves unchecked holds. -/
theorem gate_iff {call : SignIn} {db db' : Store} {redis redis' : Redis} {tokens : Tokens}
    (h : request call.handler db redis = (.ok tokens, db', redis')) :
    Gate db' call.role tokens ↔ call.Meets db := by
  let w : World Store Redis := { work := db, saved := db, cache := redis }
  obtain ⟨v, hrun, rfl⟩ : ∃ v, call.handler w = (.ok tokens, v) ∧ v.saved = db' := by
    obtain ⟨hok, hrest⟩ := Prod.mk.inj h
    exact ⟨(call.handler w).2, Prod.ext hok rfl, congrArg Prod.fst hrest⟩
  cases call with
  | verifyOtp now phone code name email terms => exact gate_verifyOtp hrun
  | google info? terms => exact gate_google hrun
  | admin verifyPassword password phone email => exact iff_of_true (gate_admin hrun) trivial
  | adminOtp now phone code => exact gate_adminOtp hrun
  | retailerOtp now phone code name terms => exact gate_retailerOtp hrun
  | retailerGoogle info? hex terms => exact gate_retailerGoogle hrun
  | retailer verifyPassword now phone password code => exact gate_retailerLogin hrun
  | delivery verifyPassword now phone password code =>
    exact iff_of_true (gate_delivery hrun) trivial
  | refresh payload? => exact gate_refresh hrun

/-- A rider signs in with a password. -/
theorem gate_iff_rider :
    let rider : User :=
      { phone := "+919876543210", name := none, role := .delivery, totalOrders := 0
        passwordHash := some "hash" }
    let db : Store := { users := Table.empty.insert rider }
    let call : SignIn :=
      .delivery (fun password hash => password = hash) 0 "9876543210" (some "hash") none
    let out := request call.handler db .empty
    ∃ tokens, out.1 = .ok tokens ∧ (Gate out.2.1 call.role tokens ↔ call.Meets db) := by
  intro rider db call out
  exact ⟨_, rfl, gate_iff rfl⟩

/-- A shop that was rejected goes on with refreshed tokens. -/
theorem rejected_shop_refreshes :
    ¬ ∀ (call : SignIn) (db db' : Store) (redis redis' : Redis) (tokens : Tokens),
      request call.handler db redis = (.ok tokens, db', redis') → Gate db' call.role tokens := by
  intro h
  let shop : RetailerProfile :=
    { userId := 1, shopName := "My Shop", creditAllowed := false, creditLimit := 0
      outstandingBalance := 0, payableBalance := 0, isWholesaler := false, isBlocked := false
      approvalStatus := "rejected" }
  let owner : User :=
    { phone := "+919876543210", name := none, role := .retailer, totalOrders := 0 }
  let db : Store :=
    { users := Table.empty.insert owner, profiles := Table.empty.insert shop }
  have hgate := h (.refresh (some ⟨some "refresh", 1⟩)) db _ .empty _ _ rfl
  obtain ⟨⟨user, huser, -, -, -, hshop⟩, -⟩ := hgate
  cases huser
  obtain ⟨r, hr, -, hstatus⟩ := hshop rfl
  cases hr
  exact hstatus rfl

end Auth

end SweetCrust
