import SweetCrust.StoreOps.Riders
import SweetCrust.Lib.Guard
import SweetCrust.Lib.Runs

/-!
# One account for a number

An account is found by its phone.  Shops and riders get accounts from the store, customers and
retailers when they log in with a code; each first looks for a user with the form of the phone.

* `createShop`, `SignUp`, `step` — `create_shop`, and the requests that may add a user.
* `Adds`, `adds_step` — a request adds at most one user, with a form that no user had.
* `OneEach` — no two users have phones of one number.
* `Alike` — two spellings of one number are one spelling, or both plain.
* `canonicalPhones` — when a number has one form, and one account.
-/

namespace SweetCrust

open Tabular Transaction Runs Decimal Text

namespace Accounts

/-- `ShopCreateIn`. -/
structure ShopCreateIn where
  phone : String
  password : String
  shopName : String
  ownerName : String
  contactPhone : Option String := none
  creditAllowed : Bool := true
  creditLimit : ℚ := 50000

/-- The profile of a new shop. -/
def shopProfile (userId : ℕ) (phone : String) (body : ShopCreateIn) : RetailerProfile :=
  { userId
    shopName := Auth.stripText body.shopName
    ownerName := some (Auth.stripText body.ownerName)
    contactPhone :=
      (truthy (some (Auth.stripText ((truthy body.contactPhone).getD phone)))).or (some phone)
    creditAllowed := body.creditAllowed
    creditLimit := body.creditLimit
    outstandingBalance := 0, payableBalance := 0, isWholesaler := false, isBlocked := false
    approvalStatus := "approved" }

/-- `create_shop`: it raises before it writes. -/
def createShop (hashPassword : String → Except AppError String) (body : ShopCreateIn) (db : Auth.Store) :
    Except AppError Auth.Store := do
  let phone := Phones.normalizePhone body.phone
  if body.password.length < 6 then
    throw (.badRequest "Password must be at least 6 characters")
  if (Auth.userByPhone db phone).isSome then throw (.conflict "Phone already in use")
  let passwordHash ← hashPassword body.password
  let user : User :=
    { phone
      name := some (Auth.stripText body.ownerName)
      passwordHash := some passwordHash
      role := .retailer
      totalOrders := 0
      termsAccepted := true
      isActive := true }
  return { db with
    users := db.users.insert user
    profiles := db.profiles.insert (shopProfile db.users.next phone body) }

structure Service where
  db : Auth.Store
  redis : Auth.Redis := .empty

/-- A request that may add a user, or logs somebody in with a code: a shop or a rider is entered,
or somebody logs in. -/
inductive SignUp
  | shop (hashPassword : String → Except AppError String) (body : ShopCreateIn)
  | rider (hashPassword : String → Except AppError String) (name phone : String) (password : Option String)
  | verify (now : ℕ) (phone code : String) (name email : Option String) (termsAccepted : Bool)
  | retailerOtp (now : ℕ) (phone code : String) (name : Option String) (termsAccepted : Bool)
  | adminOtp (now : ℕ) (phone code : String)
  | retailer (verifyPassword : String → String → Bool) (now : ℕ) (phone : String)
      (password code : Option String)
  | delivery (verifyPassword : String → String → Bool) (now : ℕ) (phone : String)
      (password code : Option String)

/-- The phone that a request gives. -/
def SignUp.phone : SignUp → String
  | .shop _ body => body.phone
  | .rider _ _ phone _ => phone
  | .verify _ phone _ _ _ _ => phone
  | .retailerOtp _ phone _ _ _ => phone
  | .adminOtp _ phone _ => phone
  | .retailer _ _ phone _ _ => phone
  | .delivery _ _ phone _ _ => phone

/-- What a request to the auth service leaves. -/
def Service.serve {α : Type} (m : Auth.Handler α) (s : Service) : Service :=
  let left := (request m s.db s.redis).2
  ⟨left.1, left.2⟩

/-- The service after a request. -/
def step (s : Service) : SignUp → Service
  | .shop hashPassword body =>
    match createShop hashPassword body s.db with
    | .ok db => { s with db }
    | .error _ => s
  | .rider hashPassword name phone password =>
    match Riders.ensureDeliveryUser hashPassword name phone password s.db.users with
    | .ok made => { s with db := { s.db with users := made.2 } }
    | .error _ => s
  | .verify now phone code name email termsAccepted =>
    s.serve (Auth.verifyOtpAndLogin now phone code name email termsAccepted)
  | .retailerOtp now phone code name termsAccepted =>
    s.serve (Auth.retailerOtpLogin now phone code name termsAccepted)
  | .adminOtp now phone code => s.serve (Auth.adminOtpLogin now phone code)
  | .retailer verifyPassword now phone password code =>
    s.serve (Auth.retailerLogin verifyPassword now phone password code)
  | .delivery verifyPassword now phone password code =>
    s.serve (Auth.deliveryLogin verifyPassword now phone password code)

/-! ## A request adds at most one user -/

/-- The phones of the users. -/
def phones (db : Auth.Store) : List String := db.users.rows.map fun r => r.2.phone

/-- The list is the old one, or has `phone` in addition, which the old one had not. -/
def Adds (phone : String) (old new : List String) : Prop :=
  new = old ∨ phone ∉ old ∧ new = old ++ [phone]

section Adding

variable {phone : String} {α : Type}

theorem adds_refl (old : List String) : Adds phone old old := Or.inl rfl

theorem adds_trans (l l' l'' : List String) (h : Adds phone l l') (h' : Adds phone l' l'') :
    Adds phone l l'' := by
  rcases h with rfl | ⟨hnot, rfl⟩
  · exact h'
  · rcases h' with rfl | ⟨hnot', -⟩
    · exact Or.inr ⟨hnot, rfl⟩
    · exact absurd (List.mem_append_right l (List.mem_singleton_self phone)) hnot'

/-- The part of a request adds at most a user with the phone. -/
abbrev AddsUser (phone : String) (m : Auth.Handler α) : Prop := Moves (Adds phone) phones m

theorem phones_modify (db : Auth.Store) {id : ℕ} {change : User → User}
    (h : ∀ u, db.users.get? id = some u → (change u).phone = u.phone) :
    phones { db with users := db.users.modify id change } = phones db := by
  unfold phones
  rw [Table.rows_modify, List.map_map]
  refine List.map_congr_left fun r hr => ?_
  by_cases hid : r.1 = id
  · simp [hid, h r.2 (hid ▸ Table.get?_eq_some.2 hr)]
  · simp [hid]

theorem addsUser_modify {f : Auth.Store → Auth.Store} (h : ∀ db, phones (f db) = phones db) :
    AddsUser phone (modify f : Auth.Handler Unit) :=
  moves_modify fun db => Or.inl (h db)

theorem AddsUser.bind {β : Type} {m : Auth.Handler α} {f : α → Auth.Handler β}
    (hm : AddsUser phone m) (hf : ∀ a, AddsUser phone (f a)) : AddsUser phone (m >>= f) :=
  Moves.bind adds_trans hm hf

theorem notMem_phones {db : Auth.Store} (h : Auth.userByPhone db phone = none) :
    phone ∉ phones db := by
  intro hmem
  obtain ⟨r, hr, rfl⟩ := List.mem_map.1 hmem
  simpa using Table.first?_eq_none.1 h r.1 r.2 (Table.get?_eq_some.2 hr)

theorem phones_insert (db : Auth.Store) (user : User) :
    phones { db with users := db.users.insert user } = phones db ++ [user.phone] := by
  unfold phones
  rw [Table.rows_insert, List.map_append]
  rfl

/-- A user is added only with a phone that no user has. -/
theorem addsUser_addUser {user : User} (h : user.phone = phone) :
    AddsUser phone (Auth.addUser user) := by
  have hrun (w : World Auth.Store Auth.Redis) : (Auth.addUser user w).2 = w ∨
      phone ∉ phones w.work ∧ (Auth.addUser user w).2 =
        { w with work := { w.work with users := w.work.users.insert user } } := by
    subst h
    unfold Auth.addUser
    cases hfound : Auth.userByPhone w.work user.phone with
    | none =>
      refine Or.inr ⟨notMem_phones hfound, ?_⟩
      simp [hfound]
    | some found =>
      refine Or.inl ?_
      simp [hfound]
  refine ⟨fun w => ?_, fun w => ?_⟩
  · rcases hrun w with heq | ⟨hnot, heq⟩
    · exact Or.inl (by rw [heq])
    · refine Or.inr ⟨hnot, ?_⟩
      rw [heq, phones_insert, h]
  · rcases hrun w with heq | ⟨_, heq⟩ <;> exact Or.inl (by rw [heq])

theorem addsUser_changeUser {id : ℕ} {change : User → User}
    (h : ∀ u, (change u).phone = u.phone) : AddsUser phone (Auth.changeUser id change) :=
  addsUser_modify fun db => phones_modify db fun u _ => h u

theorem addsUser_checkOtp (now : ℕ) (p code : String) (purpose : Option String) :
    AddsUser phone (Auth.checkOtp now p code purpose) := by
  unfold Auth.checkOtp
  refine (moves_getCache adds_refl).bind adds_trans fun redis => ?_
  refine (moves_get adds_refl).bind adds_trans fun db => ?_
  split
  · split
    · exact moves_pure adds_refl _
    · refine AddsUser.bind (addsUser_modify ?_) fun _ => ?_
      · exact fun _ => rfl
      · exact (moves_commit adds_refl).bind adds_trans fun _ => moves_pure adds_refl _
  · refine (moves_orRaise adds_refl _ _).bind adds_trans fun r => ?_
    exact (moves_raiseIf adds_refl _ _).bind adds_trans fun _ => moves_pure adds_refl _

theorem addsUser_useLoginOtp (now : ℕ) (p code : String) :
    AddsUser phone (Auth.useLoginOtp now p code) := by
  refine (addsUser_checkOtp now p code none).bind fun otp => ?_
  refine AddsUser.bind (addsUser_modify fun _ => rfl) fun _ => ?_
  exact (moves_modifyCache adds_refl _).bind adds_trans fun _ => moves_modifyCache adds_refl _

theorem addsUser_issueTokens (id : ℕ) : AddsUser phone (Auth.issueTokens id) := by
  refine AddsUser.bind (addsUser_modify fun db => phones_modify db fun _ _ => rfl) fun _ => ?_
  refine (moves_commit adds_refl).bind adds_trans fun _ => ?_
  refine (moves_get adds_refl).bind adds_trans fun db => ?_
  exact (moves_orRaise adds_refl _ _).bind adds_trans fun user => moves_pure adds_refl _

theorem addsUser_otpCustomer (name email : Option String) (termsAccepted : Bool) :
    AddsUser phone (Auth.otpCustomer phone name email termsAccepted) := by
  refine (moves_get adds_refl).bind adds_trans fun db => ?_
  split
  · exact (moves_raiseIf adds_refl _ _).bind adds_trans fun _ => addsUser_addUser rfl
  · refine (moves_raiseIf adds_refl _ _).bind adds_trans fun _ => ?_
    exact AddsUser.bind (addsUser_changeUser fun _ => rfl) fun _ => moves_pure adds_refl _

theorem addsUser_otpRetailer (name : Option String) (termsAccepted : Bool) :
    AddsUser phone (Auth.otpRetailer phone name termsAccepted) := by
  refine (moves_get adds_refl).bind adds_trans fun db => ?_
  split
  · exact (moves_raiseIf adds_refl _ _).bind adds_trans fun _ => addsUser_addUser rfl
  · refine (moves_raiseIf adds_refl _ _).bind adds_trans fun _ => ?_
    exact AddsUser.bind (addsUser_changeUser fun _ => rfl) fun _ => moves_pure adds_refl _

theorem addsUser_ensureRetailerStub (id : ℕ) : AddsUser phone (Auth.ensureRetailerStub id) := by
  refine (moves_get adds_refl).bind adds_trans fun db => ?_
  refine (moves_orRaise adds_refl _ _).bind adds_trans fun user => ?_
  split
  · dsimp only
    split
    · refine AddsUser.bind (addsUser_modify ?_) fun _ => moves_commit adds_refl
      exact fun _ => rfl
    · exact moves_pure adds_refl _
  · refine AddsUser.bind (addsUser_modify ?_) fun _ => moves_commit adds_refl
    exact fun _ => rfl

theorem addsUser_gateProfile (id : ℕ) : AddsUser phone (Auth.gateProfile id) := by
  refine (moves_get adds_refl).bind adds_trans fun db => ?_
  refine AddsUser.bind ?_ fun _ => moves_pure adds_refl _
  exact (moves_raiseIf adds_refl _ _).bind adds_trans fun _ => moves_raiseIf adds_refl _ _

theorem addsUser_passwordOrCode (verifyPassword : String → String → Bool) (now : ℕ) (p : String)
    (user : User) (password code : Option String) (invalid : AppError) :
    AddsUser phone (Auth.passwordOrCode verifyPassword now p user password code invalid) := by
  unfold Auth.passwordOrCode
  split
  · exact moves_raiseIf adds_refl _ _
  · exact (addsUser_useLoginOtp now p _).bind fun _ => moves_commit adds_refl
  · exact moves_raise adds_refl _

theorem addsUser_verify (now : ℕ) (p code : String) (name email : Option String)
    (termsAccepted : Bool) : AddsUser (Auth.normalizePhone p)
      (Auth.verifyOtpAndLogin now p code name email termsAccepted) := by
  refine (addsUser_useLoginOtp now _ code).bind fun _ => ?_
  refine (addsUser_otpCustomer name email termsAccepted).bind fun id => ?_
  exact (moves_commit adds_refl).bind adds_trans fun _ => addsUser_issueTokens id

theorem addsUser_retailerOtp (now : ℕ) (p code : String) (name : Option String)
    (termsAccepted : Bool) : AddsUser (Auth.normalizePhone p)
      (Auth.retailerOtpLogin now p code name termsAccepted) := by
  refine (addsUser_useLoginOtp now _ code).bind fun _ => ?_
  refine (addsUser_otpRetailer name termsAccepted).bind fun id => ?_
  refine (moves_commit adds_refl).bind adds_trans fun _ => ?_
  refine (addsUser_ensureRetailerStub id).bind fun _ => ?_
  exact (addsUser_gateProfile id).bind fun _ => addsUser_issueTokens id

theorem addsUser_adminOtp (now : ℕ) (p code : String) :
    AddsUser phone (Auth.adminOtpLogin now p code) := by
  refine (moves_get adds_refl).bind adds_trans fun db => ?_
  refine (moves_orRaise adds_refl _ _).bind adds_trans fun admin => ?_
  refine (moves_raiseIf adds_refl _ _).bind adds_trans fun _ => ?_
  refine (addsUser_useLoginOtp now _ code).bind fun _ => ?_
  exact (moves_commit adds_refl).bind adds_trans fun _ => addsUser_issueTokens _

theorem addsUser_retailer (verifyPassword : String → String → Bool) (now : ℕ) (p : String)
    (password code : Option String) :
    AddsUser phone (Auth.retailerLogin verifyPassword now p password code) := by
  refine (moves_get adds_refl).bind adds_trans fun db => ?_
  refine (moves_orRaise adds_refl _ _).bind adds_trans fun retailer => ?_
  refine (addsUser_passwordOrCode verifyPassword now _ _ password code _).bind fun _ => ?_
  exact (addsUser_gateProfile _).bind fun _ => addsUser_issueTokens _

theorem addsUser_delivery (verifyPassword : String → String → Bool) (now : ℕ) (p : String)
    (password code : Option String) :
    AddsUser phone (Auth.deliveryLogin verifyPassword now p password code) := by
  refine (moves_get adds_refl).bind adds_trans fun db => ?_
  refine (moves_orRaise adds_refl _ _).bind adds_trans fun rider => ?_
  refine (addsUser_passwordOrCode verifyPassword now _ _ password code _).bind fun _ => ?_
  exact addsUser_issueTokens _

/-- The form in which a request looks for its user. -/
def SignUp.form : SignUp → String
  | .shop _ body => Phones.normalizePhone body.phone
  | .rider _ _ phone _ => Phones.normalizePhone phone
  | r => Auth.normalizePhone r.phone

theorem adds_createShop {hashPassword : String → Except AppError String} {body : ShopCreateIn}
    {db t : Auth.Store} (h : createShop hashPassword body db = .ok t) :
    Adds (Phones.normalizePhone body.phone) (phones db) (phones t) := by
  unfold createShop at h
  split at h
  · cases h
  · cases hfound : Auth.userByPhone db (Phones.normalizePhone body.phone) with
    | some found =>
      simp only [hfound, Option.isSome_some, if_true] at h
      cases h
    | none =>
      simp only [hfound, Option.isSome_none] at h
      obtain ⟨_, -, hwrite⟩ := Guard.bind_eq_ok.1 h
      cases hwrite
      exact Or.inr ⟨notMem_phones hfound, phones_insert db _⟩

theorem adds_ensureDeliveryUser {hashPassword : String → Except AppError String} {name p : String}
    {password : Option String} {db : Auth.Store} {made : (ℕ × User) × Table User}
    (h : Riders.ensureDeliveryUser hashPassword name p password db.users = .ok made) :
    Adds (Phones.normalizePhone p) (phones db) (phones { db with users := made.2 }) := by
  unfold Riders.ensureDeliveryUser at h
  dsimp only at h
  split at h
  · cases h
  · split at h
    · cases h
    · cases hfound : Riders.userByPhone db.users (Phones.normalizePhone p) with
      | some found =>
        simp only [hfound] at h
        obtain ⟨_, -, hwrite⟩ := Guard.bind_eq_ok.1 h
        cases hwrite
        have hget := (Table.get?_of_first? hfound).1
        refine Or.inl (phones_modify db fun u hu => ?_)
        cases hget.symm.trans hu
        rfl
      | none =>
        simp only [hfound] at h
        split at h
        · cases h
        · obtain ⟨_, -, hwrite⟩ := Guard.bind_eq_ok.1 h
          cases hwrite
          exact Or.inr ⟨notMem_phones hfound, phones_insert db _⟩

/-- A request adds at most a user with its form. -/
theorem adds_step (s : Service) (r : SignUp) :
    Adds r.form (phones s.db) (phones (step s r).db) := by
  cases r with
  | shop hashPassword body =>
    cases h : createShop hashPassword body s.db with
    | ok db =>
      simp only [step, h]
      exact adds_createShop h
    | error e =>
      simp only [step, h]
      exact adds_refl _
  | rider hashPassword name p password =>
    cases h : Riders.ensureDeliveryUser hashPassword name p password s.db.users with
    | ok made =>
      simp only [step, h]
      exact adds_ensureDeliveryUser h
    | error e =>
      simp only [step, h]
      exact adds_refl _
  | verify now p code name email termsAccepted =>
    exact (addsUser_verify now p code name email termsAccepted).request adds_refl s.db s.redis
  | retailerOtp now p code name termsAccepted =>
    exact (addsUser_retailerOtp now p code name termsAccepted).request adds_refl s.db s.redis
  | adminOtp now p code => exact (addsUser_adminOtp now p code).request adds_refl s.db s.redis
  | retailer verifyPassword now p password code =>
    exact (addsUser_retailer verifyPassword now p password code).request adds_refl s.db s.redis
  | delivery verifyPassword now p password code =>
    exact (addsUser_delivery verifyPassword now p password code).request adds_refl s.db s.redis

end Adding

/-! ## One account for a number -/

/-- No two phones in the list are phones of one number. -/
def Apart (l : List String) : Prop := l.Pairwise fun p q => ¬ Phones.SameNumber p q

/-- No two users have phones of one number. -/
def OneEach (s : Service) : Prop := Apart (phones s.db)

/-- Two spellings are one, or neither is kept with anything but digits. -/
def Alike (p q : String) : Prop := p = q ∨ Phones.Plain p ∧ Phones.Plain q

instance (p q : String) : Decidable (Alike p q) := inferInstanceAs (Decidable (_ ∨ _))

/-- In the list, a number is spelt in ways that are alike. -/
def SpeltAlike (l : List String) : Prop :=
  ∀ p ∈ l, ∀ q ∈ l, Phones.SameNumber p q → Alike p q

instance (l : List String) : Decidable (SpeltAlike l) :=
  inferInstanceAs (Decidable (∀ p ∈ l, ∀ q ∈ l, Phones.SameNumber p q → Alike p q))

/-- Each user has a number of their own, and its form. -/
structure Settled (s : Service) : Prop where
  oneEach : OneEach s
  forms : ∀ p ∈ phones s.db, Phones.normalizePhone p = p

section Runs

variable {s : Service} {known : List String} {p q : String}

/-- What is known of the service when the phones in `known` have come to it: each number has one
account, which has the form of a phone that is known. -/
structure Inv (known : List String) (s : Service) : Prop where
  oneEach : OneEach s
  forms : ∀ q ∈ phones s.db, Phones.digits q ≠ [] →
    ∃ p ∈ known, Phones.SameNumber p q ∧ q = Phones.normalizePhone p

theorem apart_append {l : List String} (h : Apart l)
    (hq : ∀ p ∈ l, ¬ Phones.SameNumber p q) : Apart (l ++ [q]) :=
  List.pairwise_append.2 ⟨h, List.pairwise_singleton _ q, fun p hp _ hlast =>
    List.mem_singleton.1 hlast ▸ hq p hp⟩

/-- The form in which a request looks for its user is that of one of the two services. -/
theorem form_cases (r : SignUp) : r.form = Phones.normalizePhone r.phone ∨
    r.form = Auth.normalizePhone r.phone := by
  cases r with
  | shop => exact Or.inl rfl
  | rider => exact Or.inl rfl
  | verify => exact Or.inr rfl
  | retailerOtp => exact Or.inr rfl
  | adminOtp => exact Or.inr rfl
  | retailer => exact Or.inr rfl
  | delivery => exact Or.inr rfl

theorem form_eq {r : SignUp} (h : Phones.digits r.phone ≠ []) :
    r.form = Phones.normalizePhone r.phone := by
  rcases form_cases r with heq | heq
  · exact heq
  · rw [heq, Phones.auth_normalizePhone_eq h]

/-- A form has digits only if the phone has. -/
theorem digits_of_form {r : SignUp} (h : Phones.digits r.form ≠ []) :
    Phones.digits r.phone ≠ [] := by
  intro hnil
  refine h ?_
  rcases form_cases r with hform | hform
  · rw [hform, Phones.normalizePhone_of_digits_nil hnil]
    exact hnil
  · rw [hform]
    rcases Phones.auth_normalizePhone_of_digits_nil hnil with heq | heq
    · rw [heq]
      exact hnil
    · rw [heq]
      decide

theorem Inv.step {r : SignUp} (h : Inv known s) (hr : r.phone ∈ known)
    (halike : SpeltAlike known) : Inv known (step s r) := by
  rcases adds_step s r with heq | ⟨hnot, heq⟩
  · exact ⟨by rw [OneEach, heq]; exact h.oneEach, by rw [heq]; exact h.forms⟩
  · refine ⟨?_, ?_⟩
    · rw [OneEach, heq]
      refine apart_append h.oneEach fun q hq hsame => hnot ?_
      obtain ⟨p, hp, hpq, rfl⟩ := h.forms q hq hsame.1
      have hdigits := digits_of_form hsame.symm.1
      rw [form_eq hdigits] at hsame ⊢
      have hpr : Phones.SameNumber p r.phone :=
        (hpq.trans hsame).trans (Phones.sameNumber_normalizePhone hdigits).symm
      rw [(Phones.normalizePhone_eq_iff hpr).2 (halike p hp _ hr hpr)] at hq
      exact hq
    · rw [heq]
      intro q hq hdigits
      rcases List.mem_append.1 hq with hq | hq
      · exact h.forms q hq hdigits
      · rw [List.mem_singleton.1 hq] at hdigits ⊢
        have hphone := digits_of_form hdigits
        rw [form_eq hphone]
        exact ⟨r.phone, hr, Phones.sameNumber_normalizePhone hphone, rfl⟩

theorem inv_run {rs : List SignUp} (h : Inv known s) (hrs : ∀ r ∈ rs, r.phone ∈ known)
    (halike : SpeltAlike known) : Inv known (run Accounts.step s rs) := by
  induction rs generalizing s with
  | nil => exact h
  | cons r rs ih =>
    exact ih (h.step (hrs r (by simp)) halike) fun r' hr' => hrs r' (by simp [hr'])

theorem Settled.inv (h : Settled s) (hknown : ∀ p ∈ phones s.db, p ∈ known) : Inv known s where
  oneEach := h.oneEach
  forms q hq hdigits := ⟨q, hknown q hq, ⟨hdigits, rfl⟩, (h.forms q hq).symm⟩

/-- In a run in which each number is spelt alike, no number gets a second account. -/
theorem oneEach_throughout {rs : List SignUp} (h : Settled s)
    (halike : SpeltAlike (phones s.db ++ rs.map SignUp.phone)) :
    Throughout step OneEach s rs := by
  intro pre hpre
  have hstart : Inv (phones s.db ++ rs.map SignUp.phone) s :=
    h.inv fun p hp => List.mem_append_left _ hp
  refine (inv_run hstart (fun r hr => ?_) halike).oneEach
  exact List.mem_append_right _ (List.mem_map_of_mem (hpre.subset hr))

/-- Spellings of one number have one form exactly if they are alike; a form is its own form; and
where all spellings of each number are alike, no number gets a second account. -/
theorem canonicalPhones (p q : String) (s : Service) (rs : List SignUp) :
    (Phones.SameNumber p q →
      (Phones.normalizePhone p = Phones.normalizePhone q ↔ Alike p q) ∧
      (Auth.normalizePhone p = Auth.normalizePhone q ↔ Alike p q)) ∧
    (Phones.normalizePhone (Phones.normalizePhone p) = Phones.normalizePhone p ∧
      Auth.normalizePhone (Auth.normalizePhone p) = Auth.normalizePhone p) ∧
    (Settled s → SpeltAlike (phones s.db ++ rs.map SignUp.phone) →
      Throughout step OneEach s rs) := by
  refine ⟨fun h => ?_, ?_, oneEach_throughout⟩
  · have hform := Phones.normalizePhone_eq_iff h
    rw [Phones.auth_normalizePhone_eq h.1, Phones.auth_normalizePhone_eq h.symm.1]
    exact ⟨hform, hform⟩
  · exact ⟨Phones.normalizePhone_idem p, Phones.auth_normalizePhone_idem p⟩

end Runs

/-! ## Two spellings of one number -/

/-- A service without users. -/
def noUsers : Service := { db := {} }

theorem settled_noUsers : Settled noUsers := ⟨List.Pairwise.nil, by simp [noUsers, phones]⟩

def sampleShop : SignUp :=
  .shop .ok { phone := "98765 43210", password := "secret", shopName := "Shop", ownerName := "A" }

theorem spelt_twice :
    Phones.SameNumber "98765 43210" "+91 98765 43210" ∧
      Phones.normalizePhone "98765 43210" ≠ Phones.normalizePhone "+91 98765 43210" ∧
      ¬ OneEach (run step noUsers
        [sampleShop, .rider .ok "B" "+91 98765 43210" (some "secret")]) := by
  refine ⟨by decide +kernel, by decide +kernel, fun h => ?_⟩
  have hphones : phones (run step noUsers
      [sampleShop, .rider .ok "B" "+91 98765 43210" (some "secret")]).db =
        ["+919876543210", "+91 98765 43210"] := by
    decide +kernel
  rw [OneEach, hphones] at h
  exact (List.pairwise_cons.1 h).1 "+91 98765 43210" (by simp) (by decide +kernel)

theorem canonicalPhones_sample :
    (Phones.normalizePhone "98765 43210" = Phones.normalizePhone "+919876543210" ↔
        Alike "98765 43210" "+919876543210") ∧
      Throughout step OneEach noUsers
        [sampleShop, .rider .ok "B" "+919876543210" (some "secret")] :=
  ⟨((canonicalPhones _ _ noUsers []).1 (by decide +kernel)).1,
    (canonicalPhones "" "" _ _).2.2 settled_noUsers (by decide +kernel)⟩

end Accounts

end SweetCrust
