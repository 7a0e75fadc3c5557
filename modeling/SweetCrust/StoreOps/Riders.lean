import SweetCrust.StoreOps.Phone
import SweetCrust.Lib.Session

/-!
# Editing a rider

An edit of a rider writes the row of the rider and, where there is one, that of the rider's
login.  The rider is committed first; what is checked of the login is checked after that.

* `ensureDeliveryUser`, `patched`, `patchPerson` — the login of a rider, the fields of an edit,
  and the edit.
* `CleanEdit` — an edit that raises changes nothing, and one that is answered leaves the rider
  with the phone of the login, which nobody else has.
* `cleanEdit_iff` — when an edit is clean.
* `uniquePhones_final` — no edit gives two users one phone.
-/

namespace SweetCrust

open Tabular Session Decimal Text

namespace Riders

/-- A rider, with what a trip costs. -/
structure Person extends DeliveryPerson where
  defaultTripCost : ℚ := 40
  deriving DecidableEq

structure Db where
  users : Table User
  persons : Table Person

def userByPhone (users : Table User) (phone : String) : Option (ℕ × User) :=
  users.first? fun u => u.phone = phone

section Model

-- `hash_password`; passlib raises on a NUL character, and on passwords that are very long
variable (hashPassword : String → Except AppError String)

/-- The user that is found becomes, or stays, a rider's. -/
def riderUser (name : String) (passwordHash : Option String) (user : User) : User :=
  { user with
    passwordHash := passwordHash.or user.passwordHash
    name := if Auth.stripText name = "" then user.name else some (Auth.stripText name)
    role := .delivery
    isActive := true
    termsAccepted := true }

/-- The user of a rider who had none. -/
def newUser (name phone : String) (passwordHash : Option String) : User :=
  { phone
    name := some (if Auth.stripText name = "" then "Rider" else Auth.stripText name)
    passwordHash
    role := .delivery
    totalOrders := 0
    termsAccepted := true
    isActive := true }

/-- `_ensure_delivery_user`: it writes and commits only when it returns. -/
def ensureDeliveryUser (name phone : String) (password : Option String) (users : Table User) :
    Except AppError ((ℕ × User) × Table User) := do
  let phone := Phones.normalizePhone phone
  let found := userByPhone users phone
  if found.any fun r => r.2.role ≠ .delivery then
    throw (.conflict "Phone already used by another account type")
  let password := password.map Auth.stripText
  if password.any fun p => p.length < 6 then
    throw (.badRequest "Password must be at least 6 characters")
  match found with
  | some (id, user) =>
    let passwordHash ← password.mapM hashPassword
    let user := riderUser name passwordHash user
    return ((id, user), users.modify id fun _ => user)
  | none =>
    if (truthy password).isNone then
      throw (.badRequest "Password is required for new rider login")
    let passwordHash ← password.mapM hashPassword
    let user := newUser name phone passwordHash
    return ((users.next, user), users.insert user)

/-- A field of the body: left out, null, or a value. -/
abbrev Field (α : Type) : Type := Option (Option α)

/-- `DeliveryPersonPatchIn`. -/
structure PatchIn where
  name : Field String := none
  phone : Field String := none
  password : Field String := none
  vehicleNumber : Field String := none
  isAvailable : Field Bool := none
  defaultTripCost : Field ℚ := none

/-- The value after `setattr`; the columns refuse a null. -/
def assign {α : Type} (old : α) (field : Field α) : Option α := field.getD (some old)

/-- The rider with the fields of the body, unless one of them is null. -/
def patched (body : PatchIn) (p : Person) : Option Person := do
  let name ← assign p.name body.name
  let phone ← assign p.phone (body.phone.map (Option.map Phones.normalizePhone))
  let vehicleNumber ← assign p.vehicleNumber body.vehicleNumber
  let isAvailable ← assign p.isAvailable body.isAvailable
  let defaultTripCost ← assign p.defaultTripCost body.defaultTripCost
  return { p with name, phone, vehicleNumber, isAvailable, defaultTripCost }

def savePerson (id : ℕ) (p : Person) (db : Db) : Db :=
  { db with persons := db.persons.modify id fun _ => p }

/-- The user that a rider signs in as. -/
def loginOf (users : Table User) (p : Person) : Option (ℕ × User) :=
  p.userId.bind fun id => (users.get? id).map (id, ·)

/-- The password of the body gives the rider a login. -/
def giveLogin (personId : ℕ) (p : Person) (password : String) : Sess AppError Db Person := do
  let db ← get
  let made ← ofExcept (ensureDeliveryUser hashPassword p.name p.phone (some password) db.users)
  modify fun db => { db with users := made.2 }
  commit
  let p := { p with userId := some made.1.1, phone := made.1.2.phone }
  modify (savePerson personId p)
  commit
  return p

/-- The phone that the edit gives to the rider and to the login, or else that of each. -/
def editedPhone (p : Person) (body : PatchIn) (old : String) : String :=
  if body.phone.isSome then Phones.normalizePhone p.phone else old

/-- The login with the name and the phone of the edit. -/
def editedUser (p : Person) (body : PatchIn) (user : User) : User :=
  { user with
    name := if body.name.isSome then some p.name else user.name
    phone := editedPhone p body user.phone }

/-- The login of the rider follows the name and the phone of the body. -/
def updateLogin (personId : ℕ) (p : Person) (body : PatchIn) (login : ℕ × User) :
    Sess AppError Db Person := do
  let db ← get
  raiseIf (body.phone.isSome ∧ (userByPhone db.users (Phones.normalizePhone p.phone)).any
      fun other => other.1 ≠ login.1)
    (.conflict "Phone already used by another account")
  modify fun db =>
    { users := db.users.modify login.1 fun _ => editedUser p body login.2
      persons := db.persons.modify personId fun _ =>
        { p with phone := editedPhone p body p.phone } }
  commit
  return { p with phone := editedPhone p body p.phone }

/-- `patch_person`. -/
def patchPerson (personId : ℕ) (body : PatchIn) : Sess AppError Db Person := do
  let db ← get
  let p ← orRaise (db.persons.get? personId) (.notFound "Delivery person not found")
  let p ← orRaise (patched body p) (.uncaught "IntegrityError")
  modify (savePerson personId p)
  commit
  match body.password.join with
  | some password => giveLogin hashPassword personId p password
  | none =>
    match loginOf db.users p with
    | some login => updateLogin personId p body login
    | none => return p

/-! ## What an edit has to be -/

/-- No two users have one phone: the column is unique. -/
def UniquePhones (users : Table User) : Prop :=
  ∀ i j u v, users.get? i = some u → users.get? j = some v → u.phone = v.phone → i = j

/-- If the rider has a login, the rider has its phone, and no other user does. -/
def LoggedIn (personId : ℕ) (t : Db) : Prop :=
  ∀ p id user, t.persons.get? personId = some p → p.userId = some id →
    t.users.get? id = some user →
      p.phone = user.phone ∧ ∀ j v, t.users.get? j = some v → v.phone = user.phone → j = id

/-- An edit that raises leaves all rows as they were, and after one that is answered the rider has
the phone of the login. -/
structure CleanEdit (personId : ℕ) (body : PatchIn) (db : Db) : Prop where
  refused : ∀ e, (patchPerson hashPassword personId body db).2 = .error e →
    final (patchPerson hashPassword personId body) db = db
  login : ∀ r, (patchPerson hashPassword personId body db).2 = .ok r →
    LoggedIn personId (final (patchPerson hashPassword personId body) db)

/-- The phone is that of a user who is no rider, or the password is too short or cannot be
hashed. -/
def LoginRefused (phone password : String) (users : Table User) : Prop :=
  (∃ r, userByPhone users (Phones.normalizePhone phone) = some r ∧ r.2.role ≠ .delivery) ∨
    (Auth.stripText password).length < 6 ∨ ∃ e, hashPassword (Auth.stripText password) = .error e

/-- The phone of the edit is that of somebody else. -/
def Taken (body : PatchIn) (q : Person) (users : Table User) (login : ℕ × User) : Prop :=
  body.phone.isSome ∧ ∃ other, userByPhone users (Phones.normalizePhone q.phone) = some other ∧
    other.1 ≠ login.1

/-- What is checked of the login, once the rider `q` is committed, refuses the edit. -/
def Refused (body : PatchIn) (q : Person) (users : Table User) : Prop :=
  match body.password.join with
  | some password => LoginRefused hashPassword q.phone password users
  | none => ∃ login, loginOf users q = some login ∧ Taken body q users login

section Logins

variable {hashPassword} {name phone password : String} {users : Table User}

/-- What there is of users once a rider has a login with the phone. -/
structure LoginMade (phone : String) (users : Table User) (id : ℕ) (user : User)
    (users' : Table User) : Prop where
  row : users'.get? id = some user
  phone_eq : user.phone = Phones.normalizePhone phone
  others : ∀ j v, j ≠ id → users'.get? j = some v → users.get? j = some v
  owner : UniquePhones users →
    ∀ j v, users.get? j = some v → v.phone = Phones.normalizePhone phone → j = id

/-- The user with the phone is no rider. -/
theorem any_role_iff : ((userByPhone users (Phones.normalizePhone phone)).any fun r =>
    r.2.role ≠ .delivery) = true ↔
      ∃ r, userByPhone users (Phones.normalizePhone phone) = some r ∧ r.2.role ≠ .delivery := by
  rw [Option.any_eq_true]
  simp

theorem isNone_truthy_of_long {text : String} (h : ¬ text.length < 6) :
    (truthy (some text)).isNone = false := by
  have hne : text ≠ "" := fun hempty => h (by rw [hempty]; decide)
  rw [truthy_some hne]
  rfl

theorem ensureDeliveryUser_error (h : LoginRefused hashPassword phone password users) :
    ∃ e, ensureDeliveryUser hashPassword name phone (some password) users = .error e := by
  unfold ensureDeliveryUser
  by_cases hrole : (userByPhone users (Phones.normalizePhone phone)).any
      fun r => r.2.role ≠ .delivery
  · exact ⟨_, by simp only [hrole, if_true]; rfl⟩
  by_cases hshort : (Auth.stripText password).length < 6
  · refine ⟨.badRequest "Password must be at least 6 characters", ?_⟩
    simp only [hrole, Option.map_some, Option.any_some, hshort, decide_true, if_true]
    rfl
  obtain ⟨e, he⟩ : ∃ e, hashPassword (Auth.stripText password) = .error e := by
    rcases h with h | h | h
    · exact absurd (any_role_iff.2 h) hrole
    · exact absurd h hshort
    · exact h
  have hhash : (some (Auth.stripText password)).mapM hashPassword = .error e := by
    rw [Option.mapM_some, he]
    rfl
  cases hfound : userByPhone users (Phones.normalizePhone phone) with
  | some r =>
    rw [hfound] at hrole
    refine ⟨e, ?_⟩
    simp only [hfound, hrole, Option.map_some, Option.any_some, hshort, decide_false, hhash]
    rfl
  | none =>
    rw [hfound] at hrole
    have hsome : (truthy (some (Auth.stripText password))).isNone = false :=
      isNone_truthy_of_long hshort
    refine ⟨e, ?_⟩
    simp only [hfound, hrole, Option.map_some, Option.any_some, hshort, decide_false, hsome, hhash]
    rfl

theorem ensureDeliveryUser_ok (h : ¬ LoginRefused hashPassword phone password users) :
    ∃ id user users', ensureDeliveryUser hashPassword name phone (some password) users =
      .ok ((id, user), users') ∧ LoginMade phone users id user users' := by
  have hrole : ¬ ((userByPhone users (Phones.normalizePhone phone)).any fun r =>
      r.2.role ≠ .delivery) = true := fun hany => h (.inl (any_role_iff.1 hany))
  have hlong : ¬ (Auth.stripText password).length < 6 := fun hshort => h (.inr (.inl hshort))
  obtain ⟨hash, hok⟩ : ∃ hash, hashPassword (Auth.stripText password) = .ok hash := by
    cases hresult : hashPassword (Auth.stripText password) with
    | ok hash => exact ⟨hash, rfl⟩
    | error e => exact absurd (.inr (.inr ⟨e, hresult⟩)) h
  have hhash : (some (Auth.stripText password)).mapM hashPassword = .ok (some hash) := by
    rw [Option.mapM_some, hok]
    rfl
  cases hfound : userByPhone users (Phones.normalizePhone phone) with
  | some r =>
    obtain ⟨id, user⟩ := r
    obtain ⟨hget, hphone⟩ := Table.get?_of_first? hfound
    have hphone' : user.phone = Phones.normalizePhone phone := by simpa using hphone
    refine ⟨id, riderUser name (some hash) user,
      users.modify id fun _ => riderUser name (some hash) user, ?_, ?_⟩
    · unfold ensureDeliveryUser
      rw [hfound] at hrole
      simp only [hfound, hrole, Option.map_some, Option.any_some, hlong, decide_false, hhash]
      rfl
    · refine ⟨?_, hphone', ?_, ?_⟩
      · rw [Table.get?_modify_self, hget]
        rfl
      · intro j v hj hv
        rwa [Table.get?_modify_of_ne _ _ hj] at hv
      · exact fun hu j v hv hvphone => hu j id v user hv hget (hvphone.trans hphone'.symm)
  | none =>
    have hfree := Table.first?_eq_none.1 hfound
    have hsome : (truthy (some (Auth.stripText password))).isNone = false :=
      isNone_truthy_of_long hlong
    refine ⟨users.next, newUser name (Phones.normalizePhone phone) (some hash),
      users.insert (newUser name (Phones.normalizePhone phone) (some hash)), ?_, ?_⟩
    · unfold ensureDeliveryUser
      rw [hfound] at hrole
      simp only [hfound, hrole, Option.map_some, Option.any_some, hlong, decide_false, hsome,
        hhash]
      rfl
    · refine ⟨?_, rfl, ?_, ?_⟩
      · rw [Table.get?_insert, if_pos rfl]
      · intro j v hj hv
        rwa [Table.get?_insert, if_neg hj] at hv
      · intro hu j v hv hvphone
        have hnot := hfree j v hv
        simp [hvphone] at hnot

/-- With a login made, phones are still unique. -/
theorem LoginMade.unique {id : ℕ} {user : User} {users' : Table User}
    (h : LoginMade phone users id user users') (hu : UniquePhones users) :
    UniquePhones users' := by
  intro i j u v hi hj huv
  by_cases hi' : i = id
  · by_cases hj' : j = id
    · rw [hi', hj']
    · have hv := h.others j v hj' hj
      rw [hi', h.row] at hi
      cases hi
      rw [hi']
      exact (h.owner hu j v hv (huv ▸ h.phone_eq)).symm
  · have hu' := h.others i u hi' hi
    by_cases hj' : j = id
    · rw [hj', h.row] at hj
      cases hj
      rw [hj']
      exact h.owner hu i u hu' (huv.trans h.phone_eq)
    · exact hu i j u v hu' (h.others j v hj' hj) huv

end Logins

section Edits

variable {hashPassword} {personId : ℕ} {body : PatchIn} {p q : Person} {db s : Db}

/-- The fields of a body are none of a rider's login. -/
theorem patched_userId (h : patched body p = some q) : q.userId = p.userId := by
  simp only [patched, Option.bind_eq_bind, Option.bind_eq_some_iff, Option.pure_def,
    Option.some.injEq] at h
  obtain ⟨_, _, _, _, _, _, _, _, _, _, rfl⟩ := h
  rfl

theorem patched_phone (h : patched body p = some q) (hphone : body.phone = none) :
    q.phone = p.phone := by
  simp only [patched, hphone, Option.bind_eq_bind, Option.bind_eq_some_iff, Option.pure_def,
    Option.some.injEq] at h
  obtain ⟨_, _, phone, hassign, _, _, _, _, _, _, rfl⟩ := h
  exact (Option.some.inj hassign).symm

/-- The rider in the database, once the fields of the body are committed. -/
theorem get?_savePerson (hp : db.persons.get? personId = some p) :
    (savePerson personId q db).persons.get? personId = some q := by
  show (db.persons.modify personId fun _ => q).get? personId = _
  rw [Table.get?_modify_self, hp]
  rfl

theorem savePerson_eq_self (hp : db.persons.get? personId = some p) :
    savePerson personId q db = db ↔ q = p := by
  constructor
  · intro h
    have hget : (savePerson personId q db).persons.get? personId = some q := get?_savePerson hp
    rw [h, hp] at hget
    exact (Option.some.inj hget).symm
  · rintro rfl
    show { db with persons := db.persons.modify personId fun _ => q } = db
    rw [Table.modify_const_self hp]

theorem giveLogin_raises {password : String} (h : LoginRefused hashPassword q.phone password s.users) :
    Raises (giveLogin hashPassword personId q password) s s := by
  have herror : ∃ e, ensureDeliveryUser hashPassword q.name q.phone (some password) s.users =
      .error e := ensureDeliveryUser_error h
  obtain ⟨e, he⟩ := herror
  exact Raises.get_bind (raises_ofExcept_bind he _ s)

theorem giveLogin_returns {password : String} (hp : s.persons.get? personId = some p)
    (h : ¬ LoginRefused hashPassword q.phone password s.users) :
    ∃ r t, Returns (giveLogin hashPassword personId q password) s r t ∧
      (UniquePhones s.users → UniquePhones t.users ∧ LoggedIn personId t) := by
  have hensure : ∃ id user users', ensureDeliveryUser hashPassword q.name q.phone (some password)
      s.users = .ok ((id, user), users') ∧ LoginMade q.phone s.users id user users' :=
    ensureDeliveryUser_ok h
  obtain ⟨id, user, users', hok, hmade⟩ := hensure
  refine ⟨_, _, Returns.get_bind (Returns.ofExcept_bind hok
    (Returns.modify_commit (Returns.modify_commit (returns_pure _ _)))), fun hu => ?_⟩
  refine ⟨hmade.unique hu, fun p' id' user' hp' hid' huser' => ?_⟩
  have hsaved : some { q with userId := some id, phone := user.phone } = some p' := by
    rw [← hp']
    show _ = (s.persons.modify personId fun _ => _).get? personId
    rw [Table.get?_modify_self, hp]
    rfl
  cases hsaved
  cases hid'
  have hrow : users'.get? id = some user := hmade.row
  rw [show users'.get? id = some user' from huser'] at hrow
  cases hrow
  exact ⟨rfl, fun j v hv hvphone => hmade.unique hu j id v user hv hmade.row hvphone⟩

/-- A user is written whose phone nobody else has. -/
theorem unique_write {users : Table User} {id : ℕ} {user : User} (hu : UniquePhones users)
    (hfree : ∀ j v, users.get? j = some v → v.phone = user.phone → j = id) :
    UniquePhones (users.modify id fun _ => user) := by
  intro i j u v hi hj huv
  rw [Table.get?_modify] at hi hj
  split_ifs at hi hj with hid hjd hjd
  · rw [hid, hjd]
  · rw [Option.map_eq_some_iff] at hi
    obtain ⟨_, _, rfl⟩ := hi
    rw [hid, hfree j v hj huv.symm]
  · rw [Option.map_eq_some_iff] at hj
    obtain ⟨_, _, rfl⟩ := hj
    rw [hjd, hfree i u hi huv]
  · exact hu i j u v hi hj huv

theorem any_other_iff {users : Table User} {login : ℕ × User} :
    (body.phone.isSome ∧ (userByPhone users (Phones.normalizePhone q.phone)).any
      fun other => other.1 ≠ login.1) ↔ Taken body q users login := by
  rw [Taken, Option.any_eq_true]
  simp

theorem updateLogin_raises {login : ℕ × User} (h : Taken body q s.users login) :
    Raises (updateLogin personId q body login) s s :=
  Raises.get_bind (raises_raiseIf_bind (any_other_iff.2 h) _ _ s)

theorem loginOf_eq_some {users : Table User} {login : ℕ × User} : loginOf users q = some login ↔
    q.userId = some login.1 ∧ users.get? login.1 = some login.2 := by
  obtain ⟨id, user⟩ := login
  unfold loginOf
  cases q.userId with
  | none => simp
  | some id' =>
    rw [Option.bind_some, Option.map_eq_some_iff]
    constructor
    · rintro ⟨user', hget, heq⟩
      cases heq
      exact ⟨rfl, hget⟩
    · rintro ⟨hid, hget⟩
      cases hid
      exact ⟨user, hget, rfl⟩

/-- Nobody but the login has the phone that the edit gives it. -/
theorem free_of_not_taken {users : Table User} {login : ℕ × User} (hu : UniquePhones users)
    (hlogin : users.get? login.1 = some login.2) (h : ¬ Taken body q users login) :
    ∀ j v, users.get? j = some v → v.phone = editedPhone q body login.2.phone → j = login.1 := by
  intro j v hv hphone
  unfold editedPhone at hphone
  split_ifs at hphone with hsome
  · cases hfound : userByPhone users (Phones.normalizePhone q.phone) with
    | none => simpa [hphone] using Table.first?_eq_none.1 hfound j v hv
    | some other =>
      have hother : other.1 = login.1 := by
        by_contra hne
        exact h ⟨hsome, other, hfound, hne⟩
      obtain ⟨hget, hp⟩ := Table.get?_of_first? hfound
      have hp' : other.2.phone = Phones.normalizePhone q.phone := by simpa using hp
      rw [← hother]
      exact hu j other.1 v other.2 hv hget (hphone.trans hp'.symm)
  · exact hu j login.1 v login.2 hv hlogin hphone

theorem updateLogin_returns {login : ℕ × User} (hp : s.persons.get? personId = some p)
    (hlogin : loginOf s.users q = some login) (h : ¬ Taken body q s.users login) :
    ∃ r t, Returns (updateLogin personId q body login) s r t ∧
      (UniquePhones s.users → UniquePhones t.users ∧
        (LoggedIn personId t ↔ (body.phone = none → q.phone = login.2.phone))) := by
  refine ⟨_, _, Returns.get_bind (Returns.raiseIf_bind (fun hc => h (any_other_iff.1 hc))
    (Returns.modify_commit (returns_pure _ _))), fun hu => ?_⟩
  obtain ⟨hid, hget⟩ := loginOf_eq_some.1 hlogin
  obtain ⟨id, user⟩ := login
  have hfree := free_of_not_taken hu hget h
  have hrow : (s.users.modify id fun _ => editedUser q body user).get? id =
      some (editedUser q body user) := by
    rw [Table.get?_modify_self, hget]
    rfl
  have hperson : (s.persons.modify personId fun _ =>
      { q with phone := editedPhone q body q.phone }).get? personId =
        some { q with phone := editedPhone q body q.phone } := by
    rw [Table.get?_modify_self, hp]
    rfl
  refine ⟨unique_write hu hfree, fun hlogged hnone => ?_, fun hsame => ?_⟩
  · have hphone := (hlogged _ id _ hperson hid hrow).1
    simpa [editedUser, editedPhone, hnone] using hphone
  · intro p' id' user' hp' hid' huser'
    rw [show _ = some p' from hp'] at hperson
    cases hperson
    cases hid.symm.trans hid'
    rw [show _ = some user' from huser'] at hrow
    cases hrow
    refine ⟨?_, fun j v hv hvphone => ?_⟩
    · show editedPhone q body q.phone = editedPhone q body user.phone
      cases hphone : body.phone with
      | none => rw [hsame hphone]
      | some phone => simp [editedPhone, hphone]
    · exact unique_write hu hfree j id v _ hv huser' hvphone

/-- An edit that the login refuses raises, with the rider committed. -/
theorem patchPerson_raises (hp : db.persons.get? personId = some p)
    (hq : patched body p = some q) (h : Refused hashPassword body q db.users) :
    Raises (patchPerson hashPassword personId body) db (savePerson personId q db) := by
  refine Raises.get_bind (Raises.orRaise_bind hp (Raises.orRaise_bind hq
    (Raises.modify_commit ?_)))
  unfold Refused at h
  cases hpassword : body.password.join with
  | some password =>
    rw [hpassword] at h
    exact giveLogin_raises h
  | none =>
    rw [hpassword] at h
    obtain ⟨login, hlogin, htaken⟩ := h
    rw [hlogin]
    exact updateLogin_raises htaken

/-- Any other edit is answered; afterwards the rider has the phone of the login, where the edit
gave it one or it had one before. -/
theorem patchPerson_returns (hp : db.persons.get? personId = some p)
    (hq : patched body p = some q) (h : ¬ Refused hashPassword body q db.users) :
    ∃ r t, Returns (patchPerson hashPassword personId body) db r t ∧
      (UniquePhones db.users → UniquePhones t.users ∧ (LoggedIn personId t ↔
        (body.password.join = none → body.phone = none →
          ∀ login, loginOf db.users p = some login → p.phone = login.2.phone))) := by
  have hsaved : (savePerson personId q db).persons.get? personId = some q := get?_savePerson hp
  have hloginOf : loginOf db.users q = loginOf db.users p := by
    rw [loginOf, patched_userId hq, loginOf]
  unfold Refused at h
  cases hpassword : body.password.join with
  | some password =>
    rw [hpassword] at h
    have hgive : ∃ r t, Returns (giveLogin hashPassword personId q password)
        (savePerson personId q db) r t ∧
        (UniquePhones db.users → UniquePhones t.users ∧ LoggedIn personId t) :=
      giveLogin_returns hsaved h
    obtain ⟨r, t, hreturns, hunique⟩ := hgive
    refine ⟨r, t, Returns.get_bind (Returns.orRaise_bind hp (Returns.orRaise_bind hq
      (Returns.modify_commit ?_))), fun hu => ⟨(hunique hu).1, ?_⟩⟩
    · rw [hpassword]
      exact hreturns
    · exact iff_of_true (hunique hu).2 (by simp)
  | none =>
    rw [hpassword] at h
    cases hlogin : loginOf db.users q with
    | some login =>
      have hupdate : ∃ r t, Returns (updateLogin personId q body login)
          (savePerson personId q db) r t ∧ (UniquePhones db.users → UniquePhones t.users ∧
            (LoggedIn personId t ↔ (body.phone = none → q.phone = login.2.phone))) :=
        updateLogin_returns hsaved hlogin fun htaken => h ⟨login, hlogin, htaken⟩
      obtain ⟨r, t, hreturns, hunique⟩ := hupdate
      refine ⟨r, t, Returns.get_bind (Returns.orRaise_bind hp (Returns.orRaise_bind hq
        (Returns.modify_commit ?_))), fun hu => ⟨(hunique hu).1, ?_⟩⟩
      · rw [hpassword, hlogin]
        exact hreturns
      · rw [(hunique hu).2]
        constructor
        · intro hsame _ hnone login' hlogin'
          rw [← hloginOf, hlogin] at hlogin'
          cases hlogin'
          rw [← patched_phone hq hnone]
          exact hsame hnone
        · intro hsame hnone
          rw [patched_phone hq hnone]
          exact hsame rfl hnone login (hloginOf ▸ hlogin)
    | none =>
      refine ⟨q, savePerson personId q db, Returns.get_bind (Returns.orRaise_bind hp
        (Returns.orRaise_bind hq (Returns.modify_commit ?_))), fun hu => ⟨hu, ?_⟩⟩
      · rw [hpassword, hlogin]
        exact returns_pure q _
      · refine iff_of_true ?_ ?_
        · intro p' id user hp' hid huser
          cases hsaved.symm.trans hp'
          have hsome : loginOf db.users q = some (id, user) := loginOf_eq_some.2 ⟨hid, huser⟩
          rw [hlogin] at hsome
          cases hsome
        · intro _ _ login hlogin'
          rw [← hloginOf, hlogin] at hlogin'
          cases hlogin'

/-- Without a password and a phone the login refuses nothing. -/
theorem not_refused {users : Table User} (hpassword : body.password.join = none)
    (hphone : body.phone = none) : ¬ Refused hashPassword body q users := by
  unfold Refused
  rw [hpassword]
  rintro ⟨login, -, hsome, -⟩
  rw [hphone] at hsome
  cases hsome

/-- Where the login refuses the edit, the rider has the fields of the body already; and unless
the edit gives the rider a phone or a password, the rider has the phone of the login. -/
def Fits (hashPassword : String → Except AppError String) (personId : ℕ) (body : PatchIn)
    (db : Db) : Prop :=
  ∀ p q, db.persons.get? personId = some p → patched body p = some q →
    (Refused hashPassword body q db.users → q = p) ∧
      (body.password.join = none → body.phone = none →
        ∀ login, loginOf db.users p = some login → p.phone = login.2.phone)

/-- An edit ends in one of three ways: it raises before anything is written, with the rider
written, or it is answered. -/
theorem patchPerson_cases (hashPassword : String → Except AppError String) (personId : ℕ) (body : PatchIn)
    (db : Db) :
    Raises (patchPerson hashPassword personId body) db db ∧
        (∀ p, db.persons.get? personId = some p → patched body p = none) ∨
      ∃ p q, db.persons.get? personId = some p ∧ patched body p = some q ∧
        (Refused hashPassword body q db.users ∧
            Raises (patchPerson hashPassword personId body) db (savePerson personId q db) ∨
          ¬ Refused hashPassword body q db.users ∧
            ∃ r t, Returns (patchPerson hashPassword personId body) db r t ∧
              (UniquePhones db.users → UniquePhones t.users ∧ (LoggedIn personId t ↔
                (body.password.join = none → body.phone = none →
                  ∀ login, loginOf db.users p = some login → p.phone = login.2.phone)))) := by
  cases hp : db.persons.get? personId with
  | none => exact Or.inl ⟨Raises.get_bind (raises_orRaise_bind hp _ _ db), by simp⟩
  | some p =>
    cases hq : patched body p with
    | none =>
      refine Or.inl ⟨Raises.get_bind (Raises.orRaise_bind hp (raises_orRaise_bind hq _ _ db)), ?_⟩
      rintro p' ⟨⟩
      exact hq
    | some q =>
      refine Or.inr ⟨p, q, rfl, hq, ?_⟩
      by_cases h : Refused hashPassword body q db.users
      · exact Or.inl ⟨h, patchPerson_raises hp hq h⟩
      · exact Or.inr ⟨h, patchPerson_returns hp hq h⟩

/-- An edit is clean exactly if it fits the rider and the login. -/
theorem cleanEdit_iff (hu : UniquePhones db.users) :
    CleanEdit hashPassword personId body db ↔ Fits hashPassword personId body db := by
  rcases patchPerson_cases hashPassword personId body db with
    ⟨hraises, hnone⟩ | ⟨p, q, hp, hq, ⟨hrefused, hraises⟩ | ⟨hnot, r, t, hreturns, hunique⟩⟩
  · refine iff_of_true ⟨fun _ _ => hraises.final, fun r hr => ?_⟩ ?_
    · exact absurd ⟨r, hr⟩ hraises.not_ok
    · intro p q hp hq
      rw [hnone p hp] at hq
      cases hq
  · have hlogin : ∀ r, (patchPerson hashPassword personId body db).2 = .ok r →
        LoggedIn personId (final (patchPerson hashPassword personId body) db) :=
      fun r hr => absurd ⟨r, hr⟩ hraises.not_ok
    constructor
    · rintro ⟨hkept, -⟩ p' q' hp' hq'
      cases hp.symm.trans hp'
      cases hq.symm.trans hq'
      obtain ⟨e, he⟩ := hraises.outcome
      refine ⟨fun _ => ?_, fun hpassword hphone => ?_⟩
      · rw [← savePerson_eq_self hp, ← hraises.final]
        exact hkept e he
      · exact absurd hrefused (not_refused hpassword hphone)
    · intro hfits
      refine ⟨fun _ _ => ?_, hlogin⟩
      rw [hraises.final, savePerson_eq_self hp]
      exact (hfits p q hp hq).1 hrefused
  · constructor
    · rintro ⟨-, hlogin⟩ p' q' hp' hq'
      cases hp.symm.trans hp'
      cases hq.symm.trans hq'
      have hlogged := hlogin (r, t) hreturns.outcome
      rw [hreturns.final] at hlogged
      exact ⟨fun h => absurd h hnot, (hunique hu).2.1 hlogged⟩
    · intro hfits
      refine ⟨fun e he => ?_, fun _ _ => ?_⟩
      · rw [hreturns.outcome] at he
        cases he
      · rw [hreturns.final, (hunique hu).2]
        exact (hfits p q hp hq).2

/-- No edit gives two users one phone. -/
theorem uniquePhones_final (hu : UniquePhones db.users) :
    UniquePhones (final (patchPerson hashPassword personId body) db).users := by
  rcases patchPerson_cases hashPassword personId body db with
    ⟨hraises, -⟩ | ⟨p, q, -, -, ⟨-, hraises⟩ | ⟨-, r, t, hreturns, hunique⟩⟩
  · rw [hraises.final]
    exact hu
  · rw [hraises.final]
    exact hu
  · rw [hreturns.final]
    exact (hunique hu).1

end Edits

end Model

/-! ## The phone of a customer -/

theorem uniquePhones_of_nodup {users : Table User}
    (h : (users.rows.map fun r => r.2.phone).Nodup) : UniquePhones users := by
  intro i j u v hi hj huv
  have heq := List.inj_on_of_nodup_map h (Table.get?_eq_some.1 hi) (Table.get?_eq_some.1 hj) huv
  exact (Prod.mk.inj heq).1

def customer : User := { (default : User) with phone := "+919000000001", role := .customer }

def riderLogin : User := { (default : User) with phone := "+919000000002", role := .delivery }

def rider : Person :=
  { (default : DeliveryPerson) with userId := some 2, phone := "+919000000002" }

/-- User 1 is a customer, and user 2 the login of rider 1. -/
def sampleDb : Db where
  users := .ofList [customer, riderLogin]
  persons := .ofList [rider]

/-- The edit gives the rider the phone of the customer. -/
def samplePatch : PatchIn := { phone := some (some "90000 00001") }

/-- Hashing, which raises on a NUL character. -/
def sampleHash (password : String) : Except AppError String :=
  if password.toList.contains (Char.ofNat 0) then .error (.uncaught "NullPasswordError")
  else .ok ("hash of " ++ password)

theorem samplePatch_left : ¬ CleanEdit sampleHash 1 samplePatch sampleDb := by
  intro h
  have hp : sampleDb.persons.get? 1 = some rider := by decide +kernel
  have hq : patched samplePatch rider = some { rider with phone := "+919000000001" } := by
    decide +kernel
  have hrefused : Refused sampleHash samplePatch { rider with phone := "+919000000001" }
      sampleDb.users :=
    ⟨(2, riderLogin), by decide +kernel, by decide, (1, customer), by decide +kernel, by decide⟩
  have hraises : Raises (patchPerson sampleHash 1 samplePatch) sampleDb _ :=
    patchPerson_raises hp hq hrefused
  obtain ⟨e, he⟩ := hraises.outcome
  have hkept := h.refused e he
  rw [hraises.final, savePerson_eq_self hp] at hkept
  exact absurd (congrArg (fun p : Person => p.phone) hkept) (by decide)

theorem cleanEdit_iff_sample :
    CleanEdit sampleHash 1 samplePatch sampleDb ↔ Fits sampleHash 1 samplePatch sampleDb :=
  cleanEdit_iff (uniquePhones_of_nodup (by decide +kernel))

end Riders

end SweetCrust
