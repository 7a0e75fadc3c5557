import SweetCrust.Data.Rows
import SweetCrust.Lib.Session
import SweetCrust.Lib.Since
import SweetCrust.Lib.Table
import SweetCrust.Shops.Hours
import SweetCrust.StoreOps.Phone

/-!
# The directory of shops

A shop signs up and submits its papers, the admin approves or rejects it, blocks it and lets it in
again, and the shop opens and closes its door.  Outside its hours the door is not kept shut: each
request that shows the shop looks at the clock first, and shuts the door if it is too late or too
early.  Nothing opens it again but the shop.

* `serve` — the requests of `shops.py`, of `retailer_bff.py` and of the catalog service that read
  or write a shop's row.
* `edit`, `shopOf_serve_some` — what a request makes of a row, whatever the others are.
* `Approves`, `Frees`, `Opens` and their opposites — the requests that give a shop something, and
  those that take it away.
* `listed_iff`, `open_iff` — which shops customers see, and which of them as open, from the
  requests alone.
-/

namespace SweetCrust

open Tabular Session Text Decimal Runs ShopHours

namespace Directory

inductive Approval
  | incomplete | pending | approved | rejected
  deriving DecidableEq, Inhabited

/-- The row of a shop. -/
structure Shop where
  userId : ℕ
  shopName : String
  ownerName : Option String := none
  contactPhone : Option String := none
  shopLogoUrl : Option String := none
  shopOpenTime : Option String := some "09:00"
  shopCloseTime : Option String := some "21:00"
  shopDays : Option String := some "Mon-Sun"
  isOpen : Bool := true
  approvalStatus : Approval := .approved
  isBlocked : Bool := false
  creditAllowed : Bool := true
  creditLimit : ℚ := 50000
  isWholesaler : Bool := true
  deriving DecidableEq, Inhabited

structure Dir where
  users : Table User
  shops : Table Shop

def Dir.empty : Dir := ⟨.empty, .empty⟩

abbrev Service (α : Type) : Type := Sess AppError Dir α

/-- A write that the database does not take. -/
def integrityError : AppError := .uncaught "IntegrityError"

def shopOf (d : Dir) (userId : ℕ) : Option (ℕ × Shop) :=
  d.shops.first? fun p => p.userId = userId

/-! ## Hours -/

section Hours

variable (utcoffset : ℤ → ℤ)

/-- `profile_within_hours`, where `now` is what the clock reads. -/
def ProfileWithinHours (now : ℤ) (p : Shop) : Prop :=
  IsWithinShopHours utcoffset now p.shopOpenTime p.shopCloseTime p.shopDays none

instance (now : ℤ) (p : Shop) : Decidable (ProfileWithinHours utcoffset now p) := by
  unfold ProfileWithinHours
  infer_instance

/-- The shop is shown as open, and should not be. -/
def Overdue (now : ℤ) (p : Shop) : Prop := p.isOpen = true ∧ ¬ ProfileWithinHours utcoffset now p

instance (now : ℤ) (p : Shop) : Decidable (Overdue utcoffset now p) := by
  unfold Overdue
  infer_instance

/-- `enforce_auto_close`: the row after it. -/
def enforceAutoClose (now : ℤ) (p : Shop) : Shop :=
  if Overdue utcoffset now p then { p with isOpen := false } else p

end Hours

/-! ## Shops come and go -/

/-- The row that `_ensure_retailer_stub` adds. -/
def stub (userId : ℕ) (user : User) : Shop where
  userId := userId
  shopName := "My Shop"
  ownerName := user.name
  contactPhone := if "+91R".toList <+: user.phone.toList then none else truthy (some user.phone)
  shopLogoUrl := user.avatarUrl
  creditAllowed := false
  creditLimit := 0
  approvalStatus := .incomplete

/-- What `_ensure_retailer_stub` fills in. -/
def filledIn (user : User) (p : Shop) : Shop :=
  { p with
    ownerName :=
      if (truthy user.name).isSome ∧ (truthy p.ownerName = none ∨ p.ownerName = some "Shop Owner")
      then user.name else p.ownerName
    shopLogoUrl :=
      if (truthy user.avatarUrl).isSome ∧ truthy p.shopLogoUrl = none then user.avatarUrl
      else p.shopLogoUrl }

/-- `_ensure_retailer_stub`, for a user that signs in. -/
def ensureRetailerStub (userId : ℕ) : Service Unit := do
  let d ← get
  let user ← orRaise (d.users.get? userId) (.notFound "User not found")
  match shopOf d userId with
  | some r => modify fun d => { d with shops := d.shops.modify r.1 (filledIn user) }
  | none => modify fun d => { d with shops := d.shops.insert (stub userId user) }
  commit

/-- `ShopCreateIn`. -/
structure ShopCreateIn where
  phone : String
  password : String
  shopName : String
  ownerName : String
  contactPhone : Option String := none
  creditAllowed : Bool := true
  creditLimit : ℚ := 50000

/-- The row that `create_shop` adds. -/
def newShop (userId : ℕ) (body : ShopCreateIn) : Shop where
  userId := userId
  shopName := String.ofList (strip isSpace body.shopName.toList)
  ownerName := some (String.ofList (strip isSpace body.ownerName.toList))
  contactPhone :=
    let phone := Phones.normalizePhone body.phone
    some ((truthy (some (String.ofList
      (strip isSpace ((truthy body.contactPhone).getD phone).toList)))).getD phone)
  creditAllowed := body.creditAllowed
  creditLimit := body.creditLimit

/-- `create_shop`: the key of the user.  `hashed` is what `hash_password` comes to. -/
def createShop (body : ShopCreateIn) (hashed : Except AppError Unit) : Service ℕ := do
  let phone := Phones.normalizePhone body.phone
  raiseIf (body.password.length < 6) (.badRequest "Password must be at least 6 characters")
  let d ← get
  raiseIf ((d.users.first? fun u => u.phone = phone).isSome = true)
    (.conflict "Phone already in use")
  ofExcept hashed
  let user : User := { (default : User) with
    phone, role := .retailer, termsAccepted := true
    name := some (String.ofList (strip isSpace body.ownerName.toList)) }
  modify fun d => { d with users := d.users.insert user }
  commit
  let userId := d.users.next
  raiseIf ((shopOf d userId).isSome = true) integrityError
  modify fun d => { d with shops := d.shops.insert (newShop userId body) }
  commit
  return userId

/-! ## Approval -/

/-- The shop's row, after the change `f` if there is one. -/
def changeShop (userId : ℕ) (missing : String) (f : Shop → Shop) : Service Unit := do
  let d ← get
  let r ← orRaise (shopOf d userId) (.notFound missing)
  modify fun d => { d with shops := d.shops.modify r.1 f }
  commit

def approved (creditAllowed : Option Bool) (creditLimit : Option ℚ) (p : Shop) : Shop :=
  { p with
    approvalStatus := .approved
    isBlocked := false
    creditAllowed := creditAllowed.getD p.creditAllowed
    creditLimit := creditLimit.getD p.creditLimit }

/-- `submit`. -/
def submit (userId : ℕ) : Service Unit :=
  changeShop userId "Retailer profile not found" fun p => { p with approvalStatus := .pending }

/-- `approve_shop`. -/
def approveShop (userId : ℕ) (creditAllowed : Option Bool) (creditLimit : Option ℚ) :
    Service Unit :=
  changeShop userId "Shop not found" (approved creditAllowed creditLimit)

/-- `reject_shop`. -/
def rejectShop (userId : ℕ) : Service Unit :=
  changeShop userId "Shop not found" fun p => { p with approvalStatus := .rejected }

/-- `ShopPatchIn`: the fields that are set, some of them to null. -/
structure ShopPatchIn where
  isBlocked : Option (Option Bool) := none
  creditAllowed : Option (Option Bool) := none
  creditLimit : Option (Option ℚ) := none
  contactPhone : Option (Option String) := none
  isWholesaler : Option (Option Bool) := none

/-- The columns that may not be null are not set to null. -/
def ShopPatchIn.Fits (body : ShopPatchIn) : Prop :=
  body.isBlocked ≠ some none ∧ body.creditAllowed ≠ some none ∧ body.creditLimit ≠ some none ∧
    body.isWholesaler ≠ some none

instance (body : ShopPatchIn) : Decidable body.Fits := inferInstanceAs (Decidable (_ ∧ _))

def ShopPatchIn.patched (body : ShopPatchIn) (p : Shop) : Shop :=
  { p with
    isBlocked := body.isBlocked.join.getD p.isBlocked
    creditAllowed := body.creditAllowed.join.getD p.creditAllowed
    creditLimit := body.creditLimit.join.getD p.creditLimit
    contactPhone := (body.contactPhone.map fun c => c.map Phones.normalizePhone).getD p.contactPhone
    isWholesaler := body.isWholesaler.join.getD p.isWholesaler }

/-- `patch_shop`. -/
def patchShop (userId : ℕ) (body : ShopPatchIn) : Service Unit := do
  let d ← get
  let r ← orRaise (shopOf d userId) (.notFound "Shop not found")
  raiseIf (¬ body.Fits) integrityError
  modify fun d => { d with shops := d.shops.modify r.1 body.patched }
  commit

/-! ## The door -/

section Door

variable (utcoffset : ℤ → ℤ)

/-- `me`: the row as it is then. -/
def me (userId : ℕ) (now : ℤ) : Service Shop := do
  let d ← get
  let r ← orRaise (shopOf d userId) (.notFound "Retailer profile not found")
  modify fun d => { d with shops := d.shops.modify r.1 (enforceAutoClose utcoffset now) }
  commit
  return enforceAutoClose utcoffset now r.2

/-- `RetailerProfilePatchIn`: the fields that are set, some of them to null. -/
structure ProfilePatchIn where
  shopName : Option (Option String) := none
  ownerName : Option (Option String) := none
  contactPhone : Option (Option String) := none
  shopLogoUrl : Option (Option String) := none
  shopOpenTime : Option (Option String) := none
  shopCloseTime : Option (Option String) := none
  shopDays : Option (Option String) := none
  isOpen : Option Bool := none

/-- The row with the fields of the request, but for the door. -/
def ProfilePatchIn.patched (data : ProfilePatchIn) (p : Shop) : Shop :=
  { p with
    shopName := data.shopName.join.getD p.shopName
    ownerName := data.ownerName.getD p.ownerName
    contactPhone := data.contactPhone.getD p.contactPhone
    shopLogoUrl := data.shopLogoUrl.getD p.shopLogoUrl
    shopOpenTime := data.shopOpenTime.getD p.shopOpenTime
    shopCloseTime := data.shopCloseTime.getD p.shopCloseTime
    shopDays := data.shopDays.getD p.shopDays }

/-- The row with the door as the request wants it. -/
def ProfilePatchIn.opened (data : ProfilePatchIn) (p : Shop) : Shop :=
  { data.patched p with isOpen := data.isOpen.getD p.isOpen }

/-- `patch_me`, which reads the clock up to three times. -/
def patchMe (userId : ℕ) (data : ProfilePatchIn) (asked saved shown : ℤ) : Service Shop := do
  let d ← get
  let r ← orRaise (shopOf d userId) (.notFound "Retailer profile not found")
  raiseIf (data.isOpen = some true ∧ ¬ ProfileWithinHours utcoffset asked (data.patched r.2))
    (.badRequest "Outside shop hours — update open/close time first")
  raiseIf (data.shopName = some none) integrityError
  modify fun d =>
    { d with
      shops := d.shops.modify r.1 fun p => enforceAutoClose utcoffset saved (data.opened p) }
  commit
  me utcoffset userId shown

/-! ## Who is shown -/

/-- The shop is on the marketplace. -/
def Listed (p : Shop) : Prop := p.approvalStatus = .approved ∧ p.isBlocked = false

instance (p : Shop) : Decidable (Listed p) := inferInstanceAs (Decidable (_ ∧ _))

/-- `list_shops` of the admin, that reads the clock for each row. -/
def adminListShops (now : ℕ → ℤ) : Service (List Shop) := do
  modify fun d =>
    { d with shops := d.shops.mapRows fun i p => enforceAutoClose utcoffset (now i) p }
  commit
  let d ← get
  return d.shops.rows.map Prod.snd

/-- `list_shops` of the catalog service, which is `_apply_hours` on the shops that are listed. -/
def listShops (now : ℕ → ℤ) : Service (List Shop) := do
  modify fun d =>
    { d with
      shops := d.shops.mapRows fun i p =>
        if Listed p then enforceAutoClose utcoffset (now i) p else p }
  commit
  let d ← get
  return ((d.shops.select fun p => Listed p).map Prod.snd).insertionSort
    fun p q => p.shopName ≤ q.shopName

/-- `shop_detail`, without the products. -/
def shopDetail (userId : ℕ) (now : ℤ) : Service Shop := do
  let d ← get
  let r ← orRaise (d.shops.first? fun p => p.userId = userId ∧ Listed p)
    (.notFound "Shop not found")
  modify fun d => { d with shops := d.shops.modify r.1 (enforceAutoClose utcoffset now) }
  commit
  return enforceAutoClose utcoffset now r.2

end Door

/-! ## Requests -/

inductive Request
  /-- A sign-in adds the row of a user. -/
  | newUser (user : User)
  | signIn (userId : ℕ)
  | create (body : ShopCreateIn) (hashed : Except AppError Unit)
  | submit (userId : ℕ)
  | approve (userId : ℕ) (creditAllowed : Option Bool) (creditLimit : Option ℚ)
  | reject (userId : ℕ)
  | patchShop (userId : ℕ) (body : ShopPatchIn)
  | patchMe (userId : ℕ) (data : ProfilePatchIn) (asked saved shown : ℤ)
  | me (userId : ℕ) (now : ℤ)
  | adminList (now : ℕ → ℤ)
  | list (now : ℕ → ℤ)
  | detail (userId : ℕ) (now : ℤ)

/-- The tables after a request. -/
def serve (utcoffset : ℤ → ℤ) (d : Dir) : Request → Dir
  | .newUser user => { d with users := d.users.insert user }
  | .signIn u => final (ensureRetailerStub u) d
  | .create body hashed => final (createShop body hashed) d
  | .submit u => final (Directory.submit u) d
  | .approve u creditAllowed creditLimit => final (approveShop u creditAllowed creditLimit) d
  | .reject u => final (rejectShop u) d
  | .patchShop u body => final (Directory.patchShop u body) d
  | .patchMe u data asked saved shown =>
    final (Directory.patchMe utcoffset u data asked saved shown) d
  | .me u now => final (Directory.me utcoffset u now) d
  | .adminList now => final (adminListShops utcoffset now) d
  | .list now => final (listShops utcoffset now) d
  | .detail u now => final (shopDetail utcoffset u now) d

/-! ## One row a user -/

/-- Every row is the one that its user's requests find. -/
def Unique (d : Dir) : Prop := ∀ i p, d.shops.get? i = some p → shopOf d p.userId = some (i, p)

section Rows

variable {d : Dir} {u i : ℕ} {p : Shop} {f : ℕ → Shop → Shop}

theorem unique_empty : Unique .empty := by
  intro i p h
  cases h

theorem owner_of_shopOf (h : shopOf d u = some (i, p)) : p.userId = u :=
  of_decide_eq_true (Table.get?_of_first? h).2

/-- The row of a user after a change of all rows. -/
theorem shopOf_mapRows (hf : ∀ i p, (f i p).userId = p.userId) (users : Table User) :
    shopOf ⟨users, d.shops.mapRows f⟩ u = (shopOf d u).map fun r => (r.1, f r.1 r.2) :=
  Table.first?_mapRows d.shops fun i p => by rw [hf]

theorem shopOf_insert (users : Table User) (p : Shop) :
    shopOf ⟨users, d.shops.insert p⟩ u =
      (shopOf d u).or (if p.userId = u then some (d.shops.next, p) else none) := by
  unfold shopOf
  rw [Table.first?_insert]
  simp only [decide_eq_true_eq]

theorem Unique.mapRows (h : Unique d) (hf : ∀ i p, (f i p).userId = p.userId)
    (users : Table User) : Unique ⟨users, d.shops.mapRows f⟩ := by
  intro i p hp
  rw [Table.get?_mapRows, Option.map_eq_some_iff] at hp
  obtain ⟨q, hq, rfl⟩ := hp
  rw [shopOf_mapRows hf, hf, h i q hq]
  rfl

theorem Unique.insert (h : Unique d) (hnew : shopOf d p.userId = none) (users : Table User) :
    Unique ⟨users, d.shops.insert p⟩ := by
  intro i q hq
  rw [shopOf_insert]
  rw [Table.get?_insert] at hq
  split_ifs at hq with hi
  · cases hq
    rw [hnew, if_pos rfl, hi]
    rfl
  · rw [h i q hq]
    rfl

/-- Where rows are unique, a change of the row of a user is one of all rows of the user. -/
theorem modify_shopOf (h : Unique d) {r : ℕ × Shop} (hr : shopOf d u = some r) (f : Shop → Shop) :
    d.shops.modify r.1 f = d.shops.mapRows fun _ p => if p.userId = u then f p else p := by
  have hget := (Table.get?_of_first? hr).1
  refine Table.ext ?_ rfl
  rw [Table.rows_modify, Table.rows_mapRows]
  refine List.map_congr_left fun q hq => ?_
  have hq' := Table.get?_eq_some.2 hq
  by_cases hi : q.1 = r.1
  · have heq : q.2 = r.2 := by
      rw [hi, hget] at hq'
      exact (Option.some.inj hq').symm
    rw [if_pos hi, heq, if_pos (owner_of_shopOf hr)]
  · rw [if_neg hi, if_neg]
    rintro rfl
    have hfirst := h q.1 q.2 hq'
    rw [hr] at hfirst
    cases hfirst
    exact hi rfl

/-- A change of the rows of a user without a row changes nothing. -/
theorem mapRows_of_none (h : Unique d) (hu : shopOf d u = none) (f : ℕ → Shop → Shop) :
    (d.shops.mapRows fun i p => if p.userId = u then f i p else p) = d.shops := by
  refine Table.ext ?_ rfl
  rw [Table.rows_mapRows]
  refine (List.map_congr_left fun q hq => ?_).trans (List.map_id _)
  rw [if_neg]
  · rfl
  · rintro rfl
    have hfirst := h q.1 q.2 (Table.get?_eq_some.2 hq)
    rw [hu] at hfirst
    cases hfirst

end Rows

/-! ## What a request does -/

section Effects

variable (utcoffset : ℤ → ℤ)

/-- The hours of the row do not stand against what the request asks of the door. -/
def ProfilePatchIn.Accepted (data : ProfilePatchIn) (asked : ℤ) (p : Shop) : Prop :=
  ¬ (data.isOpen = some true ∧ ¬ ProfileWithinHours utcoffset asked (data.patched p)) ∧
    data.shopName ≠ some none

instance (data : ProfilePatchIn) (asked : ℤ) (p : Shop) :
    Decidable (data.Accepted utcoffset asked p) := inferInstanceAs (Decidable (_ ∧ _))

/-- What a request makes of a row that is there. -/
def edit (users : Table User) (r : Request) (i : ℕ) (p : Shop) : Shop :=
  match r with
  | .newUser _ | .create _ _ => p
  | .signIn u => if p.userId = u then ((users.get? u).map filledIn).getD id p else p
  | .submit u => if p.userId = u then { p with approvalStatus := .pending } else p
  | .approve u creditAllowed creditLimit =>
    if p.userId = u then approved creditAllowed creditLimit p else p
  | .reject u => if p.userId = u then { p with approvalStatus := .rejected } else p
  | .patchShop u body => if p.userId = u then if body.Fits then body.patched p else p else p
  | .patchMe u data asked saved shown =>
    if p.userId = u then
      if data.Accepted utcoffset asked p then
        enforceAutoClose utcoffset shown (enforceAutoClose utcoffset saved (data.opened p))
      else p
    else p
  | .me u now => if p.userId = u then enforceAutoClose utcoffset now p else p
  | .adminList now => enforceAutoClose utcoffset (now i) p
  | .list now => if Listed p then enforceAutoClose utcoffset (now i) p else p
  | .detail u now =>
    if p.userId = u then if Listed p then enforceAutoClose utcoffset now p else p else p

/-- The request adds a row, for the user `u`. -/
def Founds (d : Dir) (u : ℕ) : Request → Prop
  | .signIn w => w = u ∧ (d.users.get? u).isSome = true ∧ shopOf d u = none
  | .create body hashed => 6 ≤ body.password.length ∧ hashed = .ok () ∧
      d.users.first? (fun w => w.phone = Phones.normalizePhone body.phone) = none ∧
      d.users.next = u ∧ shopOf d u = none
  | _ => False

/-- The row that is added. -/
def founded (d : Dir) (u : ℕ) : Request → Shop
  | .signIn _ => stub u ((d.users.get? u).getD default)
  | .create body _ => newShop u body
  | _ => default

/-- What a request leaves: each row on its own is edited, or a user has a first row. -/
inductive Served (d : Dir) (r : Request) : Dir → Prop
  | edited (users : Table User) (hr : ∀ u, ¬ Founds d u r) :
      Served d r ⟨users, d.shops.mapRows (edit utcoffset d.users r)⟩
  | added (users : Table User) (u : ℕ) (hr : Founds d u r) :
      Served d r ⟨users, d.shops.insert (founded d u r)⟩

@[simp] theorem userId_enforceAutoClose (now : ℤ) (p : Shop) :
    (enforceAutoClose utcoffset now p).userId = p.userId := by
  unfold enforceAutoClose
  split_ifs <;> rfl

theorem userId_edit (users : Table User) (r : Request) (i : ℕ) (p : Shop) :
    (edit utcoffset users r i p).userId = p.userId := by
  cases r with
  | signIn u =>
    simp only [edit]
    split_ifs
    · cases users.get? u <;> rfl
    · rfl
  | _ =>
    simp only [edit]
    try split_ifs
    all_goals simp [approved, ShopPatchIn.patched, ProfilePatchIn.opened, ProfilePatchIn.patched]

variable {utcoffset}

section Serve

variable {d : Dir} {r : Request} {u : ℕ}

/-- The request leaves the rows as they are. -/
theorem Served.same (users : Table User) (hr : ∀ u, ¬ Founds d u r)
    (h : d.shops.mapRows (edit utcoffset d.users r) = d.shops) :
    Served utcoffset d r ⟨users, d.shops⟩ := by
  have hedited : Served utcoffset d r _ := .edited users hr
  rwa [h] at hedited

theorem mapRows_self (t : Table Shop) : (t.mapRows fun _ p => p) = t := by
  refine Table.ext ?_ rfl
  rw [Table.rows_mapRows]
  exact List.map_id _

/-- After a request that changes the row of one user, and nothing where the user has no row. -/
theorem served_of_row (hd : Unique d) {f : Shop → Shop} {t : Dir} (hr : ∀ u, ¬ Founds d u r)
    (hedit : edit utcoffset d.users r = fun _ p => if p.userId = u then f p else p)
    (hnone : shopOf d u = none → t = d)
    (hsome : ∀ q, shopOf d u = some q → t = ⟨d.users, d.shops.modify q.1 f⟩) :
    Served utcoffset d r t := by
  cases hu : shopOf d u with
  | none =>
    rw [hnone hu]
    refine Served.same d.users hr ?_
    rw [hedit]
    exact mapRows_of_none hd hu _
  | some q =>
    rw [hsome q hu, modify_shopOf hd hu, ← hedit]
    exact .edited d.users hr

theorem final_changeShop_none (hu : shopOf d u = none) (missing : String) (f : Shop → Shop) :
    final (changeShop u missing f) d = d := by
  unfold changeShop
  rw [final_get_bind, hu]
  rfl

theorem final_changeShop_some {q : ℕ × Shop} (hu : shopOf d u = some q) (missing : String)
    (f : Shop → Shop) :
    final (changeShop u missing f) d = ⟨d.users, d.shops.modify q.1 f⟩ := by
  unfold changeShop
  rw [final_get_bind, hu]
  rfl

theorem final_me_none (hu : shopOf d u = none) (now : ℤ) : final (me utcoffset u now) d = d := by
  unfold me
  rw [final_get_bind, hu]
  rfl

theorem final_me_some {q : ℕ × Shop} (hu : shopOf d u = some q) (now : ℤ) :
    final (me utcoffset u now) d =
      ⟨d.users, d.shops.modify q.1 (enforceAutoClose utcoffset now)⟩ := by
  unfold me
  rw [final_get_bind, hu]
  rfl

/-- `patch_me` where the user has a row. -/
theorem final_patchMe_some {q : ℕ × Shop} (hu : shopOf d u = some q) (data : ProfilePatchIn)
    (asked saved shown : ℤ) :
    final (patchMe utcoffset u data asked saved shown) d =
      if data.Accepted utcoffset asked q.2 then
        ⟨d.users, d.shops.modify q.1 fun p =>
          enforceAutoClose utcoffset shown (enforceAutoClose utcoffset saved (data.opened p))⟩
      else d := by
  have hself : shopOf ⟨d.users, d.shops.modify q.1 fun p =>
      enforceAutoClose utcoffset saved (data.opened p)⟩ u =
      some (q.1, enforceAutoClose utcoffset saved (data.opened q.2)) := by
    refine Table.first?_modify_self hu fun p => ?_
    simp [ProfilePatchIn.opened, ProfilePatchIn.patched]
  unfold patchMe
  rw [final_get_bind, hu, final_orRaise_some_bind, final_raiseIf_bind]
  by_cases hhours : data.isOpen = some true ∧
      ¬ ProfileWithinHours utcoffset asked (data.patched q.2)
  · have hrefused : ¬ data.Accepted utcoffset asked q.2 := fun h => h.1 hhours
    rw [if_pos hhours, if_neg hrefused]
  rw [if_neg hhours, final_raiseIf_bind]
  by_cases hname : data.shopName = some none
  · have hrefused : ¬ data.Accepted utcoffset asked q.2 := fun h => h.2 hname
    rw [if_pos hname, if_neg hrefused]
  have haccepted : data.Accepted utcoffset asked q.2 := ⟨hhours, hname⟩
  rw [if_neg hname, if_pos haccepted, final_modify_commit_bind, final_me_some hself,
    Table.modify_modify]

/-- A change of a row, by what it makes of the row that is there. -/
theorem modify_congr_row {t : Table Shop} {i : ℕ} {p : Shop} {f g : Shop → Shop}
    (hp : t.get? i = some p) (hfg : f p = g p) : t.modify i f = t.modify i g := by
  refine Table.ext ?_ rfl
  rw [Table.rows_modify, Table.rows_modify]
  refine List.map_congr_left fun q hq => ?_
  by_cases hi : q.1 = i
  · have hq' := Table.get?_eq_some.2 hq
    rw [hi, hp] at hq'
    rw [if_pos hi, if_pos hi, ← Option.some.inj hq', hfg]
  · rw [if_neg hi, if_neg hi]

theorem modify_id_row {t : Table Shop} {i : ℕ} {p : Shop} {f : Shop → Shop}
    (hp : t.get? i = some p) (hf : f p = p) : t.modify i f = t := by
  rw [modify_congr_row (g := fun _ => p) hp hf, Table.modify_const_self hp]

/-- The row that `shop_detail` finds. -/
theorem first?_listed (hd : Unique d) : (d.shops.first? fun p => p.userId = u ∧ Listed p) =
    (shopOf d u).filter fun q => Listed q.2 := by
  cases hfirst : d.shops.first? fun p => p.userId = u ∧ Listed p with
  | some q =>
    obtain ⟨hget, hq⟩ := Table.get?_of_first? hfirst
    obtain ⟨rfl, hlisted⟩ := of_decide_eq_true hq
    rw [hd q.1 q.2 hget, Option.filter_some, if_pos (decide_eq_true hlisted)]
  | none =>
    symm
    rw [Option.filter_eq_none_iff]
    intro q hq hlisted
    have hget := Table.get?_of_first? hq
    have hnot := Table.first?_eq_none.1 hfirst q.1 q.2 hget.1
    exact of_decide_eq_false hnot ⟨of_decide_eq_true hget.2, of_decide_eq_true hlisted⟩

theorem served_patchShop (hd : Unique d) (body : ShopPatchIn) :
    Served utcoffset d (.patchShop u body) (final (patchShop u body) d) := by
  refine served_of_row hd (u := u) (f := fun p => if body.Fits then body.patched p else p)
    (fun _ h => h) rfl (fun hu => ?_) fun q hu => ?_
  · unfold patchShop
    rw [final_get_bind, hu]
    rfl
  · unfold patchShop
    rw [final_get_bind, hu, final_orRaise_some_bind, final_raiseIf_bind]
    by_cases hfits : body.Fits
    · rw [if_neg (not_not.2 hfits)]
      simp only [hfits, if_true]
      rfl
    · rw [if_pos hfits]
      simp only [hfits, if_false]
      rw [modify_id_row (Table.get?_of_first? hu).1 rfl]

theorem served_patchMe (hd : Unique d) (data : ProfilePatchIn) (asked saved shown : ℤ) :
    Served utcoffset d (.patchMe u data asked saved shown)
      (final (patchMe utcoffset u data asked saved shown) d) := by
  refine served_of_row hd (u := u) (fun _ h => h) rfl (fun hu => ?_) fun q hu => ?_
  · unfold patchMe
    rw [final_get_bind, hu]
    rfl
  · rw [final_patchMe_some hu]
    have hget := (Table.get?_of_first? hu).1
    by_cases haccepted : data.Accepted utcoffset asked q.2
    · rw [if_pos haccepted]
      exact congrArg _ (modify_congr_row hget (if_pos haccepted).symm)
    · rw [if_neg haccepted]
      refine congrArg (Dir.mk d.users) (modify_id_row hget ?_).symm
      exact if_neg haccepted

theorem served_detail (hd : Unique d) (now : ℤ) :
    Served utcoffset d (.detail u now) (final (shopDetail utcoffset u now) d) := by
  refine served_of_row hd (u := u) (fun _ h => h) rfl (fun hu => ?_) fun q hu => ?_
  · unfold shopDetail
    rw [final_get_bind, first?_listed hd, hu]
    rfl
  · unfold shopDetail
    rw [final_get_bind, first?_listed hd, hu, Option.filter_some]
    have hget := (Table.get?_of_first? hu).1
    by_cases hlisted : Listed q.2
    · rw [if_pos (decide_eq_true hlisted)]
      exact congrArg (Dir.mk d.users) (modify_congr_row hget (if_pos hlisted).symm)
    · rw [if_neg (by simpa using hlisted)]
      refine congrArg (Dir.mk d.users) (modify_id_row hget ?_).symm
      exact if_neg hlisted

theorem served_signIn (hd : Unique d) :
    Served utcoffset d (.signIn u) (final (ensureRetailerStub u) d) := by
  unfold ensureRetailerStub
  rw [final_get_bind]
  cases huser : d.users.get? u with
  | none =>
    refine Served.same d.users (fun w hw => ?_) ?_
    · obtain ⟨rfl, hsome, -⟩ := hw
      rw [huser] at hsome
      cases hsome
    · refine (congrArg d.shops.mapRows ?_).trans (mapRows_self d.shops)
      funext i p
      simp [edit, huser]
  | some user =>
    rw [final_orRaise_some_bind]
    cases hu : shopOf d u with
    | none =>
      have hfounds : Founds d u (.signIn u) := ⟨rfl, by rw [huser]; rfl, hu⟩
      have hserved : Served utcoffset d (.signIn u) _ := .added d.users u hfounds
      rw [founded, huser] at hserved
      exact hserved
    | some q =>
      show Served utcoffset d (.signIn u) ⟨d.users, d.shops.modify q.1 (filledIn user)⟩
      refine served_of_row hd (u := u) (f := filledIn user) ?_ ?_ ?_ ?_
      · rintro w ⟨rfl, -, hw⟩
        rw [hu] at hw
        cases hw
      · funext i p
        simp [edit, huser]
      · intro hnone
        rw [hu] at hnone
        cases hnone
      · intro q' hq'
        rw [hu] at hq'
        cases hq'
        rfl

theorem served_create (body : ShopCreateIn) (hashed : Except AppError Unit) :
    Served utcoffset d (.create body hashed) (final (createShop body hashed) d) := by
  have hsame : ∀ users, (∀ u, ¬ Founds d u (.create body hashed)) →
      Served utcoffset d (.create body hashed) ⟨users, d.shops⟩ :=
    fun users hr => Served.same users hr (mapRows_self d.shops)
  unfold createShop
  rw [final_raiseIf_bind]
  split_ifs with hshort
  · exact hsame d.users fun w hw => absurd hw.1 (not_le.2 hshort)
  rw [final_get_bind, final_raiseIf_bind]
  split_ifs with hphone
  · exact hsame d.users fun w hw => by simp [hw.2.2.1] at hphone
  cases hashed with
  | error e =>
    rw [final_ofExcept_error_bind]
    exact hsame d.users fun w hw => by cases hw.2.1
  | ok digest =>
  rw [final_ofExcept_ok_bind, final_modify_commit_bind]
  dsimp only
  rw [final_raiseIf_bind]
  split_ifs with hunique
  · exact hsame _ fun w hw => by
      obtain ⟨-, -, -, rfl, hnone⟩ := hw
      simp [hnone] at hunique
  · have hfounds : Founds d d.users.next (.create body (.ok digest)) := by
      refine ⟨not_lt.1 hshort, rfl, ?_, rfl, ?_⟩
      · simpa using hphone
      · simpa using hunique
    exact .added _ d.users.next hfounds

theorem serve_served (hd : Unique d) (r : Request) :
    Served utcoffset d r (serve utcoffset d r) := by
  cases r with
  | newUser user => exact Served.same _ (fun _ h => h) (mapRows_self d.shops)
  | signIn u => exact served_signIn hd
  | create body hashed => exact served_create body hashed
  | submit u =>
    exact served_of_row hd (fun _ h => h) rfl (fun hu => final_changeShop_none hu _ _)
      fun q hu => final_changeShop_some hu _ _
  | approve u creditAllowed creditLimit =>
    exact served_of_row hd (fun _ h => h) rfl (fun hu => final_changeShop_none hu _ _)
      fun q hu => final_changeShop_some hu _ _
  | reject u =>
    exact served_of_row hd (fun _ h => h) rfl (fun hu => final_changeShop_none hu _ _)
      fun q hu => final_changeShop_some hu _ _
  | patchShop u body => exact served_patchShop hd body
  | patchMe u data asked saved shown => exact served_patchMe hd data asked saved shown
  | me u now =>
    exact served_of_row hd (fun _ h => h) rfl (fun hu => final_me_none hu now)
      fun q hu => final_me_some hu now
  | adminList now => exact .edited d.users fun _ h => h
  | list now => exact .edited d.users fun _ h => h
  | detail u now => exact served_detail hd now

end Serve

theorem founds_none {d : Dir} {u : ℕ} {r : Request} (h : Founds d u r) : shopOf d u = none := by
  cases r with
  | signIn w => exact h.2.2
  | create body hashed => exact h.2.2.2.2
  | _ => cases h

theorem founds_unique {d : Dir} {u w : ℕ} {r : Request} (h : Founds d u r) (hw : Founds d w r) :
    u = w := by
  cases r with
  | signIn v => exact h.1.symm.trans hw.1
  | create body hashed => exact h.2.2.2.1.symm.trans hw.2.2.2.1
  | _ => cases h

@[simp] theorem userId_founded {d : Dir} {u : ℕ} {r : Request} (h : Founds d u r) :
    (founded d u r).userId = u := by
  cases r with
  | signIn w => rfl
  | create body hashed => rfl
  | _ => cases h

theorem Served.unique {d t : Dir} {r : Request} (h : Served utcoffset d r t) (hd : Unique d) :
    Unique t := by
  cases h with
  | edited users hr => exact hd.mapRows (userId_edit utcoffset d.users r) users
  | added users u hr =>
    have hnone : shopOf d (founded d u r).userId = none := by
      rw [userId_founded hr]
      exact founds_none hr
    exact hd.insert hnone users

variable {d : Dir} {u : ℕ} {r : Request}

/-- A row that is there is edited, whatever the other rows are. -/
theorem shopOf_serve_some (hd : Unique d) {i : ℕ} {p : Shop} (hu : shopOf d u = some (i, p)) :
    shopOf (serve utcoffset d r) u = some (i, edit utcoffset d.users r i p) := by
  have hserved : Served utcoffset d r (serve utcoffset d r) := serve_served hd r
  generalize serve utcoffset d r = t at hserved
  cases hserved with
  | edited users hr => rw [shopOf_mapRows (userId_edit utcoffset d.users r), hu, Option.map_some]
  | added users w hr =>
    have hedit : edit utcoffset d.users r i p = p := by
      cases r with
      | signIn v =>
        have hne : p.userId ≠ v := by
          rw [owner_of_shopOf hu]
          rintro rfl
          rw [hr.1, founds_none hr] at hu
          cases hu
        exact if_neg hne
      | create body => rfl
      | _ => cases hr
    rw [shopOf_insert, hu, hedit, Option.some_or]

/-- A user gets a row exactly by the requests that add one for it. -/
theorem shopOf_serve_none (hd : Unique d) (hu : shopOf d u = none) :
    (Founds d u r ∧ shopOf (serve utcoffset d r) u = some (d.shops.next, founded d u r)) ∨
      (¬ Founds d u r ∧ shopOf (serve utcoffset d r) u = none) := by
  have hserved : Served utcoffset d r (serve utcoffset d r) := serve_served hd r
  generalize serve utcoffset d r = t at hserved
  cases hserved with
  | edited users hr =>
    right
    rw [shopOf_mapRows (userId_edit utcoffset d.users r), hu]
    exact ⟨hr u, rfl⟩
  | added users w hr =>
    rw [shopOf_insert, hu, userId_founded hr, Option.none_or]
    by_cases hw : w = u
    · rw [if_pos hw]
      rw [hw] at hr ⊢
      exact .inl ⟨hr, rfl⟩
    · rw [if_neg hw]
      exact .inr ⟨fun h => hw (founds_unique hr h), rfl⟩

end Effects

/-! ## Switches -/

section Switches

variable {utcoffset : ℤ → ℤ}

/-- The user has a shop, and it has the property. -/
def Has (φ : Shop → Prop) (u : ℕ) (d : Dir) : Prop := ∃ q, shopOf d u = some q ∧ φ q.2

/-- Requests for the row of the user, or that add one. -/
def Puts (fresh : Request → Prop) (on : Request → ℕ → Shop → Prop) (u : ℕ) (d : Dir)
    (r : Request) : Prop :=
  Founds d u r ∧ fresh r ∨ ∃ q, shopOf d u = some q ∧ on r q.1 q.2

/-- What requests do to a property of a row: `on` gives it, `off` takes it away, and new rows have
it if `fresh` says so. -/
structure Trait (utcoffset : ℤ → ℤ) (φ : Shop → Prop) (fresh : Request → Prop)
    (on off : Request → ℕ → Shop → Prop) : Prop where
  gives : ∀ {users r i p}, on r i p → φ (edit utcoffset users r i p)
  takes : ∀ {users r i p}, off r i p → ¬ φ (edit utcoffset users r i p)
  stays : ∀ {users r i p}, ¬ on r i p → ¬ off r i p → (φ (edit utcoffset users r i p) ↔ φ p)
  start : ∀ {d u r}, Founds d u r → (φ (founded d u r) ↔ fresh r)

theorem Trait.switch {φ : Shop → Prop} {fresh : Request → Prop} {on off : Request → ℕ → Shop → Prop}
    (h : Trait utcoffset φ fresh on off) (u : ℕ) :
    Switch (serve utcoffset) Unique (Has φ u) (Puts fresh on u) (Puts (fun _ => False) off u) where
  keeps d r hd := (serve_served hd r).unique hd
  on := by
    rintro d r hd (⟨hfounds, hfresh⟩ | ⟨q, hq, hon⟩)
    · obtain ⟨-, hrow⟩ | ⟨hnot, -⟩ := shopOf_serve_none hd (founds_none hfounds)
      · exact ⟨_, hrow, (h.start hfounds).2 hfresh⟩
      · exact absurd hfounds hnot
    · exact ⟨_, shopOf_serve_some hd hq, h.gives hon⟩
  off := by
    rintro d r hd (⟨-, hfalse⟩ | ⟨q, hq, hoff⟩) ⟨q', hq', hφ⟩
    · exact hfalse
    · rw [shopOf_serve_some hd hq] at hq'
      cases hq'
      exact h.takes hoff hφ
  stays := by
    intro d r hd hon hoff
    unfold Has
    cases hu : shopOf d u with
    | some q =>
      have hstays : φ (edit utcoffset d.users r q.1 q.2) ↔ φ q.2 :=
        h.stays (fun hq => hon (.inr ⟨q, hu, hq⟩)) fun hq => hoff (.inr ⟨q, hu, hq⟩)
      simp [shopOf_serve_some hd hu, hstays]
    | none =>
      have hserve : (Founds d u r ∧ _) ∨ (¬ Founds d u r ∧ shopOf (serve utcoffset d r) u = none) :=
        shopOf_serve_none hd hu
      obtain ⟨hfounds, hrow⟩ | ⟨-, hrow⟩ := hserve
      · have hnot : ¬ φ (founded d u r) :=
          fun hφ => hon (.inl ⟨hfounds, (h.start hfounds).1 hφ⟩)
        simp [hrow, hnot]
      · simp [hrow]

/-! ### Approval, and blocking -/

/-- The admin brings the shop in itself. -/
def Brings : Request → Prop
  | .create _ _ => True
  | _ => False

def Approves : Request → ℕ → Shop → Prop
  | .approve u _ _, _, p => p.userId = u
  | _, _, _ => False

/-- The shop submits its papers again, or the admin rejects it. -/
def Recalls : Request → ℕ → Shop → Prop
  | .submit u, _, p => p.userId = u
  | .reject u, _, p => p.userId = u
  | _, _, _ => False

/-- An approval frees a shop, too. -/
def Frees : Request → ℕ → Shop → Prop
  | .approve u _ _, _, p => p.userId = u
  | .patchShop u body, _, p => p.userId = u ∧ body.Fits ∧ body.isBlocked = some (some false)
  | _, _, _ => False

def Blocks : Request → ℕ → Shop → Prop
  | .patchShop u body, _, p => p.userId = u ∧ body.Fits ∧ body.isBlocked = some (some true)
  | _, _, _ => False

@[simp] theorem approvalStatus_enforceAutoClose (now : ℤ) (p : Shop) :
    (enforceAutoClose utcoffset now p).approvalStatus = p.approvalStatus := by
  unfold enforceAutoClose
  split_ifs <;> rfl

@[simp] theorem isBlocked_enforceAutoClose (now : ℤ) (p : Shop) :
    (enforceAutoClose utcoffset now p).isBlocked = p.isBlocked := by
  unfold enforceAutoClose
  split_ifs <;> rfl

theorem trait_approved :
    Trait utcoffset (fun p => p.approvalStatus = .approved) Brings Approves Recalls where
  gives {users r i p} h := by
    cases r <;> simp_all [Approves, edit, approved]
  takes {users r i p} h := by
    cases r <;> simp_all [Recalls, edit]
  stays {users r i p} hon hoff := by
    cases r with
    | signIn u =>
      cases hu : users.get? u <;> simp [edit, hu, filledIn, apply_ite Shop.approvalStatus]
    | _ =>
      simp_all [edit, Approves, Recalls, apply_ite Shop.approvalStatus, ShopPatchIn.patched,
        ProfilePatchIn.opened, ProfilePatchIn.patched]
  start {d u r} h := by
    cases r <;> simp_all [founded, stub, newShop, Brings, Founds]

theorem trait_free :
    Trait utcoffset (fun p => p.isBlocked = false) (fun _ => True) Frees Blocks where
  gives {users r i p} h := by
    cases r <;> simp_all [Frees, edit, approved, ShopPatchIn.patched]
  takes {users r i p} h := by
    cases r <;> simp_all [Blocks, edit, ShopPatchIn.patched]
  stays {users r i p} hon hoff := by
    cases r with
    | signIn u => cases hu : users.get? u <;> simp [edit, hu, filledIn, apply_ite Shop.isBlocked]
    | patchShop u body =>
      simp only [edit]
      split_ifs with hu hfits
      · rcases hblocked : body.isBlocked with - | - | b
        · simp [ShopPatchIn.patched, hblocked]
        · simp [ShopPatchIn.patched, hblocked]
        · cases b
          · exact absurd ⟨hu, hfits, hblocked⟩ hon
          · exact absurd ⟨hu, hfits, hblocked⟩ hoff
      · rfl
      · rfl
    | _ =>
      simp_all [edit, Frees, Blocks, apply_ite Shop.isBlocked, ProfilePatchIn.opened,
        ProfilePatchIn.patched]
  start {d u r} h := by
    cases r <;> simp_all [founded, stub, newShop, Founds]

/-! ### The door -/

/-- The shop opens its door, within its hours. -/
def Opens (utcoffset : ℤ → ℤ) : Request → ℕ → Shop → Prop
  | .patchMe u data asked saved shown, _, p => p.userId = u ∧ data.Accepted utcoffset asked p ∧
      data.isOpen = some true ∧ ProfileWithinHours utcoffset saved (data.patched p) ∧
      ProfileWithinHours utcoffset shown (data.patched p)
  | _, _, _ => False

/-- The shop shuts its door, or somebody looks at it outside its hours. -/
def Shuts (utcoffset : ℤ → ℤ) : Request → ℕ → Shop → Prop
  | .patchMe u data asked saved shown, _, p => p.userId = u ∧ data.Accepted utcoffset asked p ∧
      (data.isOpen = some false ∨ ¬ ProfileWithinHours utcoffset saved (data.patched p) ∨
        ¬ ProfileWithinHours utcoffset shown (data.patched p))
  | .me u now, _, p => p.userId = u ∧ ¬ ProfileWithinHours utcoffset now p
  | .adminList now, i, p => ¬ ProfileWithinHours utcoffset (now i) p
  | .list now, i, p => Listed p ∧ ¬ ProfileWithinHours utcoffset (now i) p
  | .detail u now, _, p => p.userId = u ∧ Listed p ∧ ¬ ProfileWithinHours utcoffset now p
  | _, _, _ => False

theorem isOpen_enforceAutoClose (now : ℤ) (p : Shop) :
    (enforceAutoClose utcoffset now p).isOpen = true ↔
      p.isOpen = true ∧ ProfileWithinHours utcoffset now p := by
  unfold enforceAutoClose
  split_ifs with h
  · simp [h.2]
  · exact ⟨fun hopen => ⟨hopen, by_contra fun hlate => h ⟨hopen, hlate⟩⟩, And.left⟩

/-- The hours of a row are as they were. -/
theorem within_enforceAutoClose (now later : ℤ) (p : Shop) :
    ProfileWithinHours utcoffset later (enforceAutoClose utcoffset now p) ↔
      ProfileWithinHours utcoffset later p := by
  unfold enforceAutoClose
  split_ifs <;> rfl

/-- The door after `patch_me`. -/
theorem isOpen_patchMe (data : ProfilePatchIn) (saved shown : ℤ) (p : Shop) :
    (enforceAutoClose utcoffset shown (enforceAutoClose utcoffset saved (data.opened p))).isOpen =
        true ↔
      data.isOpen.getD p.isOpen = true ∧ ProfileWithinHours utcoffset saved (data.patched p) ∧
        ProfileWithinHours utcoffset shown (data.patched p) := by
  rw [isOpen_enforceAutoClose, within_enforceAutoClose, isOpen_enforceAutoClose, and_assoc]
  rfl

theorem trait_open :
    Trait utcoffset (fun p => p.isOpen = true) (fun _ => True) (Opens utcoffset)
      (Shuts utcoffset) where
  gives {users r i p} h := by
    cases r with
    | patchMe u data asked saved shown =>
      obtain ⟨hu, haccepted, hopen, hsaved, hshown⟩ := h
      simp only [edit, if_pos hu, if_pos haccepted, isOpen_patchMe, hopen]
      exact ⟨rfl, hsaved, hshown⟩
    | _ => cases h
  takes {users r i p} h := by
    cases r with
    | patchMe u data asked saved shown =>
      obtain ⟨hu, haccepted, hshut⟩ := h
      simp only [edit, if_pos hu, if_pos haccepted, isOpen_patchMe]
      rintro ⟨hopen, hsaved, hshown⟩
      obtain hdata | hlate | hlate := hshut
      · simp [hdata] at hopen
      · exact hlate hsaved
      · exact hlate hshown
    | me u now => simp [edit, h.1, isOpen_enforceAutoClose, h.2]
    | adminList now =>
      rw [edit, isOpen_enforceAutoClose]
      exact fun hopen => h hopen.2
    | list now => simp [edit, h.1, isOpen_enforceAutoClose, h.2]
    | detail u now => simp [edit, h.1, h.2.1, isOpen_enforceAutoClose, h.2.2]
    | _ => cases h
  stays {users r i p} hon hoff := by
    cases r with
    | signIn u => cases hu : users.get? u <;> simp [edit, hu, filledIn, apply_ite Shop.isOpen]
    | patchMe u data asked saved shown =>
      simp only [edit]
      split_ifs with hu haccepted
      · simp only [Shuts, hu, haccepted, true_and, not_or, not_not] at hoff
        obtain ⟨hclosed, hsaved, hshown⟩ := hoff
        rw [isOpen_patchMe]
        rcases hdata : data.isOpen with - | b
        · simp [hsaved, hshown]
        · cases b
          · exact absurd hdata hclosed
          · exact absurd ⟨hu, haccepted, hdata, hsaved, hshown⟩ hon
      · rfl
      · rfl
    | me u now =>
      simp only [edit]
      split_ifs with hu
      · simp only [Shuts, hu, true_and, not_not] at hoff
        rw [isOpen_enforceAutoClose]
        exact and_iff_left hoff
      · rfl
    | adminList now =>
      simp only [Shuts, not_not] at hoff
      rw [edit, isOpen_enforceAutoClose]
      exact and_iff_left hoff
    | list now =>
      simp only [edit]
      split_ifs with hlisted
      · simp only [Shuts, hlisted, true_and, not_not] at hoff
        rw [isOpen_enforceAutoClose]
        exact and_iff_left hoff
      · rfl
    | detail u now =>
      simp only [edit]
      split_ifs with hu hlisted
      · simp only [Shuts, hu, hlisted, true_and, not_not] at hoff
        rw [isOpen_enforceAutoClose]
        exact and_iff_left hoff
      · rfl
      · rfl
    | _ => simp_all [edit, apply_ite Shop.isOpen, approved, ShopPatchIn.patched]
  start {d u r} h := by
    cases r <;> simp_all [founded, stub, newShop, Founds]

end Switches

/-! ## What customers see -/

section Seen

variable {utcoffset : ℤ → ℤ} {d : Dir}

/-- What the catalog service answers. -/
def shownList (utcoffset : ℤ → ℤ) (now : ℕ → ℤ) (d : Dir) : List Shop :=
  match (listShops utcoffset now d).2 with
  | .ok r => r.1
  | .error _ => []

@[simp] theorem listed_enforceAutoClose (now : ℤ) (p : Shop) :
    Listed (enforceAutoClose utcoffset now p) ↔ Listed p := by
  simp [Listed]

/-- The answer has the shops that are listed, each as the clock leaves its door. -/
theorem mem_shownList {now : ℕ → ℤ} {p : Shop} : p ∈ shownList utcoffset now d ↔
    ∃ i q, d.shops.get? i = some q ∧ Listed q ∧ p = enforceAutoClose utcoffset (now i) q := by
  have hanswer : shownList utcoffset now d =
      (((d.shops.mapRows fun i q => if Listed q then enforceAutoClose utcoffset (now i) q
        else q).select fun q => Listed q).map Prod.snd).insertionSort
          fun p q => p.shopName ≤ q.shopName := rfl
  rw [hanswer, List.mem_insertionSort]
  simp only [Table.select, Table.rows_mapRows, List.mem_map, List.mem_filter, decide_eq_true_eq]
  constructor
  · rintro ⟨r, ⟨⟨q, hq, rfl⟩, hlisted⟩, rfl⟩
    by_cases hq' : Listed q.2
    · exact ⟨q.1, q.2, Table.get?_eq_some.2 hq, hq', if_pos hq'⟩
    · rw [if_neg hq'] at hlisted
      exact absurd hlisted hq'
  · rintro ⟨i, q, hq, hlisted, rfl⟩
    refine ⟨(i, enforceAutoClose utcoffset (now i) q), ⟨⟨(i, q), Table.get?_eq_some.1 hq, ?_⟩, ?_⟩,
      rfl⟩
    · simp [hlisted]
    · simpa using hlisted

/-- The shop of a user is shown if it is listed. -/
theorem shown_iff (hd : Unique d) {now : ℕ → ℤ} {u : ℕ} {φ : Shop → Prop} :
    (∃ p ∈ shownList utcoffset now d, p.userId = u ∧ φ p) ↔
      ∃ q, shopOf d u = some q ∧ Listed q.2 ∧ φ (enforceAutoClose utcoffset (now q.1) q.2) := by
  constructor
  · rintro ⟨p, hp, rfl, hφ⟩
    obtain ⟨i, q, hq, hlisted, rfl⟩ := mem_shownList.1 hp
    rw [userId_enforceAutoClose]
    exact ⟨(i, q), hd i q hq, hlisted, hφ⟩
  · rintro ⟨q, hq, hlisted, hφ⟩
    refine ⟨_, mem_shownList.2 ⟨q.1, q.2, (Table.get?_of_first? hq).1, hlisted, rfl⟩, ?_, hφ⟩
    rw [userId_enforceAutoClose]
    exact owner_of_shopOf hq

theorem shown_iff_has (hd : Unique d) {now : ℕ → ℤ} {u : ℕ} :
    (∃ p ∈ shownList utcoffset now d, p.userId = u) ↔ Has Listed u d := by
  have hshown : (∃ p ∈ shownList utcoffset now d, p.userId = u ∧ True) ↔ _ := shown_iff hd
  unfold Has
  simpa only [and_true] using hshown

theorem not_has_empty (φ : Shop → Prop) (u : ℕ) : ¬ Has φ u .empty := by
  rintro ⟨q, hq, -⟩
  cases hq

/-- The tables after some requests, from empty ones. -/
def after (utcoffset : ℤ → ℤ) (rs : List Request) : Dir := run (serve utcoffset) .empty rs

theorem unique_after (rs : List Request) : Unique (after utcoffset rs) :=
  run_induction (I := Unique) (fun _ r hd => (serve_served hd r).unique hd) unique_empty rs

/-- After any requests a property of a shop is as the last request left it that gave or took it. -/
theorem Trait.after_iff {φ : Shop → Prop} {fresh : Request → Prop}
    {on off : Request → ℕ → Shop → Prop} (h : Trait utcoffset φ fresh on off) (u : ℕ)
    (rs : List Request) : Has φ u (after utcoffset rs) ↔
      Since (serve utcoffset) (Puts fresh on u) (Puts (fun _ => False) off u) .empty rs :=
  (h.switch u).on_iff_of_off unique_empty (not_has_empty φ u) rs

/-- Customers see a shop exactly if the admin has brought it in or approved it, and since then it
was neither rejected nor submitted again, and if it was not blocked, or was freed since. -/
theorem listed_iff (rs : List Request) (now : ℕ → ℤ) (u : ℕ) :
    (∃ p ∈ shownList utcoffset now (after utcoffset rs), p.userId = u) ↔
      Since (serve utcoffset) (Puts Brings Approves u) (Puts (fun _ => False) Recalls u) .empty rs ∧
      Since (serve utcoffset) (Puts (fun _ => True) Frees u) (Puts (fun _ => False) Blocks u)
        .empty rs := by
  rw [← trait_approved.after_iff, ← trait_free.after_iff, shown_iff_has (unique_after rs)]
  constructor
  · rintro ⟨q, hq, happroved, hfree⟩
    exact ⟨⟨q, hq, happroved⟩, ⟨q, hq, hfree⟩⟩
  · rintro ⟨⟨q, hq, happroved⟩, ⟨q', hq', hfree⟩⟩
    rw [hq] at hq'
    cases hq'
    exact ⟨q, hq, happroved, hfree⟩

/-- They see it as open exactly if, besides, it has opened its door within its hours, or has not
touched it since it signed up, and nobody has looked at it outside its hours since, and it is
within its hours now. -/
theorem open_iff (rs : List Request) (now : ℕ → ℤ) (u : ℕ) :
    (∃ p ∈ shownList utcoffset now (after utcoffset rs), p.userId = u ∧ p.isOpen = true) ↔
      (∃ p ∈ shownList utcoffset now (after utcoffset rs), p.userId = u) ∧
      Since (serve utcoffset) (Puts (fun _ => True) (Opens utcoffset) u)
        (Puts (fun _ => False) (Shuts utcoffset) u) .empty rs ∧
      ∃ q, shopOf (after utcoffset rs) u = some q ∧ ProfileWithinHours utcoffset (now q.1) q.2 := by
  have hunique : Unique (after utcoffset rs) := unique_after rs
  have hopened : (∃ p ∈ shownList utcoffset now (after utcoffset rs), p.userId = u ∧
      p.isOpen = true) ↔ _ := shown_iff hunique
  rw [← trait_open.after_iff, hopened, shown_iff_has hunique]
  constructor
  · rintro ⟨q, hq, hlisted, hopen⟩
    obtain ⟨hdoor, hwithin⟩ := (isOpen_enforceAutoClose _ _).1 hopen
    exact ⟨⟨q, hq, hlisted⟩, ⟨q, hq, hdoor⟩, q, hq, hwithin⟩
  · rintro ⟨⟨q, hq, hlisted⟩, ⟨q', hq', hdoor⟩, q'', hq'', hwithin⟩
    rw [hq] at hq' hq''
    cases hq'
    cases hq''
    exact ⟨q, hq, hlisted, (isOpen_enforceAutoClose _ _).2 ⟨hdoor, hwithin⟩⟩

/-- In Indian time: customers look at nine in the evening, and at noon the shop is still shut. -/
example : ((shownList (fun _ => 19800000000) (fun _ => 1784701800000000)
    (after (fun _ => 19800000000)
      [.create { phone := "9876543210", password := "secret", shopName := "Oven",
                 ownerName := "Ila" } (.ok ()),
        .list fun _ => 1784647800000000])).map fun p => (p.shopName, p.isOpen)) =
    [("Oven", false)] := by decide +kernel

end Seen

end Directory

end SweetCrust
