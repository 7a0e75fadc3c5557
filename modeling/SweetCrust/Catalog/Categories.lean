import SweetCrust.Data.Rows
import SweetCrust.Lib.Decimal
import SweetCrust.Lib.FirstFree
import SweetCrust.Lib.Runs
import SweetCrust.Lib.Session
import SweetCrust.Lib.Table
import SweetCrust.Lib.Text

/-!
# Categories and their slugs

Five requests write categories: the admin's `upsert_category` and `update_category`, the products
that admin and shops bring in with the name of a category, and a shop's own `create_category`.  The
slug of a category is made of its name and drops most of what is not a letter or a digit; the
database keeps it unique.

Texts are compared exactly.  What letters are, and their lower case, is a parameter.

* `serve` — the five requests.
* `Writes`, `serve_writes` — what a request writes: one category more, or one rewritten.
* `freeSlug_isSome`, `freeSlug_fresh` — a shop's category always gets a slug, and a new one.
* `Clear` — the slug that a request makes says something, and belongs to no other name.
* `run_categories` — slugs stay distinct in every run; clear requests leave other names alone, and
  succeed for names that are new.
* `shelf_exceptions` — a category that is renamed, one that is overwritten, and a name of one
  letter, that a shop may not give.
-/

namespace SweetCrust

open Tabular Session Text Decimal FirstFree Runs

namespace Categories

/-- What `\w` stands for, and `str.lower`. -/
structure Charset where
  word : Char → Bool
  lower : List Char → List Char

structure CategoryRow where
  name : String
  slug : String
  description : Option String := none
  imageUrl : Option String := none
  displayOrder : ℤ := 0
  isActive : Bool := true
  parentId : Option ℕ := none
  ownerUserId : Option ℕ := none
  deriving DecidableEq, Inhabited

variable (cs : Charset)

/-! ## Slugs and names -/

/-- `s.strip()`. -/
def stripped (s : String) : String := String.ofList (strip isSpace s.toList)

/-- `[\s_-]`. -/
def isGap (c : Char) : Bool := isSpace c || c = '_' || c = '-'

/-- Runs of gaps, each replaced by a hyphen; a run is under way if `inGap`. -/
def joinGaps : Bool → List Char → List Char
  | _, [] => []
  | inGap, c :: rest =>
    if isGap c then (if inGap then joinGaps true rest else '-' :: joinGaps true rest)
    else c :: joinGaps false rest

/-- `slugify`. -/
def slugify (value : String) : String :=
  let kept := (strip isSpace (cs.lower value.toList)).filter fun c =>
    cs.word c || isSpace c || c = '-'
  String.ofList ((strip (fun c => c = '-') (joinGaps false kept)).take 200)

/-- `name.strip().lower()`. -/
def folded (name : String) : List Char := cs.lower (strip isSpace name.toList)

/-- The names are the same, but for the space around them and for upper and lower case. -/
def SameName (a b : String) : Prop := folded cs a = folded cs b

instance (a b : String) : Decidable (SameName cs a b) :=
  inferInstanceAs (Decidable (folded cs a = folded cs b))

/-! ## The requests -/

abbrev Service (α : Type) : Type := Sess AppError (Table CategoryRow) α

/-- The slugs are pairwise distinct. -/
def UniqueSlugs (t : Table CategoryRow) : Prop := (t.rows.map fun r => r.2.slug).Nodup

instance (t : Table CategoryRow) : Decidable (UniqueSlugs t) :=
  inferInstanceAs (Decidable (List.Nodup _))

/-- The row is no longer than its columns. -/
def Fits (cat : CategoryRow) : Prop :=
  cat.name.length ≤ 120 ∧ cat.slug.length ≤ 140 ∧ (cat.imageUrl.getD "").length ≤ 500

instance (cat : CategoryRow) : Decidable (Fits cat) := inferInstanceAs (Decidable (_ ∧ _ ∧ _))

/-- Write the row `cat` and commit, unless its columns or the unique index of the slugs refuse
it. -/
def save (cat : CategoryRow) (write : Table CategoryRow → Table CategoryRow) : Service Unit := do
  raiseIf (¬ Fits cat) (.uncaught "DataError")
  modify write
  let t ← get
  raiseIf (¬ UniqueSlugs t) (.uncaught "IntegrityError")
  commit

/-- `CategoryIn`. -/
structure CategoryIn where
  name : String
  description : Option String := none
  imageUrl : Option String := none
  displayOrder : ℤ := 0
  isActive : Bool := true

/-- The fields that an admin has set. -/
structure CategoryPatch where
  name : String
  description : Option (Option String) := none
  imageUrl : Option (Option String) := none
  displayOrder : Option ℤ := none
  isActive : Option Bool := none

/-- The row with the fields of the request. -/
def filled (data : CategoryIn) (cat : CategoryRow) : CategoryRow :=
  { cat with
    name := data.name
    description := data.description
    imageUrl := data.imageUrl
    displayOrder := data.displayOrder
    isActive := data.isActive }

/-- A new category. -/
def made (name : String) : CategoryRow := { name := name, slug := slugify cs name }

/-- `upsert_category`. -/
def upsertCategory (data : CategoryIn) : Service Unit := do
  let t ← get
  let slug := slugify cs data.name
  match t.first? fun c => c.slug = slug with
  | some (i, cat) => save (filled data cat) fun t => t.modify i (filled data)
  | none => save (filled data (made cs data.name)) fun t => t.insert (filled data (made cs data.name))

/-- The row with the fields that are set; a name that is not empty brings its slug. -/
def patched (data : CategoryPatch) (cat : CategoryRow) : CategoryRow :=
  { cat with
    name := if data.name = "" then cat.name else data.name
    slug := if data.name = "" then cat.slug else slugify cs data.name
    description := data.description.getD cat.description
    imageUrl := data.imageUrl.getD cat.imageUrl
    displayOrder := data.displayOrder.getD cat.displayOrder
    isActive := data.isActive.getD cat.isActive }

/-- `update_category`. -/
def updateCategory (categoryId : ℕ) (data : CategoryPatch) : Service Unit := do
  let t ← get
  let cat ← orRaise (t.get? categoryId) (.notFound "Category not found")
  save (patched cs data cat) fun t => t.modify categoryId (patched cs data)

/-- The category of a name, made when it is missing. -/
def ensureCategory (name : String) : Service Unit := do
  let t ← get
  match t.first? fun c => c.name = name with
  | some _ => return ()
  | none => save (made cs name) fun t => t.insert (made cs name)

/-- The category that a product is published in. -/
def publishedIn (category : Option String) : String :=
  (truthy category).getD "Birthday Cakes"

/-- `publish_ai_product`; `product` is what `create_product` answers to the rest. -/
def publishAiProduct (category : Option String) (product : Except AppError Unit) :
    Service Unit := do
  ensureCategory cs (publishedIn category)
  ofExcept product

/-- What a shop asks for, as far as it is looked at before the product is made. -/
structure ProductRequest where
  name : Option String
  title : Option String
  imageUrls : List String
  coverImage : Option String
  category : Option String

def requestedName (r : ProductRequest) : String :=
  stripped (((truthy r.name).or (truthy r.title)).getD "")

def requestedCover (r : ProductRequest) : Option String :=
  (truthy r.coverImage).or (r.imageUrls.find? fun u => u ≠ "")

def requestedIn (r : ProductRequest) : String :=
  (truthy (some (stripped ((truthy r.category).getD "Village Supply")))).getD "Village Supply"

/-- `request_product`. -/
def requestProduct (r : ProductRequest) (product : Except AppError Unit) : Service Unit := do
  raiseIf (requestedName r = "") (.badRequest "Product name is required")
  raiseIf (requestedCover r = none) (.badRequest "Product photo is required")
  ensureCategory cs (requestedIn r)
  ofExcept product

/-- What a shop says of its category. -/
structure ShopCategoryIn where
  name : Option String
  description : Option String := none
  imageUrl : Option String := none

/-- The slugs that are tried for a category of a shop. -/
def candidate (base : String) (i : ℕ) : String :=
  if i = 0 then base else base ++ "-" ++ String.ofList (natText i)

/-- The slug that the candidates start from. -/
def slugBase (shopName name : String) : String :=
  (truthy (some (slugify cs (shopName ++ "-" ++ name)))).getD "cat"

/-- The first candidate that no category has. -/
def freeSlug (t : Table CategoryRow) (base : String) : Option String :=
  firstFree (candidate base) (fun slug => (t.first? fun c => c.slug = slug).isSome)
    (t.rows.length + 1) 0

/-- The category of a shop. -/
def ownCategory (userId : ℕ) (data : ShopCategoryIn) (slug : String) : CategoryRow where
  name := stripped (data.name.getD "")
  slug := slug
  description := data.description
  imageUrl := data.imageUrl
  ownerUserId := some userId

/-- The shop has the category already. -/
def hasAlready (t : Table CategoryRow) (userId : ℕ) (name : String) : Bool :=
  (t.first? fun c =>
    c.ownerUserId = some userId ∧ c.parentId = none ∧ c.name = name ∧ c.isActive).isSome

/-- The platform's category of the name. -/
def platformClash (t : Table CategoryRow) (name : String) : Option CategoryRow :=
  (t.first? fun c => c.isActive ∧ c.parentId = none ∧ c.ownerUserId = none ∧
    folded cs c.name = cs.lower name.toList).map Prod.snd

def clashText (name : String) : String :=
  "“" ++ name ++ "” is already a platform category. Choose a different name."

/-- `create_category`; `shopName` is what `_selling_shop` answers. -/
def createCategory (userId : ℕ) (shopName : Except AppError String) (data : ShopCategoryIn) :
    Service Unit := do
  let shopName ← ofExcept shopName
  let name := stripped (data.name.getD "")
  raiseIf (name = "") (.badRequest "Category name is required")
  raiseIf (name.length < 2) (.badRequest "Name must be at least 2 characters")
  raiseIf (120 < name.length) (.badRequest "Name is too long")
  let t ← get
  raiseIf (hasAlready t userId name) (.badRequest "You already have this category")
  match platformClash cs t name with
  | some clash => raise (.badRequest (clashText clash.name))
  | none =>
    let slug ← orRaise (freeSlug t (slugBase cs shopName name)) (.uncaught "endless loop")
    save (ownCategory userId data slug) fun t => t.insert (ownCategory userId data slug)

inductive Call
  | upsert (data : CategoryIn)
  | update (categoryId : ℕ) (data : CategoryPatch)
  | publish (category : Option String) (product : Except AppError Unit)
  | request (r : ProductRequest) (product : Except AppError Unit)
  | create (userId : ℕ) (shopName : Except AppError String) (data : ShopCategoryIn)

def serve : Call → Service Unit
  | .upsert data => upsertCategory cs data
  | .update categoryId data => updateCategory cs categoryId data
  | .publish category product => publishAiProduct cs category product
  | .request r product => requestProduct cs r product
  | .create userId shopName data => createCategory cs userId shopName data

/-- The categories after a request. -/
def step (t : Table CategoryRow) (c : Call) : Table CategoryRow := final (serve cs c) t

/-! ## The unique index -/

section Index

variable {t : Table CategoryRow} {row cat : CategoryRow} {i : ℕ} {f : CategoryRow → CategoryRow}
  {write : Table CategoryRow → Table CategoryRow}

/-- Two rows of one slug are one row. -/
theorem uniqueSlugs_iff :
    UniqueSlugs t ↔
      ∀ i j a b, t.get? i = some a → t.get? j = some b → a.slug = b.slug → i = j := by
  unfold UniqueSlugs
  constructor
  · intro h i j a b ha hb hslug
    have hrow := List.inj_on_of_nodup_map h (Table.get?_eq_some.1 ha) (Table.get?_eq_some.1 hb)
      hslug
    exact congrArg Prod.fst hrow
  · intro h
    refine List.Nodup.map_on ?_ (List.Nodup.of_map _ t.keys_nodup)
    rintro ⟨i, a⟩ ha ⟨j, b⟩ hb hslug
    obtain rfl := h i j a b (Table.get?_eq_some.2 ha) (Table.get?_eq_some.2 hb) hslug
    rw [Table.row_unique ha hb]

/-- A new row with a slug of its own. -/
theorem UniqueSlugs.insert (h : UniqueSlugs t)
    (hfree : ∀ i cat, t.get? i = some cat → cat.slug ≠ row.slug) : UniqueSlugs (t.insert row) := by
  unfold UniqueSlugs
  rw [Table.rows_insert, List.map_append, List.map_singleton]
  refine List.nodup_append.2 ⟨h, List.nodup_singleton _, fun a ha b hb => ?_⟩
  obtain ⟨r, hr, rfl⟩ := List.mem_map.1 ha
  rw [List.mem_singleton.1 hb]
  exact hfree r.1 r.2 (Table.get?_eq_some.2 hr)

/-- A row that is rewritten with a slug that no other row has. -/
theorem UniqueSlugs.modify (h : UniqueSlugs t) (hi : t.get? i = some cat)
    (hfree : ∀ j a, t.get? j = some a → a.slug = (f cat).slug → j = i) :
    UniqueSlugs (t.modify i f) := by
  refine uniqueSlugs_iff.2 fun j k a b ha hb hslug => ?_
  rw [Table.get?_modify] at ha hb
  by_cases hj : j = i
  · subst hj
    rw [if_pos rfl, hi, Option.map_some, Option.some.injEq] at ha
    by_cases hk : k = j
    · exact hk.symm
    · rw [if_neg hk] at hb
      exact (hfree k b hb (by rw [← hslug, ha])).symm
  · rw [if_neg hj] at ha
    by_cases hk : k = i
    · subst hk
      rw [if_pos rfl, hi, Option.map_some, Option.some.injEq] at hb
      exact hfree j a ha (by rw [hslug, hb])
    · rw [if_neg hk] at hb
      exact uniqueSlugs_iff.1 h j k a b ha hb hslug

theorem save_returns (hfits : Fits cat) (h : UniqueSlugs (write t)) :
    Returns (save cat write) t () (write t) := by
  have hrun : save cat write t = ([write t], .ok ((), write t)) := by
    unfold save
    rw [raiseIf_bind_of_not (not_not.2 hfits), modify_bind, get_bind,
      raiseIf_bind_of_not (not_not.2 h)]
    rfl
  refine ⟨congrArg Prod.snd hrun, ?_⟩
  unfold final commits
  rw [hrun]
  rfl

/-- What is not written is left as it was. -/
theorem final_save :
    final (save cat write) t = if Fits cat ∧ UniqueSlugs (write t) then write t else t := by
  by_cases hfits : Fits cat
  · by_cases h : UniqueSlugs (write t)
    · rw [if_pos ⟨hfits, h⟩]
      exact (save_returns hfits h).final
    · rw [if_neg fun hand => h hand.2]
      have hrun : save cat write t = ([], .error (.uncaught "IntegrityError")) := by
        unfold save
        rw [raiseIf_bind_of_not (not_not.2 hfits), modify_bind, get_bind, raiseIf_bind_of h]
      exact Quiet.final (congrArg Prod.fst hrun)
  · rw [if_neg fun hand => hfits hand.1]
    exact (raises_raiseIf_bind hfits _ _ t).final

end Index

/-! ## The slug of a shop's category -/

section Candidates

variable {t : Table CategoryRow} {base slug : String}

theorem natText_injective : Function.Injective natText := by
  intro m n h
  have hparse := congrArg parseDigits h
  rw [parseDigits_natText, parseDigits_natText] at hparse
  exact Option.some.inj hparse

/-- No candidate is tried twice. -/
theorem candidate_injective (base : String) : Function.Injective (candidate base) := by
  have hlong : ∀ n, 0 < n → candidate base n ≠ base := by
    intro n hn h
    rw [candidate, if_neg hn.ne'] at h
    have hlength := congrArg String.length h
    have hone : "-".length = 1 := by decide
    rw [String.length_append, String.length_append, hone] at hlength
    omega
  intro m n h
  rcases Nat.eq_zero_or_pos m with rfl | hm
  · by_contra hn
    exact hlong n (by omega) h.symm
  · rcases Nat.eq_zero_or_pos n with rfl | hn
    · exact absurd h (hlong m hm)
    · rw [candidate, candidate, if_neg hm.ne', if_neg hn.ne'] at h
      have hchars := congrArg String.toList h
      simp only [String.toList_append, String.toList_ofList, List.append_assoc,
        List.append_cancel_left_eq] at hchars
      exact natText_injective hchars

theorem slugBase_ne_empty (shopName name : String) : slugBase cs shopName name ≠ "" := by
  unfold slugBase
  by_cases h : slugify cs (shopName ++ "-" ++ name) = ""
  · rw [h]
    decide
  · rw [truthy_some h]
    exact h

theorem candidate_ne_empty (h : base ≠ "") (i : ℕ) : candidate base i ≠ "" := by
  unfold candidate
  split_ifs
  · exact h
  · intro hempty
    have hlength := congrArg String.length hempty
    have hone : "-".length = 1 := by decide
    rw [String.length_append, String.length_append, hone, String.length_empty] at hlength
    omega

/-- A candidate is always found. -/
theorem freeSlug_isSome (t : Table CategoryRow) (base : String) : (freeSlug t base).isSome := by
  unfold freeSlug
  rw [← List.length_map (fun r : ℕ × CategoryRow => r.2.slug)]
  refine firstFree_isSome (candidate_injective base) (fun slug htaken => ?_) 0
  obtain ⟨r, hr⟩ := Option.isSome_iff_exists.1 htaken
  obtain ⟨hget, hslug⟩ := Table.get?_of_first? hr
  exact List.mem_map.2 ⟨r, Table.get?_eq_some.1 hget, by simpa using hslug⟩

/-- What is found is new. -/
theorem freeSlug_fresh (h : freeSlug t base = some slug) :
    ∀ i cat, t.get? i = some cat → cat.slug ≠ slug := by
  intro i cat hi
  have hfree := (firstFree_eq_some h).1
  rw [Option.isSome_eq_false_iff, Option.isNone_iff_eq_none, Table.first?_eq_none] at hfree
  simpa using hfree i cat hi

theorem freeSlug_ne_empty (hbase : base ≠ "") (h : freeSlug t base = some slug) : slug ≠ "" := by
  obtain ⟨-, i, rfl⟩ := firstFree_eq_some h
  exact candidate_ne_empty hbase i

end Candidates

/-! ## What a request writes -/

/-- The name that a request gives a category. -/
def named : Call → Option String
  | .upsert data => some data.name
  | .update _ data => truthy (some data.name)
  | .publish category _ => some (publishedIn category)
  | .request r _ => some (requestedIn r)
  | .create _ _ data => some (stripped (data.name.getD ""))

/-- The name that a request makes a slug of; a shop's own slug is numbered until it is free. -/
def slugged : Call → Option String
  | .create .. => none
  | c => named c

/-- The category that a request changes by its number. -/
def target : Call → Option ℕ
  | .update categoryId _ => some categoryId
  | _ => none

/-- The categories that a request leaves: as they were, with one more, or with one rewritten. -/
inductive Writes (t : Table CategoryRow) (c : Call) : Table CategoryRow → Prop
  | nothing : Writes t c t
  | added (row : CategoryRow)
      (slug : row.slug ≠ "" ∨ ∃ name ∈ slugged c, row.slug = slugify cs name)
      (unique : UniqueSlugs (t.insert row)) : Writes t c (t.insert row)
  | changed (i : ℕ) (cat : CategoryRow) (f : CategoryRow → CategoryRow)
      (found : t.get? i = some cat)
      (slug : (f cat).slug = cat.slug ∨ ∃ name ∈ slugged c, (f cat).slug = slugify cs name)
      (renamed : target c = some i ∨
        ∃ name ∈ slugged c, cat.slug = slugify cs name ∧ (f cat).name = name)
      (unique : UniqueSlugs (t.modify i f)) : Writes t c (t.modify i f)

section Writes

variable {cs} {t u : Table CategoryRow} {c : Call} {name : String} {cat : CategoryRow}
  {write : Table CategoryRow → Table CategoryRow}

theorem writes_save (h : UniqueSlugs (write t) → Writes cs t c (write t)) :
    Writes cs t c (final (save cat write) t) := by
  rw [final_save]
  split_ifs with hsaved
  · exact h hsaved.2
  · exact .nothing

/-- What is found by its slug takes the name; else a row with that slug is new. -/
theorem writes_upsert (data : CategoryIn) :
    Writes cs t (.upsert data) (final (upsertCategory cs data) t) := by
  unfold upsertCategory
  rw [final_get_bind]
  dsimp only
  cases h : t.first? fun c => c.slug = slugify cs data.name with
  | none => exact writes_save fun hunique => .added _ (Or.inr ⟨data.name, rfl, rfl⟩) hunique
  | some found =>
    obtain ⟨i, cat⟩ := found
    obtain ⟨hget, hslug⟩ := Table.get?_of_first? h
    have hslug : cat.slug = slugify cs data.name := by simpa using hslug
    exact writes_save fun hunique =>
      .changed i cat _ hget (Or.inl rfl) (Or.inr ⟨data.name, rfl, hslug, rfl⟩) hunique

theorem patched_slug (data : CategoryPatch) (cat : CategoryRow) :
    (patched cs data cat).slug = cat.slug ∨
      ∃ name ∈ truthy (some data.name), (patched cs data cat).slug = slugify cs name := by
  by_cases h : data.name = ""
  · exact Or.inl (if_pos h)
  · exact Or.inr ⟨data.name, truthy_some h, if_neg h⟩

theorem writes_update (categoryId : ℕ) (data : CategoryPatch) :
    Writes cs t (.update categoryId data) (final (updateCategory cs categoryId data) t) := by
  unfold updateCategory
  rw [final_get_bind]
  cases h : t.get? categoryId with
  | none =>
    rw [final_orRaise_none_bind]
    exact .nothing
  | some cat =>
    rw [final_orRaise_some_bind]
    exact writes_save fun hunique =>
      .changed categoryId cat _ h (patched_slug data cat) (Or.inl rfl) hunique

theorem writes_ensure (hname : name ∈ slugged c) :
    Writes cs t c (final (ensureCategory cs name) t) := by
  unfold ensureCategory
  rw [final_get_bind]
  cases t.first? fun c => c.name = name with
  | some _ => exact .nothing
  | none => exact writes_save fun hunique => .added _ (Or.inr ⟨name, hname, rfl⟩) hunique

theorem final_ensure_ofExcept (product : Except AppError Unit) :
    final (ensureCategory cs name >>= fun _ => ofExcept product) t =
      final (ensureCategory cs name) t :=
  final_bind_of_reads (fun _ => reads_ofExcept product) t

theorem writes_request (r : ProductRequest) (product : Except AppError Unit) :
    Writes cs t (.request r product) (final (requestProduct cs r product) t) := by
  unfold requestProduct
  rw [final_raiseIf_bind, final_raiseIf_bind, final_ensure_ofExcept]
  split_ifs
  · exact .nothing
  · exact .nothing
  · exact writes_ensure rfl

theorem writes_create (userId : ℕ) (shopName : Except AppError String) (data : ShopCategoryIn) :
    Writes cs t (.create userId shopName data)
      (final (createCategory cs userId shopName data) t) := by
  unfold createCategory
  cases shopName with
  | error e => exact .nothing
  | ok shopName =>
    rw [final_ofExcept_ok_bind, final_raiseIf_bind, final_raiseIf_bind, final_raiseIf_bind,
      final_get_bind, final_raiseIf_bind]
    split_ifs
    iterate 4 exact .nothing
    cases platformClash cs t (stripped (data.name.getD "")) with
    | some clash => exact .nothing
    | none =>
      obtain ⟨slug, hslug⟩ := Option.isSome_iff_exists.1
        (freeSlug_isSome t (slugBase cs shopName (stripped (data.name.getD ""))))
      rw [hslug, final_orRaise_some_bind]
      exact writes_save fun hunique =>
        .added _ (Or.inl (freeSlug_ne_empty (slugBase_ne_empty cs _ _) hslug)) hunique

/-- What each of the requests writes. -/
theorem serve_writes (t : Table CategoryRow) (c : Call) : Writes cs t c (step cs t c) := by
  cases c with
  | upsert data => exact writes_upsert data
  | update categoryId data => exact writes_update categoryId data
  | publish category product =>
    show Writes cs t _ (final (publishAiProduct cs category product) t)
    rw [publishAiProduct, final_ensure_ofExcept]
    exact writes_ensure rfl
  | request r product => exact writes_request r product
  | create userId shopName data => exact writes_create userId shopName data

/-- No request gives two categories one slug. -/
theorem UniqueSlugs.writes (h : UniqueSlugs t) (hw : Writes cs t c u) : UniqueSlugs u := by
  cases hw with
  | nothing => exact h
  | added row _ hunique => exact hunique
  | changed i cat f _ _ _ hunique => exact hunique

end Writes

/-! ## Clear requests -/

/-- The slug that a request makes says something, and belongs to no other name. -/
def Clear (t : Table CategoryRow) (c : Call) : Prop :=
  ∀ name ∈ slugged c, slugify cs name ≠ "" ∧
    ∀ i cat, t.get? i = some cat → cat.slug = slugify cs name →
      target c = some i ∨ SameName cs cat.name name

/-- No category but the one that is changed has the name. -/
def Unused (t : Table CategoryRow) (c : Call) : Prop :=
  ∀ name ∈ named c, ∀ i cat, t.get? i = some cat → SameName cs cat.name name → target c = some i

/-- What a request needs besides: the category that it changes, a product that is accepted, a shop
that may sell, a name of two letters, and columns that hold what is written. -/
def Admissible (t : Table CategoryRow) : Call → Prop
  | .upsert data => Fits (filled data (made cs data.name))
  | .update categoryId data => ∃ cat, t.get? categoryId = some cat ∧ Fits (patched cs data cat)
  | .publish category product => product = .ok () ∧ Fits (made cs (publishedIn category))
  | .request r product =>
    requestedName r ≠ "" ∧ requestedCover r ≠ none ∧ product = .ok () ∧
      Fits (made cs (requestedIn r))
  | .create userId shopName data =>
    ∃ shop, shopName = .ok shop ∧ 2 ≤ (stripped (data.name.getD "")).length ∧
      ∀ slug ∈ freeSlug t (slugBase cs shop (stripped (data.name.getD ""))),
        Fits (ownCategory userId data slug)

/-- The request is answered without an error. -/
def Succeeds (t : Table CategoryRow) (c : Call) : Prop := ∃ r, (serve cs c t).2 = .ok r

/-- The categories that are not changed by their number keep their names, but for space and
case. -/
def KeepsNames (t : Table CategoryRow) (c : Call) : Prop :=
  ∀ i cat, t.get? i = some cat → target c ≠ some i →
    ∃ kept, (step cs t c).get? i = some kept ∧ SameName cs kept.name cat.name

/-- No category is without a slug. -/
def NoEmptySlug (t : Table CategoryRow) : Prop := t.All fun cat => cat.slug ≠ ""

/-- What holds of a run: slugs stay distinct, and clear requests give categories a slug, leave other
names alone and bring in names that are new. -/
structure Apart (t : Table CategoryRow) (calls : List Call) : Prop where
  unique : Throughout (step cs) UniqueSlugs t calls
  filled : Stepwise (step cs) (Clear cs) t calls → NoEmptySlug t →
    Throughout (step cs) NoEmptySlug t calls
  kept : Stepwise (step cs) (fun t c => Clear cs t c → KeepsNames cs t c) t calls
  succeeds : Stepwise (step cs)
    (fun t c => Clear cs t c → Unused cs t c → Admissible cs t c → Succeeds cs t c) t calls

section Clear

variable {cs} {t u : Table CategoryRow} {c : Call} {name : String}

theorem named_of_slugged (h : name ∈ slugged c) : name ∈ named c := by
  cases c with
  | create => cases h
  | _ => exact h

/-- The slug of a name that is new is new. -/
theorem Clear.free (h : Clear cs t c) (hunused : Unused cs t c) (hname : name ∈ slugged c)
    {i : ℕ} {cat : CategoryRow} (hi : t.get? i = some cat) (hslug : cat.slug = slugify cs name) :
    target c = some i := by
  rcases (h name hname).2 i cat hi hslug with htarget | hsame
  · exact htarget
  · exact hunused name (named_of_slugged hname) i cat hi hsame

theorem NoEmptySlug.writes (hne : NoEmptySlug t) (h : Clear cs t c) (hw : Writes cs t c u) :
    NoEmptySlug u := by
  cases hw with
  | nothing => exact hne
  | added row hslug =>
    refine Table.All.insert hne ?_
    rcases hslug with hslug | ⟨name, hname, hslug⟩
    · exact hslug
    · rw [hslug]
      exact (h name hname).1
  | changed i cat f hi hslug =>
    refine Table.All.modify_row hne fun a ha => ?_
    obtain rfl := Option.some.inj (hi.symm.trans ha)
    rcases hslug with hslug | ⟨name, hname, hslug⟩
    · rw [hslug]
      exact hne.get? hi
    · rw [hslug]
      exact (h name hname).1

/-- Another category's name is not touched, or replaced by the same. -/
theorem Clear.keeps (h : Clear cs t c) : KeepsNames cs t c := by
  intro i cat hi htarget
  have hw : Writes cs t c (step cs t c) := serve_writes t c
  generalize step cs t c = u at hw
  cases hw with
  | nothing => exact ⟨cat, hi, rfl⟩
  | added row =>
    refine ⟨cat, ?_, rfl⟩
    rw [Table.get?_insert, if_neg (Table.lt_next_of_get? hi).ne, hi]
  | changed j old f hj _ hrenamed =>
    by_cases hij : i = j
    · subst hij
      obtain rfl := Option.some.inj (hi.symm.trans hj)
      refine ⟨f cat, by rw [Table.get?_modify_self, hi, Option.map_some], ?_⟩
      obtain ⟨name, hname, hslug, hf⟩ := hrenamed.resolve_left htarget
      rw [hf]
      exact ((h name hname).2 i cat hi hslug |>.resolve_left htarget).symm
    · exact ⟨cat, by rw [Table.get?_modify_of_ne _ _ hij, hi], rfl⟩

/-! ## Requests that succeed -/

/-- An upsert succeeds if it fits. -/
theorem upsert_succeeds (hunique : UniqueSlugs t) {data : CategoryIn}
    (hfits : Fits (filled data (made cs data.name))) : Succeeds cs t (.upsert data) := by
  show ∃ r, (upsertCategory cs data t).2 = .ok r
  unfold upsertCategory
  rw [outcome_get_bind]
  cases h : t.first? fun c => c.slug = slugify cs data.name with
  | none =>
    rw [Table.first?_eq_none] at h
    have hfree : ∀ i cat, t.get? i = some cat → cat.slug ≠ slugify cs data.name := by
      intro i cat hi
      simpa using h i cat hi
    exact ⟨_, (save_returns hfits (hunique.insert hfree)).outcome⟩
  | some found =>
    obtain ⟨i, cat⟩ := found
    obtain ⟨hi, hslug⟩ := Table.get?_of_first? h
    have hslug : cat.slug = slugify cs data.name := by simpa using hslug
    have hfits : Fits (filled data cat) := by
      unfold Fits at hfits ⊢
      rw [show (filled data cat).slug = _ from hslug]
      exact hfits
    have hfree : ∀ j a, t.get? j = some a → a.slug = (filled data cat).slug → j = i :=
      fun j a hj hslug => uniqueSlugs_iff.1 hunique j i a cat hj hi hslug
    exact ⟨_, (save_returns hfits (hunique.modify hi hfree)).outcome⟩

theorem update_succeeds (hunique : UniqueSlugs t) {categoryId : ℕ} {data : CategoryPatch}
    (hclear : Clear cs t (.update categoryId data))
    (hunused : Unused cs t (.update categoryId data)) {cat : CategoryRow}
    (hi : t.get? categoryId = some cat) (hfits : Fits (patched cs data cat)) :
    Succeeds cs t (.update categoryId data) := by
  show ∃ r, (updateCategory cs categoryId data t).2 = .ok r
  have hfree : ∀ j a, t.get? j = some a → a.slug = (patched cs data cat).slug → j = categoryId := by
    intro j a hj hslug
    rcases patched_slug data cat with hsame | ⟨name, hname, hnew⟩
    · exact uniqueSlugs_iff.1 hunique j categoryId a cat hj hi (hslug.trans hsame)
    · exact (Option.some.inj (hclear.free hunused hname hj (hslug.trans hnew))).symm
  unfold updateCategory
  rw [outcome_get_bind, hi, orRaise_some_bind]
  exact ⟨_, (save_returns hfits (hunique.modify hi hfree)).outcome⟩

/-- A name whose slug is free is there afterwards. -/
theorem ensure_returns (hunique : UniqueSlugs t) (hfits : Fits (made cs name))
    (hfree : ∀ i cat, t.get? i = some cat → cat.slug ≠ slugify cs name) :
    ∃ u, Returns (ensureCategory cs name) t () u := by
  unfold ensureCategory
  cases h : t.first? fun c => c.name = name with
  | some found => exact ⟨t, Returns.get_bind (by rw [h]; exact returns_pure () t)⟩
  | none => exact ⟨_, Returns.get_bind (by rw [h]; exact save_returns hfits (hunique.insert hfree))⟩

/-- A product is published if its category is there and it is accepted. -/
theorem ensure_product (hunique : UniqueSlugs t) (hclear : Clear cs t c) (hunused : Unused cs t c)
    (hname : name ∈ slugged c) (htarget : target c = none) (hfits : Fits (made cs name))
    {product : Except AppError Unit} (hproduct : product = .ok ()) :
    ∃ r, ((ensureCategory cs name >>= fun _ => ofExcept product) t).2 = .ok r := by
  have hfree : ∀ i cat, t.get? i = some cat → cat.slug ≠ slugify cs name := by
    intro i cat hi hslug
    have hi := hclear.free hunused hname hi hslug
    rw [htarget] at hi
    cases hi
  obtain ⟨u, hu⟩ := ensure_returns hunique hfits hfree
  rw [hu.outcome_bind, hproduct]
  exact ⟨_, rfl⟩

theorem request_succeeds (hunique : UniqueSlugs t) {r : ProductRequest}
    {product : Except AppError Unit} (hclear : Clear cs t (.request r product))
    (hunused : Unused cs t (.request r product)) (hadm : Admissible cs t (.request r product)) :
    Succeeds cs t (.request r product) := by
  obtain ⟨hname, hcover, hproduct, hfits⟩ := hadm
  show ∃ a, (requestProduct cs r product t).2 = .ok a
  unfold requestProduct
  rw [raiseIf_bind_of_not hname, raiseIf_bind_of_not hcover]
  exact ensure_product hunique hclear hunused rfl rfl hfits hproduct

/-- A shop's own category, under a name that is new, gets a slug that is new. -/
theorem create_succeeds (hunique : UniqueSlugs t) {userId : ℕ} {shopName : Except AppError String}
    {data : ShopCategoryIn} (hunused : Unused cs t (.create userId shopName data))
    (hadm : Admissible cs t (.create userId shopName data)) :
    Succeeds cs t (.create userId shopName data) := by
  obtain ⟨shop, rfl, hshort, hfits⟩ := hadm
  set name := stripped (data.name.getD "") with hname
  have hother : ∀ i cat, t.get? i = some cat → ¬ SameName cs cat.name name :=
    fun i cat hi hsame => by cases hunused name rfl i cat hi hsame
  have hne : name ≠ "" := by
    intro hempty
    rw [hempty] at hshort
    exact absurd hshort (by decide)
  have hmine : ¬ (hasAlready t userId name = true) := by
    intro h
    obtain ⟨⟨i, cat⟩, hfirst⟩ := Option.isSome_iff_exists.1 h
    obtain ⟨hi, hcat⟩ := Table.get?_of_first? hfirst
    have hcat : cat.name = name := (of_decide_eq_true hcat).2.2.1
    exact hother i cat hi (by rw [hcat]; rfl)
  have hplatform : platformClash cs t name = none := by
    refine Option.map_eq_none_iff.2 (Table.first?_eq_none.2 fun i cat hi => ?_)
    refine decide_eq_false fun hcat => hother i cat hi ?_
    rw [SameName, hcat.2.2.2, folded, hname, stripped, String.toList_ofList, strip_strip]
  obtain ⟨slug, hslug⟩ := Option.isSome_iff_exists.1 (freeSlug_isSome t (slugBase cs shop name))
  have hfits : Fits (ownCategory userId data slug) := hfits slug hslug
  have hlong : name.length ≤ 120 := hfits.1
  show ∃ r, (createCategory cs userId (.ok shop) data t).2 = .ok r
  unfold createCategory
  rw [ofExcept_ok_bind, ← hname, raiseIf_bind_of_not hne, raiseIf_bind_of_not (by omega),
    raiseIf_bind_of_not (by omega), get_bind, raiseIf_bind_of_not hmine, hplatform, hslug]
  dsimp only
  rw [orRaise_some_bind]
  exact ⟨_, (save_returns hfits (hunique.insert (freeSlug_fresh hslug))).outcome⟩

/-- A clear request for a name that is new succeeds. -/
theorem Clear.succeeds (hunique : UniqueSlugs t) (hclear : Clear cs t c) (hunused : Unused cs t c)
    (hadm : Admissible cs t c) : Succeeds cs t c := by
  cases c with
  | upsert data => exact upsert_succeeds hunique hadm
  | update categoryId data =>
    obtain ⟨cat, hi, hfits⟩ := hadm
    exact update_succeeds hunique hclear hunused hi hfits
  | publish category product =>
    exact ensure_product hunique hclear hunused rfl rfl hadm.2 hadm.1
  | request r product => exact request_succeeds hunique hclear hunused hadm
  | create userId shopName data => exact create_succeeds hunique hunused hadm

/-- Slugs stay distinct in every run, and the clear requests of it keep categories apart. -/
theorem run_categories (hunique : UniqueSlugs t) (calls : List Call) : Apart cs t calls := by
  have hstep : ∀ t c, UniqueSlugs t → UniqueSlugs (step cs t c) :=
    fun t c h => h.writes (serve_writes t c)
  have hall : ∀ pre : List Call, UniqueSlugs (run (step cs) t pre) := run_induction hstep hunique
  constructor
  case unique => exact fun pre _ => hall pre
  case filled =>
    intro hclear hne
    exact throughout_of_stepwise (fun t c h hc => h.writes hc (serve_writes t c)) hne hclear
  case kept => exact fun pre c _ hclear => hclear.keeps
  case succeeds =>
    exact fun pre c _ hclear hunused hadm => hclear.succeeds (hall pre) hunused hadm

end Clear

/-! ## A shelf of one category -/

def ascii : Charset where
  word c := c.isAlphanum || c = '_'
  lower := Text.lower

def shelf : Table CategoryRow := Table.ofList [{ name := "Cakes", slug := "cakes" }]

theorem shelf_apart :
    Apart ascii shelf [.upsert { name := "Bread" }, .update 1 { name := "Tea Cakes" }] :=
  run_categories (by decide) _

set_option maxRecDepth 2000 in
/-- A category is renamed by its number, a name with the slug of another overwrites it, a shop may
not give a name of one letter, and a name of 121 letters is too long for its column. -/
theorem shelf_exceptions :
    UniqueSlugs shelf ∧
      (((step ascii shelf (.update 1 { name := "Bread" })).get? 1).map CategoryRow.name =
        some "Bread" ∧ ¬ SameName ascii "Cakes" "Bread") ∧
      (((step ascii shelf (.upsert { name := "Cakes!" })).get? 1).map CategoryRow.name =
        some "Cakes!" ∧ ¬ SameName ascii "Cakes" "Cakes!") ∧
      (∀ r ∈ shelf.rows, ¬ SameName ascii r.2.name "P") ∧
      (serve ascii (.create 7 (.ok "Asha Stores") { name := some "P" }) shelf).2 =
        .error (.badRequest "Name must be at least 2 characters") ∧
      (serve ascii (.publish (some (String.ofList (List.replicate 121 'a'))) (.ok ())) shelf).2 =
        .error (.uncaught "DataError") :=
  ⟨by decide, ⟨by decide, by decide⟩, ⟨by decide, by decide⟩, by decide, rfl, rfl⟩

end Categories

end SweetCrust
