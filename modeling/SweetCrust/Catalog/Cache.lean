import SweetCrust.Data.Rows
import SweetCrust.Lib.Decimal
import SweetCrust.Lib.ReadThrough

/-!
# The cache of the catalog

The catalog service keeps the home feed, the categories and the brands in Redis for 45 seconds,
and the search service the first two under the same keys.  Each request looks its key up, asks the
database on a miss, and stores the answer.  The home feed of a customer who has signed in is read in
the snapshot that is opened when the customer is looked up, before the key.  Only a review deletes
the keys; a change of a product does not.

* `Key.text`, `taken_iff` — the keys, and those that a deletion by a common beginning takes.
* `listBrands` — the brands of the published products.
* `served_recent` — along every run an answer is what one of the services has read under its key
  from the database as it was, not longer ago than 45 seconds and the time to store.
* `served_after_clearing` — after the deletion of a key an answer under it was read after the
  deletion, if no request was between its reading and its storing.
* `brands_recent` — what this says about the brands that are shown.
-/

namespace SweetCrust

open Runs ReadThrough Text Decimal Tabular

namespace CatalogCache

/-- `HOME_FEED_TTL`. -/
def homeFeedTtl : ℚ := 45

/-! ## Keys -/

inductive Key
  /-- The text of `user_id or 0`. -/
  | homeFeed (user : String)
  | categories (activeOnly : Bool)
  | brands
  deriving DecidableEq

/-- `HOME_FEED_PREFIX`, `CATEGORIES_KEY` and `BRANDS_KEY`. -/
def homeFeedPrefix : String := "catalog:home_feed"
def categoriesKey : String := "catalog:categories"
def brandsKey : String := "catalog:brands"

/-- The key in Redis. -/
def Key.text : Key → String
  | .homeFeed user => homeFeedPrefix ++ ":" ++ user
  | .categories activeOnly => categoriesKey ++ ":" ++ (if activeOnly then "1" else "0")
  | .brands => brandsKey

/-- The kinds of keys, by the beginning that they have in common. -/
inductive Kind
  | homeFeed | categories | brands
  deriving DecidableEq

def Kind.start : Kind → String
  | .homeFeed => homeFeedPrefix
  | .categories => categoriesKey
  | .brands => brandsKey

def Key.kind : Key → Kind
  | .homeFeed _ => .homeFeed
  | .categories _ => .categories
  | .brands => .brands

/-- `redis_delete_prefix` takes a key: it begins with the text. -/
def taken (start : String) (k : Key) : Bool := start.toList.isPrefixOf k.text.toList

inductive Service
  | catalog | search
  deriving DecidableEq

/-- What follows the beginning of a key. -/
def Key.rest : Key → List Char
  | .homeFeed user => ':' :: user.toList
  | .categories activeOnly => [':', if activeOnly then '1' else '0']
  | .brands => []

theorem Key.toList_text (k : Key) : k.text.toList = k.kind.start.toList ++ k.rest := by
  cases k with
  | homeFeed user => simp [text, kind, Kind.start, rest, String.toList_append]
  | categories activeOnly => cases activeOnly <;> decide
  | brands => simp [text, kind, Kind.start, rest]

/-- The beginnings differ in their first nine characters. -/
theorem Kind.take_start_injective :
    Function.Injective fun k : Kind => k.start.toList.take 9 := by
  intro a b h
  revert h
  cases a <;> cases b <;> decide

theorem Kind.nine_le_length (k : Kind) : 9 ≤ k.start.toList.length := by
  cases k <;> decide

theorem Key.take_text (k : Key) : k.text.toList.take 9 = k.kind.start.toList.take 9 := by
  rw [toList_text, List.take_append_of_le_length k.kind.nine_le_length]

/-- A deletion by a beginning takes the keys of the kind, and no other. -/
theorem taken_iff (kind : Kind) (k : Key) : taken kind.start k = true ↔ k.kind = kind := by
  unfold taken
  rw [List.isPrefixOf_iff_prefix]
  constructor
  · rintro ⟨t, ht⟩
    apply Kind.take_start_injective
    have htake := congrArg (List.take 9) ht
    rw [List.take_append_of_le_length kind.nine_le_length, Key.take_text] at htake
    exact htake.symm
  · rintro rfl
    rw [Key.toList_text]
    exact List.prefix_append ..

/-- Two keys with one text are the same: what is stored for one user is found for no other. -/
theorem Key.text_injective : Function.Injective Key.text := by
  intro a b h
  have hkind : a.kind = b.kind := by
    rw [← taken_iff b.kind a, taken, h]
    exact (taken_iff b.kind b).2 rfl
  have hrest : a.rest = b.rest := by
    have hlist := congrArg String.toList h
    rw [toList_text, toList_text, hkind] at hlist
    exact List.append_cancel_left hlist
  cases a <;> cases b <;> simp_all [kind, rest, String.toList_inj]
  rename_i x y
  revert hrest
  cases x <;> cases y <;> decide

/-! ## Answers -/

/-- `list_brands` without the cache: the names are a set, sorted. -/
def listBrands (products : Table Product) : List String :=
  let names := (products.select fun p => p.isActive && !p.isDraft).filterMap fun r =>
    truthy (r.2.brandName.map fun n => String.ofList (strip isSpace n.toList))
  names.dedup.insertionSort (· ≤ ·)

/-- What is stored under a key: the brands, or rows of another query. -/
inductive Value (β : Type)
  | brands (names : List String)
  | rows (b : β)
  deriving DecidableEq

/-- The queries behind the home feed and the categories.  The home feeds of the two services
differ. -/
structure Queries (β : Type) where
  homeFeed : Service → String → Db → β
  listCategories : Bool → Db → β

/-- What a request of a service reads under a key. -/
def Queries.read {ι β : Type} (q : Queries β) (service : ι → Service) (i : ι) (k : Key) (db : Db) :
    Value β :=
  match k with
  | .homeFeed user => .rows (q.homeFeed (service i) user db)
  | .categories activeOnly => .rows (q.listCategories activeOnly db)
  | .brands => .brands (listBrands db.products)

theorem mem_listBrands {products : Table Product} {n : String} : n ∈ listBrands products ↔
    n ≠ "" ∧ ∃ r ∈ products.rows, r.2.isActive = true ∧ r.2.isDraft = false ∧
      r.2.brandName.map (fun b => String.ofList (strip isSpace b.toList)) = some n := by
  simp only [listBrands, List.mem_insertionSort, List.mem_dedup, List.mem_filterMap, Table.select,
    List.mem_filter, truthy, Option.filter_eq_some_iff]
  constructor
  · rintro ⟨r, ⟨hr, hpublished⟩, hn, hne⟩
    simp only [Bool.and_eq_true, Bool.not_eq_true'] at hpublished
    exact ⟨by simpa using hne, r, hr, hpublished.1, hpublished.2, hn⟩
  · rintro ⟨hne, r, hr, hactive, hdraft, hn⟩
    exact ⟨r, ⟨hr, by simp [hactive, hdraft]⟩, hn, by simpa using hne⟩

theorem listBrands_sorted (products : Table Product) :
    (listBrands products).Pairwise (· < ·) := by
  have hle : (listBrands products).Pairwise (· ≤ ·) := List.pairwise_insertionSort _ _
  have hnodup : (listBrands products).Nodup :=
    (List.perm_insertionSort _ _).nodup_iff.2 (List.nodup_dedup _)
  exact (hle.and hnodup).imp fun ⟨hle, hne⟩ => lt_of_le_of_ne hle hne

section Runs

variable {ι β : Type} [DecidableEq ι]

/-- A step of a request, of a writer, or of a deletion. -/
def cacheStep (q : Queries β) (service : ι → Service) :
    Conf ι Db Key (Value β) ℚ → Event ι Db Key ℚ → Conf ι Db Key (Value β) ℚ :=
  step (q.read service) homeFeedTtl

variable {q : Queries β} {service : ι → Service} {db : Db} {es : List (Event ι Db Key ℚ)} {δ : ℚ}

/-- Along every run of any number of requests of both services, with writes and deletions
between their steps, an answer is what a request has read under the same key from the database
as it was, not longer ago than 45 seconds and the time that requests take to store. -/
theorem served_recent (hes : Stepwise (cacheStep q service) (InTime δ) (start db) es)
    {a : Answer ι Key (Value β) ℚ} (ha : a ∈ (run (cacheStep q service) (start db) es).answers) :
    ∃ pre e j t, pre ++ [e] <+: es ∧ e.Sees j t ∧
      a.value = q.read service j a.key (run (cacheStep q service) (start db) pre).table ∧
      a.time ≤ t + δ + homeFeedTtl := by
  have httl : (0 : ℚ) ≤ homeFeedTtl := by norm_num [homeFeedTtl]
  obtain ⟨t, ⟨pre, e, j, hpre, hsees, hv⟩, ht⟩ := answer_recent (clear_start db a.key) httl hes
    (a := a) ha rfl
  exact ⟨pre, e, j, t, hpre, hsees, hv, ht⟩

/-- After the deletion of a key no answer under it is older than the deletion, if at the
deletion no request was between its reading under the key, or the opening of its snapshot, and its
storing. -/
theorem served_after_clearing {pre post : List (Event ι Db Key ℚ)} {k : Key} {now : ℚ}
    (hquiet : ∀ i, ¬ ((run (cacheStep q service) (start db) pre).phase i).Fixed k)
    {a : Answer ι Key (Value β) ℚ}
    (ha : a ∈ (run (cacheStep q service) (start db) (pre ++ .delete k now :: post)).answers.drop
      (run (cacheStep q service) (start db) pre).answers.length) (hk : a.key = k) :
    ∃ mid e j t, mid ++ [e] <+: post ∧ e.Sees j t ∧ a.value = q.read service j k
      (run (cacheStep q service) (start db) (pre ++ .delete k now :: mid)).table := by
  have httl : (0 : ℚ) ≤ homeFeedTtl := by norm_num [homeFeedTtl]
  have hclear : Clear (cacheStep q service (run (cacheStep q service) (start db) pre)
      (.delete k now)) k := ⟨Expiring.delete_self _ _, hquiet⟩
  rw [run_append, run_cons] at ha
  obtain ⟨t, mid, e, j, hmid, hsees, hv⟩ := answer_fresh hclear httl ha hk
  refine ⟨mid, e, j, t, hmid, hsees, ?_⟩
  rw [run_append, run_cons]
  exact hv

/-- The brands that are shown are those of the products that were published at a time, sorted and
each one once, and the time is not longer ago than 45 seconds and the time to store. -/
theorem brands_recent (hes : Stepwise (cacheStep q service) (InTime δ) (start db) es)
    {a : Answer ι Key (Value β) ℚ} (ha : a ∈ (run (cacheStep q service) (start db) es).answers)
    (hk : a.key = .brands) :
    ∃ names pre e j t, a.value = .brands names ∧ names.Pairwise (· < ·) ∧
      pre ++ [e] <+: es ∧ e.Sees j t ∧ a.time ≤ t + δ + homeFeedTtl ∧
      ∀ n, n ∈ names ↔ n ≠ "" ∧
        ∃ r ∈ (run (cacheStep q service) (start db) pre).table.products.rows,
          r.2.isActive = true ∧ r.2.isDraft = false ∧
          r.2.brandName.map (fun b => String.ofList (strip isSpace b.toList)) = some n := by
  have httl : (0 : ℚ) ≤ homeFeedTtl := by norm_num [homeFeedTtl]
  obtain ⟨t, ⟨pre, e, j, hpre, hsees, hv⟩, ht⟩ :=
    answer_recent (clear_start db .brands) httl hes ha hk
  exact ⟨_, pre, e, j, t, hv, listBrands_sorted _, hpre, hsees, ht, fun n => mem_listBrands⟩

end Runs

/-! ### A cached answer -/

/-- A published product of a brand. -/
def bun (brand : String) : Product :=
  { (default : Product) with name := "Bun", brandName := some brand, isActive := true }

def addBun (brand : String) (db : Db) : Db := { db with products := db.products.insert (bun brand) }

/-- No feeds. -/
def noFeeds : Queries Unit := ⟨fun _ _ _ => (), fun _ _ => ()⟩

/-- The brands are asked for, a brand is added, and they are asked for again. -/
def askedTwice : List (Event Bool Db Key ℚ) :=
  [.write (addBun " Oven ") 0, .lookup false .brands true 1, .query false 2, .store false true 3,
    .write (addBun "Mill") 4, .lookup true .brands true 40]

/-- The second answer. -/
def cachedBrands : Answer Bool Key (Value Unit) ℚ := ⟨true, .brands, .brands ["Oven"], 40⟩

theorem askedTwice_inTime : Stepwise (cacheStep noFeeds fun _ => .catalog) (InTime 1)
    (start .empty) askedTwice := by
  simp only [askedTwice, stepwise_cons, stepwise_nil, and_true]
  refine ⟨?_, ?_, ?_, ?_, ?_, ?_⟩
  · rintro i accepted now ⟨⟩
  · rintro i accepted now ⟨⟩
  · rintro i accepted now ⟨⟩
  · rintro i accepted now ⟨⟩ k v t hread
    have ht : t = 2 := by
      cases hread
      rfl
    rw [ht]
    norm_num
  · rintro i accepted now ⟨⟩
  · rintro i accepted now ⟨⟩

/-- Forty seconds on, the brand that was added is not shown. -/
theorem cachedBrands_mem : cachedBrands ∈
    (run (cacheStep noFeeds fun _ => .catalog) (start .empty) askedTwice).answers := by
  decide +kernel

theorem served_recent_askedTwice :
    ∃ pre e j t, pre ++ [e] <+: askedTwice ∧ e.Sees j t ∧
      cachedBrands.value = noFeeds.read (fun _ => .catalog) j cachedBrands.key
        (run (cacheStep noFeeds fun _ => .catalog) (start .empty) pre).table ∧
      cachedBrands.time ≤ t + 1 + homeFeedTtl :=
  served_recent askedTwice_inTime cachedBrands_mem

theorem brands_recent_askedTwice :
    ∃ names pre e j t, cachedBrands.value = .brands names ∧ names.Pairwise (· < ·) ∧
      pre ++ [e] <+: askedTwice ∧ e.Sees j t ∧ cachedBrands.time ≤ t + 1 + homeFeedTtl ∧
      ∀ n, n ∈ names ↔ n ≠ "" ∧
        ∃ r ∈ (run (cacheStep noFeeds fun _ => .catalog) (start .empty) pre).table.products.rows,
          r.2.isActive = true ∧ r.2.isDraft = false ∧
          r.2.brandName.map (fun b => String.ofList (strip isSpace b.toList)) = some n :=
  brands_recent askedTwice_inTime cachedBrands_mem rfl

/-- The key is deleted, and the brands are asked for. -/
def askedAfter : List (Event Bool Db Key ℚ) :=
  [.lookup true .brands true 6, .query true 7, .store true true 8]

theorem served_after_clearing_askedAfter :
    ∃ mid e j t, mid ++ [e] <+: askedAfter ∧ e.Sees j t ∧
      Value.brands ["Mill", "Oven"] = noFeeds.read (fun _ => .catalog) j .brands
        (run (cacheStep noFeeds fun _ => .catalog) (start .empty)
          (askedTwice.take 5 ++ .delete .brands 5 :: mid)).table := by
  refine served_after_clearing (a := ⟨true, .brands, .brands ["Mill", "Oven"], 8⟩) ?_ ?_ rfl
  · intro i hfixed
    cases i <;> cases hfixed
  · decide +kernel

end CatalogCache

end SweetCrust
