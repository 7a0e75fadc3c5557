import SweetCrust.Data.Rows
import SweetCrust.Lib.Decimal
import SweetCrust.Lib.Paging
import SweetCrust.Lib.Table
import SweetCrust.Lib.Text

/-!
# The list of products, page by page

`list_products` asks the database anew for each page: the matching products in the order of one
column, from an offset on.  Products with the same value in that column come in any order, which
may be another for each page.

What the database answers is an input, and so are its comparisons of texts and `str.lower`.

* `matching`, `sortKey`, `listProducts` — the filters, the orders and the page.
* `fetchAll` — a client that asks for the next page while there is more.
* `ShowsOnce` — it ends, and has seen each matching product once, in order.
* `showsOnce_iff` — it does, whatever the database answers, exactly if no page ends between
  products with the same value.
-/

namespace SweetCrust

open Tabular Text Decimal Paging

namespace Listing

/-- A row of `products`, with the columns that the list looks at besides. -/
structure ListedProduct extends Product where
  shortDescription : Option String := none
  flavor : Option String := none
  weight : Option String := none
  discountPercent : ℚ := 0
  isSugarFree : Bool := false
  sameDayDelivery : Bool := true
  estimatedDeliveryMins : ℤ := 45
  /-- In microseconds. -/
  createdAt : ℕ
  deriving DecidableEq

/-- What the database does with texts, and `str.lower`. -/
structure Texts where
  lower : String → String
  sqlLower : String → String
  like : String → String → Bool
  equal : String → String → Bool

structure ProductListQuery where
  categoryId : Option ℤ := none
  brandName : Option String := none
  supplierUserId : Option ℤ := none
  q : Option String := none
  minPrice : Option ℚ := none
  maxPrice : Option ℚ := none
  flavor : Option String := none
  weight : Option String := none
  eggless : Option Bool := none
  sugarFree : Option Bool := none
  minRating : Option ℚ := none
  sameDay : Option Bool := none
  inStock : Option Bool := none
  offers : Option Bool := none
  sort : String := "popular"
  page : ℕ := 1
  pageSize : ℕ := 20

variable (texts : Texts)

/-! ## One page -/

/-- A condition on a column that may be null. -/
def holds (p : String → Bool) (column : Option String) : Bool := column.any p

/-- A condition that is made only for a number that is given and not zero. -/
def ifNonzero (n : Option ℤ) (p : ℤ → Bool) : Bool := (n.filter fun k => k ≠ 0).all p

/-- The conditions that `_list_filtered` puts on a product. -/
def matches? (query : ProductListQuery) (p : ListedProduct) : Bool :=
  p.isActive && !p.isDraft &&
  ifNonzero query.categoryId (fun c => p.categoryId = c) &&
  (truthy query.brandName).all (fun brand =>
    holds (fun b => texts.equal (texts.sqlLower b) (String.ofList
      (strip isSpace (texts.lower brand).toList))) p.brandName) &&
  ifNonzero query.supplierUserId (fun s => p.supplierUserId.map Int.ofNat = some s) &&
  (truthy query.q).all (fun q =>
    let pattern := "%" ++ texts.lower q ++ "%"
    holds (fun t => texts.like (texts.sqlLower t) pattern) (some p.name) ||
    holds (fun t => texts.like (texts.sqlLower t) pattern) p.shortDescription ||
    holds (fun t => texts.like (texts.sqlLower t) pattern) p.brandName) &&
  query.minPrice.all (fun low => low ≤ p.sellingPrice) &&
  query.maxPrice.all (fun high => p.sellingPrice ≤ high) &&
  (truthy query.flavor).all (fun flavor => holds (texts.equal · flavor) p.flavor) &&
  (truthy query.weight).all (fun weight => holds (texts.equal · weight) p.weight) &&
  query.eggless.all (fun b => p.isEggless = b) &&
  query.sugarFree.all (fun b => p.isSugarFree = b) &&
  query.minRating.all (fun low => low ≤ p.rating) &&
  query.sameDay.all (fun b => p.sameDayDelivery = b) &&
  (query.inStock.getD false → 0 < p.stockQty) &&
  (query.offers.getD false → 0 < p.discountPercent)

/-- The products that match, with their keys. -/
def matching (products : Table ListedProduct) (query : ProductListQuery) :
    List (ℕ × ListedProduct) :=
  products.select (matches? texts query)

/-- The column that a list is sorted by, from its least value on; descending columns are negated. -/
def sortKey (sort : String) (p : ListedProduct) : ℚ :=
  match sort with
  | "popular" => -p.salesCount
  | "price_asc" => p.sellingPrice
  | "price_desc" => -p.sellingPrice
  | "newest" => -p.createdAt
  | "rating" => -p.rating
  | "fastest" => p.estimatedDeliveryMins
  | _ => -p.salesCount

/-- What the database may answer before it cuts the page out. -/
def Answers (products : Table ListedProduct) (query : ProductListQuery)
    (rows : List (ℕ × ListedProduct)) : Prop :=
  Ordered (fun r => sortKey query.sort r.2) (matching texts products query) rows

structure Page where
  items : List (ℕ × ListedProduct)
  total : ℕ
  page : ℕ
  pageSize : ℕ
  hasMore : Bool

/-- `list_products`, where the database answers `rows`. -/
def listProducts (products : Table ListedProduct) (query : ProductListQuery)
    (rows : List (ℕ × ListedProduct)) : Page :=
  let total := (matching texts products query).length
  { items := (rows.drop ((query.page - 1) * query.pageSize)).take query.pageSize
    total := total
    page := query.page
    pageSize := query.pageSize
    hasMore := query.page * query.pageSize < total }

/-! ## All pages -/

/-- A client that asks for one page after another while there is more, for as many pages as are
given. -/
def fetchAll (list : ℕ → Page) : ℕ → ℕ → Option (List (ℕ × ListedProduct))
  | 0, _ => none
  | more + 1, page =>
    if (list page).hasMore then (fetchAll list more (page + 1)).map ((list page).items ++ ·)
    else some (list page).items

/-- The page `n` of a query, where the database answers `rows n`. -/
def pageOf (products : Table ListedProduct) (query : ProductListQuery)
    (rows : ℕ → List (ℕ × ListedProduct)) (n : ℕ) : Page :=
  listProducts texts products { query with page := n } (rows n)

/-- The client comes to an end, and what it has seen is each matching product once, in order. -/
structure ShowsOnce (products : Table ListedProduct) (query : ProductListQuery)
    (rows : ℕ → List (ℕ × ListedProduct)) : Prop where
  complete : ∃ shown,
    (∃ enough, ∀ more, enough ≤ more →
      fetchAll (pageOf texts products query rows) more 1 = some shown) ∧
    Ordered (fun r => sortKey query.sort r.2) (matching texts products query) shown
  total : ∀ n, (pageOf texts products query rows n).total = (matching texts products query).length

section Client

variable {list : ℕ → Page} {more n : ℕ} {shown : List (ℕ × ListedProduct)}

/-- More pages than there are make no difference. -/
theorem fetchAll_of_le {more' : ℕ} (hle : more ≤ more') (h : fetchAll list more n = some shown) :
    fetchAll list more' n = some shown := by
  induction more generalizing n more' shown with
  | zero => cases h
  | succ more ih =>
    obtain ⟨more', rfl⟩ : ∃ k, more' = k + 1 := ⟨more' - 1, by omega⟩
    unfold fetchAll at h ⊢
    by_cases hmore : (list n).hasMore = true
    · rw [if_pos hmore] at h ⊢
      obtain ⟨rest, hrest, rfl⟩ := Option.map_eq_some_iff.1 h
      rw [ih (by omega) hrest, Option.map_some]
    · rw [if_neg hmore] at h ⊢
      exact h

end Client

section Pages

variable {texts} {products : Table ListedProduct} {query : ProductListQuery}
  {rows : ℕ → List (ℕ × ListedProduct)} {n : ℕ}

theorem nodup_matching (products : Table ListedProduct) (query : ProductListQuery) :
    (matching texts products query).Nodup :=
  (List.Nodup.of_map _ products.keys_nodup).filter _

theorem items_pageOf (n : ℕ) :
    (pageOf texts products query rows (n + 1)).items = page (rows (n + 1)) query.pageSize n := rfl

theorem hasMore_pageOf (n : ℕ) :
    (pageOf texts products query rows n).hasMore = true ↔
      n * query.pageSize < (matching texts products query).length :=
  decide_eq_true_iff

/-- From any page on, the client sees the pages up to one with which all products are through. -/
theorem fetchAll_pageOf {more : ℕ}
    (henough : (matching texts products query).length ≤ (n + more + 1) * query.pageSize) :
    ∃ last, n < last ∧ (matching texts products query).length ≤ last * query.pageSize ∧
      ∀ rows, fetchAll (pageOf texts products query rows) (more + 1) (n + 1) =
        some ((List.range' n (last - n)).flatMap fun k => page (rows (k + 1)) query.pageSize k) := by
  induction more generalizing n with
  | zero =>
    refine ⟨n + 1, by omega, henough, fun rows => ?_⟩
    unfold fetchAll
    rw [if_neg fun h => henough.not_gt ((hasMore_pageOf _).1 h), Nat.add_sub_cancel_left]
    simp [items_pageOf]
  | succ more ih =>
    by_cases hmore : (n + 1) * query.pageSize < (matching texts products query).length
    · obtain ⟨last, hlast, hall, hfetch⟩ := ih (n := n + 1) (by
        rw [show n + 1 + more + 1 = n + (more + 1) + 1 by omega]
        exact henough)
      refine ⟨last, by omega, hall, fun rows => ?_⟩
      unfold fetchAll
      rw [if_pos ((hasMore_pageOf _).2 hmore), hfetch, Option.map_some, items_pageOf,
        show last - n = (last - (n + 1)) + 1 by omega, List.range'_succ, List.flatMap_cons]
    · refine ⟨n + 1, by omega, not_lt.1 hmore, fun rows => ?_⟩
      unfold fetchAll
      rw [if_neg fun h => hmore ((hasMore_pageOf _).1 h), Nat.add_sub_cancel_left]
      simp [items_pageOf]

/-- What the client sees are the pages of the answers. -/
theorem exists_fetchAll (texts : Texts) (products : Table ListedProduct)
    (hsize : 1 ≤ query.pageSize) :
    ∃ last, (matching texts products query).length ≤ last * query.pageSize ∧
      ∀ rows, ∃ enough, ∀ more, enough ≤ more →
        fetchAll (pageOf texts products query rows) more 1 =
          some (pages (fun k => rows (k + 1)) query.pageSize last) := by
  have henough : (matching texts products query).length ≤
      (0 + (matching texts products query).length + 1) * query.pageSize := by
    calc (matching texts products query).length
        ≤ (matching texts products query).length * query.pageSize := Nat.le_mul_of_pos_right _ hsize
      _ ≤ _ := Nat.mul_le_mul_right _ (by omega)
  obtain ⟨last, -, hall, hfetch⟩ := fetchAll_pageOf henough
  refine ⟨last, hall, fun rows =>
    ⟨(matching texts products query).length + 1, fun more hmore => ?_⟩⟩
  have hshown := hfetch rows
  rw [Nat.sub_zero, ← List.range_eq_range'] at hshown
  exact fetchAll_of_le hmore hshown

/-- What the client sees is in order in any case. -/
theorem showsOnce_iff_perm {last enough : ℕ} (hrows : ∀ n, Answers texts products query (rows n))
    (hfetch : ∀ more, enough ≤ more → fetchAll (pageOf texts products query rows) more 1 =
      some (pages (fun k => rows (k + 1)) query.pageSize last)) :
    ShowsOnce texts products query rows ↔
      (pages (fun k => rows (k + 1)) query.pageSize last).Perm
        (matching texts products query) := by
  constructor
  · rintro ⟨⟨shown, ⟨enough', hshown⟩, hperm, -⟩, -⟩
    have hsame := hshown (max enough enough') (le_max_right _ _)
    rw [hfetch _ (le_max_left _ _), Option.some.injEq] at hsame
    rw [hsame]
    exact hperm
  · intro hperm
    refine ⟨⟨_, ⟨enough, hfetch⟩, hperm, ?_⟩, fun n => rfl⟩
    have hkeys : ((pages (fun k => rows (k + 1)) query.pageSize last).map
        fun r => sortKey query.sort r.2).Pairwise (· ≤ ·) := by
      rw [map_pages (fun k => hrows (k + 1)) (hrows 0) last]
      exact (List.pairwise_map.2 (hrows 0).sorted).sublist (List.take_sublist _ _)
    exact List.pairwise_map.1 hkeys

/-- Paging shows every product once, whatever the database answers, exactly if no page ends between
products with the same value in the column that the list is sorted by. -/
theorem showsOnce_iff (texts : Texts) (products : Table ListedProduct) (query : ProductListQuery)
    (hsize : 1 ≤ query.pageSize) :
    (∀ rows, (∀ n, Answers texts products query (rows n)) →
        ShowsOnce texts products query rows) ↔
      ∀ n, ¬ Splits (fun r => sortKey query.sort r.2) (matching texts products query)
        (n * query.pageSize) := by
  obtain ⟨last, hall, hfetch⟩ := exists_fetchAll texts products hsize
  rw [← pages_perm_iff (nodup_matching products query) hsize hall]
  constructor
  · intro h answer hanswer
    have hrows : ∀ n, Answers texts products query (answer (n - 1)) := fun n => hanswer (n - 1)
    obtain ⟨enough, henough⟩ := hfetch fun n => answer (n - 1)
    exact (showsOnce_iff_perm hrows henough).1 (h _ hrows)
  · intro h rows hrows
    obtain ⟨enough, henough⟩ := hfetch rows
    exact (showsOnce_iff_perm hrows henough).2 (h _ fun k => hrows (k + 1))

end Pages

/-! ## Two cakes on pages of one -/

/-- Texts in which only the size of plain letters does not matter. -/
def plainTexts : Texts where
  lower := String.toLower
  sqlLower := String.toLower
  like text pattern := (pattern.toList.drop 1).dropLast <:+: text.toList
  equal a b := a.toLower = b.toLower

/-- A cake that has been sold so many times. -/
def cake (salesCount : ℤ) : ListedProduct where
  toProduct := { (default : Product) with isActive := true, salesCount := salesCount }
  createdAt := 0

/-- Two cakes sold three times and seven times are seen once each. -/
theorem apart_shown :
    ShowsOnce plainTexts (.ofList [cake 3, cake 7]) { pageSize := 1 }
      fun _ => [(2, cake 7), (1, cake 3)] :=
  (showsOnce_iff plainTexts _ _ (by decide)).2 (fun _ => not_splits_of_nodup (by decide +kernel)) _
    fun _ => ⟨by decide +kernel, by decide +kernel⟩

/-- Of two cakes sold three times each, a client may see the first one twice. -/
theorem alike_twice :
    ¬ ∀ rows, (∀ n, Answers plainTexts (.ofList [cake 3, cake 3]) { pageSize := 1 } (rows n)) →
      ShowsOnce plainTexts (.ofList [cake 3, cake 3]) { pageSize := 1 } rows := by
  intro h
  have hanswers : ∀ n : ℕ, Answers plainTexts (.ofList [cake 3, cake 3]) { pageSize := 1 }
      (if n = 1 then [(1, cake 3), (2, cake 3)] else [(2, cake 3), (1, cake 3)]) := by
    intro n
    split_ifs
    · exact ⟨by decide +kernel, by decide +kernel⟩
    · exact ⟨by decide +kernel, by decide +kernel⟩
  obtain ⟨⟨shown, ⟨enough, hshown⟩, hperm, -⟩, -⟩ := h _ hanswers
  have htwo : fetchAll (pageOf plainTexts (.ofList [cake 3, cake 3]) { pageSize := 1 } fun n =>
      if n = 1 then [(1, cake 3), (2, cake 3)] else [(2, cake 3), (1, cake 3)]) 2 1 =
      some [(1, cake 3), (1, cake 3)] := by decide +kernel
  have hsame := fetchAll_of_le (le_max_left 2 enough) htwo
  rw [hshown _ (le_max_right _ _), Option.some.injEq] at hsame
  subst hsame
  revert hperm
  unfold matching
  decide +kernel

end Listing

end SweetCrust
