import SweetCrust.Lib.Guard
import SweetCrust.Lib.Recent
import SweetCrust.Lib.Runs
import SweetCrust.Data.Rows

/-!
# Recently viewed products

Every look at a product adds a row.  What a customer has viewed lately is read from the latest
rows, and the products that these name are then looked up, in the order in which they are kept.

* `getProduct`, `recentlyViewed` — a look at a product, and the list.
* `newest` — the products that were looked at, newest first.
* `ShowsLatest` — the list is of the latest distinct products.
* `showsLatest_iff` — when that is so.
-/

namespace SweetCrust

open Tabular Guard Runs Recent

namespace Viewed

structure RecentlyViewed where
  userId : ℕ
  productId : ℕ
  viewedAt : ℕ

/-- The products, and the looks at them. -/
structure Shelf where
  products : Table Product
  views : Table RecentlyViewed

/-- A look at a product, by somebody who is signed in or not. -/
structure Look where
  productId : ℕ
  userId : Option ℕ
  now : ℕ

/-- The shelf with one more row for the look. -/
def Shelf.record (look : Look) (s : Shelf) : Shelf :=
  match look.userId with
  | some u => { s with views := s.views.insert ⟨u, look.productId, look.now⟩ }
  | none => s

/-- `get_product`. -/
def getProduct (look : Look) (s : Shelf) : Except AppError (Product × Shelf) := do
  let product ← orRaise (s.products.get? look.productId) (.notFound "Product not found")
  return (product, s.record look)

/-- The shelf after a look. -/
def step (s : Shelf) (look : Look) : Shelf :=
  match getProduct look s with
  | .ok r => r.2
  | .error _ => s

/-- The products of the user's latest rows. -/
def recentIds (userId limit : ℕ) (s : Shelf) : List ℕ :=
  (latest (fun r => r.2.viewedAt) limit (s.views.select fun v => v.userId = userId)).map
    fun r => r.2.productId

/-- `_recently_viewed`. -/
def recentlyViewed (userId limit : ℕ) (s : Shelf) : List (ℕ × Product) :=
  let ids := recentIds userId limit s
  if ids = [] then [] else s.products.rows.filter fun r => r.1 ∈ ids

/-! ## What was viewed -/

/-- The user looks at a product that there is. -/
def counts (products : Table Product) (userId : ℕ) (look : Look) : Bool :=
  look.userId = some userId ∧ (products.get? look.productId).isSome

/-- The products that the user has looked at, newest look first. -/
def newest (products : Table Product) (userId : ℕ) (looks : List Look) : List ℕ :=
  ((looks.filter (counts products userId)).insertionSort fun a b => b.now ≤ a.now).map
    Look.productId

/-- The list shows the latest `limit` distinct products that the user has looked at, the one that
was looked at last in front. -/
def ShowsLatest (products : Table Product) (userId limit : ℕ) (looks : List Look) : Prop :=
  let shown := recentlyViewed userId limit (run step ⟨products, .empty⟩ looks)
  shown.map Prod.fst = (firsts (newest products userId looks)).take limit ∧
    ∀ r ∈ shown, products.get? r.1 = some r.2

/-- The latest looks are at distinct products, or at all that the user has looked at; and of these
products, the later one was looked at, the smaller is its key. -/
def InOrder (products : Table Product) (userId limit : ℕ) (looks : List Look) : Prop :=
  let ids := newest products userId looks
  ((ids.take limit).Nodup ∨ ∀ y ∈ ids, y ∈ ids.take limit) ∧
    (firsts (ids.take limit)).Pairwise (· < ·)

section Looks

variable {products : Table Product} {u limit : ℕ} {looks : List Look} {s : Shelf} {look : Look}

theorem step_products (s : Shelf) (look : Look) : (step s look).products = s.products := by
  unfold step getProduct
  cases s.products.get? look.productId with
  | none => rfl
  | some p =>
    show (s.record look).products = s.products
    unfold Shelf.record
    cases look.userId <;> rfl

theorem products_run (s : Shelf) (looks : List Look) :
    (run step s looks).products = s.products := by
  induction looks generalizing s with
  | nil => rfl
  | cons look looks ih =>
    rw [run_cons, ih, step_products]

/-- The row of a look that counts. -/
def rowOf (u : ℕ) (look : Look) : RecentlyViewed := ⟨u, look.productId, look.now⟩

/-- A look adds a row for the user, if it counts. -/
theorem views_step (s : Shelf) (look : Look) (u : ℕ) :
    ((step s look).views.select fun v => v.userId = u).map Prod.snd =
      (s.views.select fun v => v.userId = u).map Prod.snd ++
        if counts s.products u look then [rowOf u look] else [] := by
  unfold step getProduct
  cases hp : s.products.get? look.productId with
  | none =>
    have hnot : counts s.products u look = false := by simp [counts, hp]
    rw [hnot]
    exact (List.append_nil _).symm
  | some p =>
    show (((s.record look).views.select fun v => v.userId = u).map Prod.snd) = _
    unfold Shelf.record
    cases hu : look.userId with
    | none =>
      have hnot : counts s.products u look = false := by simp [counts, hu]
      rw [hnot]
      exact (List.append_nil _).symm
    | some v =>
      have hcounts : counts s.products u look = decide (v = u) := by simp [counts, hu, hp]
      rw [Table.select_insert, List.map_append, hcounts]
      by_cases hv : v = u
      · simp [hv, rowOf]
      · simp [hv]

/-- A run adds a row for every look of the user that counts. -/
theorem views_run (s : Shelf) (looks : List Look) (u : ℕ) :
    ((run step s looks).views.select fun v => v.userId = u).map Prod.snd =
      (s.views.select fun v => v.userId = u).map Prod.snd ++
        (looks.filter (counts s.products u)).map (rowOf u) := by
  induction looks generalizing s with
  | nil => simp
  | cons look looks ih =>
    rw [run_cons, ih, views_step, step_products, List.append_assoc]
    by_cases hcounts : counts s.products u look <;> simp [hcounts]

/-- The products that are read are those of the user's newest looks. -/
theorem recentIds_run (products : Table Product) (u limit : ℕ) (looks : List Look) :
    recentIds u limit (run step ⟨products, .empty⟩ looks) =
      (newest products u looks).take limit := by
  have hviews := views_run ⟨products, .empty⟩ looks u
  have hsort : ((looks.filter (counts products u)).insertionSort fun a b => b.now ≤ a.now).map
      (rowOf u) = ((looks.filter (counts products u)).map (rowOf u)).insertionSort
        fun a b => b.viewedAt ≤ a.viewedAt :=
    List.map_insertionSort _ _ _ _ fun _ _ _ _ => Iff.rfl
  have hrows : ((((run step ⟨products, .empty⟩ looks).views.select
      fun v => v.userId = u).insertionSort fun a b => b.2.viewedAt ≤ a.2.viewedAt).map Prod.snd) =
        (((run step ⟨products, .empty⟩ looks).views.select fun v => v.userId = u).map
          Prod.snd).insertionSort fun a b => b.viewedAt ≤ a.viewedAt :=
    List.map_insertionSort _ _ _ _ fun _ _ _ _ => Iff.rfl
  rw [hviews] at hrows
  have hnil : ((Table.empty : Table RecentlyViewed).select fun v => v.userId = u) = [] := rfl
  rw [hnil, List.map_nil, List.nil_append, ← hsort] at hrows
  unfold recentIds latest newest
  rw [List.map_take]
  congr 1
  calc _ = ((((run step ⟨products, .empty⟩ looks).views.select
          fun v => v.userId = u).insertionSort fun a b => b.2.viewedAt ≤ a.2.viewedAt).map
            Prod.snd).map RecentlyViewed.productId := by rw [List.map_map]; rfl
    _ = _ := by rw [hrows, List.map_map]; rfl

/-- What the list shows are the rows of the products that are read. -/
theorem recentlyViewed_run (products : Table Product) (u limit : ℕ) (looks : List Look) :
    recentlyViewed u limit (run step ⟨products, .empty⟩ looks) =
      products.rows.filter fun r => r.1 ∈ (newest products u looks).take limit := by
  unfold recentlyViewed
  rw [recentIds_run, products_run]
  show (if (newest products u looks).take limit = [] then [] else _) = _
  split_ifs with hnil
  · rw [hnil]
    simp
  · rfl

theorem mem_newest {y : ℕ} (h : y ∈ newest products u looks) :
    y ∈ products.rows.map Prod.fst := by
  obtain ⟨look, hlook, rfl⟩ := List.mem_map.1 h
  have hcounts := List.of_mem_filter ((List.perm_insertionSort _ _).mem_iff.1 hlook)
  simp only [counts, decide_eq_true_eq] at hcounts
  obtain ⟨p, hp⟩ := Option.isSome_iff_exists.1 hcounts.2
  exact List.mem_map.2 ⟨(look.productId, p), Table.get?_eq_some.1 hp, rfl⟩

/-- The list shows the latest distinct products exactly if the latest looks are in order. -/
theorem showsLatest_iff (products : Table Product) (u limit : ℕ) (looks : List Look) :
    ShowsLatest products u limit looks ↔ InOrder products u limit looks := by
  have hrows : ∀ r ∈ products.rows.filter fun r => r.1 ∈ (newest products u looks).take limit,
      products.get? r.1 = some r.2 := fun r hr => Table.get?_eq_some.2 (List.mem_of_mem_filter hr)
  have hfst : ((products.rows.filter
      fun r => r.1 ∈ (newest products u looks).take limit).map Prod.fst) =
        (products.rows.map Prod.fst).filter fun y => y ∈ (newest products u looks).take limit := by
    rw [List.filter_map]
    rfl
  unfold ShowsLatest InOrder
  simp only [recentlyViewed_run, hfst]
  rw [and_iff_left hrows]
  exact filter_mem_take_eq_iff products.sorted (fun y hy => mem_newest hy) limit

end Looks

/-! ## Two cakes -/

/-- Two products. -/
def twoCakes : Table Product :=
  .ofList [{ (default : Product) with name := "Black Forest" },
    { (default : Product) with name := "Red Velvet" }]

/-- Black Forest, then Red Velvet: the list starts with Black Forest.  With another look at Red
Velvet, and two products to show, Black Forest is missing. -/
theorem twoCakes_shown :
    (recentlyViewed 7 10 (run step ⟨twoCakes, .empty⟩ [⟨1, some 7, 1⟩, ⟨2, some 7, 2⟩])).map
        Prod.fst = [1, 2] ∧
      (recentlyViewed 7 2 (run step ⟨twoCakes, .empty⟩
        [⟨1, some 7, 1⟩, ⟨2, some 7, 2⟩, ⟨2, some 7, 3⟩])).map Prod.fst = [2] ∧
      ¬ ShowsLatest twoCakes 7 10 [⟨1, some 7, 1⟩, ⟨2, some 7, 2⟩] ∧
      ¬ ShowsLatest twoCakes 7 2 [⟨1, some 7, 1⟩, ⟨2, some 7, 2⟩, ⟨2, some 7, 3⟩] := by
  refine ⟨by decide +kernel, by decide +kernel, fun h => ?_, fun h => ?_⟩
  · have hshown := h.1
    revert hshown
    decide +kernel
  · have hshown := h.1
    revert hshown
    decide +kernel

end Viewed

end SweetCrust
