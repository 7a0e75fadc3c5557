import SweetCrust.Catalog.Movements

/-!
# Does the stock status reflect the stock?

The status of a product is derived from its stock and its threshold.  A sale and the goods of
a purchase compute it with the product's own threshold; whoever sets a stock computes it with
the default one; and a new threshold computes nothing.

* `labelled_iff` — every status reflects stock and threshold throughout a run, exactly if no
  request of it takes two thresholds that judge the stock differently.
* `count_mislabelled` — eight cakes that ought to be low on stock.
-/

namespace SweetCrust

open Tabular Session Carts Checkout Runs

namespace Catalog

/-- The status of a product is the one that its stock and its threshold call for. -/
def Labelled (p : Product) : Prop := p.stockStatus = stockStatusFor p.stockQty p.lowStockThreshold

instance (p : Product) : Decidable (Labelled p) := inferInstanceAs (Decidable (_ = _))

/-- Two thresholds judge a stock alike. -/
def Alike (quantity t t' : ℤ) : Prop := quantity ≤ 0 ∨ (quantity ≤ t ↔ quantity ≤ t')

/-- The threshold with which a request computes the status of the product `p`, if at all. -/
def Request.judges (p : Product) (r : Request) : ℤ :=
  if r.sets.stock.isSome then defaultThreshold else p.lowStockThreshold

/-- The threshold that computed the status of a product judges its stock like the one that the
product has then. -/
def JudgesAlike (s : Db) : Act → Prop
  | .product r => ∀ y p f movements, planned s r = some (.write y p f movements) →
      Alike (r.sets.stock.getD p.stockQty) (r.judges p)
        (r.sets.threshold.getD p.lowStockThreshold)
  | _ => True

section Steps

variable {env : Payment.Env} {s : Db} {a : Act} {r : Request} {y : ℕ} {p q : Product}
  {f : Product → Product}

theorem stockStatusFor_eq_iff {quantity t t' : ℤ} :
    stockStatusFor quantity t = stockStatusFor quantity t' ↔ Alike quantity t t' := by
  unfold stockStatusFor Alike
  by_cases h0 : quantity ≤ 0
  · simp [h0]
  · by_cases ht : quantity ≤ t <;> by_cases ht' : quantity ≤ t' <;> simp [h0, ht, ht']

/-- A rewritten product has the right status exactly if the two thresholds judge alike. -/
theorem labelled_written (h : Labelled p) (hw : r.sets.Written f p) :
    Labelled (f p) ↔ Alike (r.sets.stock.getD p.stockQty) (r.judges p)
      (r.sets.threshold.getD p.lowStockThreshold) := by
  rw [← stockStatusFor_eq_iff, Labelled, hw.status, hw.stock, hw.threshold]
  cases hstock : r.sets.stock with
  | none =>
    have hjudges : r.judges p = p.lowStockThreshold := by simp [Request.judges, hstock]
    rw [hjudges, Option.map_none, Option.getD_none, Option.getD_none, h]
  | some v =>
    have hjudges : r.judges p = defaultThreshold := by simp [Request.judges, hstock]
    rw [hjudges, Option.map_some, Option.getD_some, Option.getD_some]

theorem labelled_sellLines {products : Table Product} (h : products.All Labelled)
    (lines : List Line) : (sellLines lines products).All Labelled := by
  induction lines generalizing products with
  | nil => exact h
  | cons line lines ih =>
    apply ih
    exact h.modify fun p _ => rfl

/-- Selling leaves the thresholds. -/
theorem threshold_sellLines (lines : List Line) (products : Table Product) (y : ℕ) :
    ((sellLines lines products).get? y).map Product.lowStockThreshold =
      (products.get? y).map Product.lowStockThreshold := by
  induction lines generalizing products with
  | nil => rfl
  | cons line lines ih =>
    show ((sellLines lines (products.modify line.productId (sell line.quantity))).get? y).map _ = _
    rw [ih, Table.get?_modify]
    split_ifs
    · rw [Option.map_map]
      rfl
    · rfl

/-- What an act makes of a product has the right status. -/
theorem labelled_of_rewritten (h : s.products.All Labelled) (hp : s.products.get? y = some p)
    (hq : Rewritten s y p a q) (hok : JudgesAlike s a) : Labelled q := by
  have hold : Labelled p := h.get? hp
  cases hq with
  | same => exact hold
  | written r f movements hplan =>
    obtain ⟨_, _, hsets, _⟩ := written_of_planned hplan
    exact (labelled_written hold (hsets p)).2 (hok y p f movements hplan)
  | received r purchase hawaited hy => rfl
  | sold u data draws quote after hquote hbuys hafter =>
    have hlabelled : Labelled after := (labelled_sellLines h quote.summary.items).get? hafter
    have hthreshold := threshold_sellLines quote.summary.items s.products y
    rw [hafter, hp, Option.map_some, Option.map_some, Option.some.injEq] at hthreshold
    show after.stockStatus = stockStatusFor after.stockQty p.lowStockThreshold
    rw [← hthreshold]
    exact hlabelled

/-- An act leaves every status right exactly if its thresholds judge alike. -/
theorem labelled_act (h : s.products.All Labelled) (a : Act) :
    (act env s a).products.All Labelled ↔ JudgesAlike s a := by
  constructor
  · intro hafter
    cases a with
    | product r =>
      intro y p f movements hplan
      obtain ⟨hp, _, hsets, _⟩ := written_of_planned hplan
      have hproducts : (act env s (.product r)).products = s.products.modify y f := by
        show (serve s r).products = _
        rw [(serve_eq s r).products, hplan]
        rfl
      have hrow : (act env s (.product r)).products.get? y = some (f p) := by
        rw [hproducts, Table.get?_modify_self, hp]
        rfl
      exact (labelled_written (h.get? hp) (hsets p)).1 (hafter.get? hrow)
    | _ => trivial
  · intro hok row hrow
    have heffect := effect_act env s a
    have hget := Table.get?_eq_some.2 hrow
    cases hp : s.products.get? row.1 with
    | none =>
      obtain ⟨r, _, hplan, _⟩ := heffect.new hp hget
      obtain ⟨hfresh, _⟩ := fresh_of_planned hplan
      rw [Labelled, hfresh.threshold]
      exact hfresh.status
    | some p =>
      obtain ⟨q, hq, hrewritten⟩ := heffect.row hp
      rw [hget, Option.some.injEq] at hq
      rw [hq]
      exact labelled_of_rewritten h hp hrewritten hok

end Steps

/-- Throughout a run every status reflects stock and threshold, exactly if in each act of it
the thresholds judge alike. -/
theorem labelled_iff (env : Payment.Env) {db : Db} (h : db.products.All Labelled) (as : List Act) :
    Throughout (act env) (fun s => s.products.All Labelled) db as ↔
      Stepwise (act env) JudgesAlike db as := by
  have hstep : ∀ (s : Db) (a : Act), True → s.products.All Labelled →
      ((act env s a).products.All Labelled ↔ JudgesAlike s a) :=
    fun _ a _ hs => labelled_act hs a
  exact throughout_iff_stepwise (fun _ _ _ => trivial) hstep trivial h as

/-! ## A count under a threshold of ten -/

/-- Five cakes, of which ten are few. -/
def fewCakes : Db :=
  { Db.empty with
    products := .ofList
      [{ (default : Product) with stockQty := 5, lowStockThreshold := 10, stockStatus := .lowStock }] }

/-- The admin counts the cakes. -/
def count (quantity : ℤ) : Act := .product (.stock 1 quantity "count" none none)

theorem count_labelled :
    Throughout (act Payment.plainEnv) (fun s => s.products.All Labelled) fewCakes
      [count 3, count 12] := by
  have hmatch : ∀ (s : Db) (p : Product) (n : ℤ), s.products.get? 1 = some p →
      Alike n defaultThreshold p.lowStockThreshold → JudgesAlike s (count n) := by
    intro s p n hp halike y p' f movements hplan
    simp only [planned, hp, Option.map_some, Option.some.injEq, Change.write.injEq] at hplan
    obtain ⟨_, rfl, _⟩ := hplan
    exact halike
  refine (labelled_iff _ (by decide) _).2
    (stepwise_cons.2 ⟨hmatch _ _ 3 rfl ?_, stepwise_cons.2 ⟨hmatch _ _ 12 rfl ?_, stepwise_nil _ _⟩⟩)
  · exact Or.inr (by decide)
  · exact Or.inr (by decide)

/-- Eight cakes are fewer than ten, and their status says that there are enough. -/
theorem count_mislabelled :
    ¬ Throughout (act Payment.plainEnv) (fun s => s.products.All Labelled) fewCakes [count 8] := by
  intro h
  have hfinal := h.final
  revert hfinal
  decide +kernel

end Catalog

end SweetCrust
