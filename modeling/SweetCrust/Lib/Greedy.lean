import Mathlib

/-!
# Visiting the nearest first

A tour from a starting place goes to an entry of least cost, takes its place, and goes on with
the entries that remain.

* `tour` — the tour, which sorts what remains before each leg.
* `perm_tour` — it leaves no entry out and visits none twice.
* `NearestFirst`, `nearestFirst_tour` — each leg goes to an entry of least cost among those that
  remain.
* `legs` — the costs along a tour.
-/

namespace Greedy

variable {P K α : Type} (cost : P → α → K) (place : α → P)

/-! ## Along a tour -/

/-- The costs along a tour. -/
def legs : P → List α → List K
  | _, [] => []
  | here, a :: later => cost here a :: legs (place a) later

/-- Where a tour stands after some entries. -/
def reached (here : P) (visited : List α) : P := visited.foldl (fun _ a => place a) here

/-! ## The tour -/

variable [LinearOrder K]

/-- The entries with the least cost first; entries of one cost stay in their order. -/
def nearest (here : P) (rest : List α) : List α :=
  rest.insertionSort fun a b => cost here a ≤ cost here b

theorem perm_nearest (here : P) (rest : List α) : (nearest cost here rest).Perm rest :=
  List.perm_insertionSort _ rest

/-- The first is an entry of least cost. -/
theorem nearest_le {here : P} {rest later : List α} {a b : α}
    (h : nearest cost here rest = a :: later) (hb : b ∈ later) : cost here a ≤ cost here b := by
  have htotal : Std.Total fun a b => cost here a ≤ cost here b := ⟨fun a b => le_total _ _⟩
  have htrans : IsTrans α fun a b => cost here a ≤ cost here b := ⟨fun _ _ _ => le_trans⟩
  have hsorted : (nearest cost here rest).Pairwise fun a b => cost here a ≤ cost here b :=
    List.pairwise_insertionSort _ rest
  rw [h, List.pairwise_cons] at hsorted
  exact hsorted.1 b hb

/-- Fewer entries remain after each leg. -/
theorem length_lt_of_nearest {here : P} {rest later : List α} {a : α}
    (h : nearest cost here rest = a :: later) : later.length < rest.length := by
  have hlen := (perm_nearest cost here rest).length_eq
  rw [h, List.length_cons] at hlen
  omega

/-- The tour through the entries that remain. -/
def tour (here : P) (rest : List α) : List α :=
  match _h : nearest cost here rest with
  | [] => []
  | a :: later => a :: tour (place a) later
termination_by rest.length
decreasing_by exact length_lt_of_nearest cost _h

/-- Each entry of the tour has the least cost among itself and those after it. -/
inductive NearestFirst : P → List α → Prop
  | nil (here : P) : NearestFirst here []
  | cons {here : P} {a : α} {later : List α} (hle : ∀ b ∈ later, cost here a ≤ cost here b)
      (hrest : NearestFirst (place a) later) : NearestFirst here (a :: later)

variable {cost place} {here : P} {rest : List α}

theorem tour_eq_nil (h : nearest cost here rest = []) : tour cost place here rest = [] := by
  rw [tour]
  split
  · rfl
  · next a later h' => exact absurd (h.symm.trans h') (by simp)

theorem tour_eq_cons {a : α} {later : List α} (h : nearest cost here rest = a :: later) :
    tour cost place here rest = a :: tour cost place (place a) later := by
  rw [tour]
  split
  · next h' => exact absurd (h.symm.trans h') (by simp)
  · next b later' h' =>
    cases h.symm.trans h'
    rfl

/-- The induction along a tour. -/
theorem tour_induction {motive : P → List α → List α → Prop}
    (nil : ∀ here, motive here [] [])
    (cons : ∀ here rest a later, nearest cost here rest = a :: later →
      motive (place a) later (tour cost place (place a) later) →
      motive here rest (a :: tour cost place (place a) later))
    (here : P) (rest : List α) : motive here rest (tour cost place here rest) := by
  induction here, rest using tour.induct cost place with
  | case1 here rest h =>
    have hrest : rest = [] := (h ▸ perm_nearest cost here rest).nil_eq.symm
    subst hrest
    have hnil : tour cost place here [] = [] := tour_eq_nil h
    rw [hnil]
    exact nil here
  | case2 here rest a later h ih =>
    rw [tour_eq_cons h]
    exact cons here rest a later h ih

/-- No entry is left out, and none is visited twice. -/
theorem perm_tour (here : P) (rest : List α) : (tour cost place here rest).Perm rest := by
  refine tour_induction (motive := fun _ rest t => t.Perm rest) ?_ ?_ here rest
  · exact fun _ => List.Perm.refl _
  · intro here rest a later h ih
    have hlater : (a :: tour cost place (place a) later).Perm (a :: later) := ih.cons a
    rw [← h] at hlater
    exact hlater.trans (perm_nearest cost here rest)

theorem nearestFirst_tour (here : P) (rest : List α) :
    NearestFirst cost place here (tour cost place here rest) := by
  refine tour_induction (motive := fun here _ t => NearestFirst cost place here t) ?_ ?_ here rest
  · exact NearestFirst.nil
  · intro here rest a later h ih
    refine NearestFirst.cons (fun b hb => ?_) ih
    exact nearest_le cost h ((perm_tour (place a) later).mem_iff.1 hb)

/-- At any entry of a tour, the leg to it costs no more than one to a later entry would. -/
theorem NearestFirst.le {visited later : List α} {a : α}
    (h : NearestFirst cost place here (visited ++ a :: later)) {b : α} (hb : b ∈ later) :
    cost (reached place here visited) a ≤ cost (reached place here visited) b := by
  induction visited generalizing here with
  | nil =>
    cases h with
    | cons hle hrest => exact hle b hb
  | cons c visited ih =>
    cases h with
    | cons hle hrest => exact ih hrest

end Greedy
