import Mathlib

/-!
# Rows by key

* `group` — the rows with a key.
* `perm_groups` — the groups of distinct keys, one after another, are the rows in another order.
* `sum_groups` — what is summed group by group is what is summed over the rows.
-/

namespace Grouping

variable {α κ M : Type} [DecidableEq κ]

/-- The rows with a key, in their order. -/
def group (key : α → κ) (rows : List α) (k : κ) : List α := rows.filter fun a => key a = k

section Groups

variable {key : α → κ} {ks : List κ} {rows : List α} {k : κ} {a : α}

theorem mem_group : a ∈ group key rows k ↔ a ∈ rows ∧ key a = k := by
  simp [group]

/-- Leaving out the rows of one key leaves the groups of the others. -/
theorem group_filter_ne {k' : κ} (h : k' ≠ k) :
    group key (rows.filter fun a => key a ≠ k) k' = group key rows k' := by
  unfold group
  rw [List.filter_filter]
  refine List.filter_congr fun a _ => ?_
  by_cases hk : key a = k' <;> simp [hk, h]

/-- The groups of distinct keys, one after another, are the rows in another order. -/
theorem perm_groups (hks : ks.Nodup) (hall : ∀ a ∈ rows, key a ∈ ks) :
    (ks.flatMap (group key rows)).Perm rows := by
  induction ks generalizing rows with
  | nil =>
    have hnil : rows = [] := List.eq_nil_iff_forall_not_mem.2 fun a ha => by simpa using hall a ha
    rw [hnil]
    exact List.Perm.refl _
  | cons k ks ih =>
    obtain ⟨hk, hnodup⟩ := List.nodup_cons.1 hks
    have hothers : ks.flatMap (group key rows) =
        ks.flatMap (group key (rows.filter fun a => key a ≠ k)) := by
      refine List.flatMap_congr fun k' hk' => (group_filter_ne ?_).symm
      rintro rfl
      exact hk hk'
    have hrest : (ks.flatMap (group key (rows.filter fun a => key a ≠ k))).Perm
        (rows.filter fun a => key a ≠ k) := by
      refine ih hnodup fun a ha => ?_
      obtain ⟨hmem, hne⟩ := List.mem_filter.1 ha
      exact (List.mem_cons.1 (hall a hmem)).resolve_left (of_decide_eq_true hne)
    rw [List.flatMap_cons, hothers]
    refine (hrest.append_left _).trans ?_
    have hsplit := List.filter_append_perm (fun a => decide (key a = k)) rows
    simpa [group] using hsplit

/-- What is summed group by group is what is summed over the rows. -/
theorem sum_groups [AddCommMonoid M] (hks : ks.Nodup) (hall : ∀ a ∈ rows, key a ∈ ks) (f : α → M) :
    (ks.map fun k => ((group key rows k).map f).sum).sum = (rows.map f).sum := by
  rw [← ((perm_groups hks hall).map f).sum_eq, List.map_flatMap, List.flatMap_def,
    List.sum_flatten, List.map_map]
  rfl

end Groups

end Grouping
