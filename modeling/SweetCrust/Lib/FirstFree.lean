import Mathlib

/-!
# The first candidate that is free

Candidates are tried one after another until one is not taken.

* `firstFree` — the search, among as many candidates as it is given.
* `firstFree_eq_some`, `firstFree_of_le` — what is found is a candidate that is free, and more tries
  find the same.
* `firstFree_isSome` — where the candidates are distinct, one more than are taken suffice.
-/

namespace FirstFree

variable {α : Type}

/-- The first of the next `tries` candidates that is not taken. -/
def firstFree (f : ℕ → α) (taken : α → Bool) : ℕ → ℕ → Option α
  | 0, _ => none
  | tries + 1, i => if taken (f i) then firstFree f taken tries (i + 1) else some (f i)

section Search

variable {f : ℕ → α} {taken : α → Bool} {tries i : ℕ} {a : α} {l : List α}

/-- What is found is a candidate that is free. -/
theorem firstFree_eq_some (h : firstFree f taken tries i = some a) :
    taken a = false ∧ ∃ j, f j = a := by
  induction tries generalizing i with
  | zero => cases h
  | succ tries ih =>
    unfold firstFree at h
    by_cases hi : taken (f i) = true
    · rw [if_pos hi] at h
      exact ih h
    · rw [if_neg hi, Option.some.injEq] at h
      rw [← h]
      exact ⟨by simpa using hi, i, rfl⟩

/-- More tries find the same. -/
theorem firstFree_of_le {more : ℕ} (hle : tries ≤ more) (h : firstFree f taken tries i = some a) :
    firstFree f taken more i = some a := by
  induction tries generalizing i more with
  | zero => cases h
  | succ tries ih =>
    obtain ⟨more, rfl⟩ : ∃ k, more = k + 1 := ⟨more - 1, by omega⟩
    unfold firstFree at h ⊢
    by_cases hi : taken (f i) = true
    · rw [if_pos hi] at h ⊢
      exact ih (by omega) h
    · rw [if_neg hi] at h ⊢
      exact h

/-- Where none is found, all that are tried are taken. -/
theorem taken_of_firstFree_eq_none (h : firstFree f taken tries i = none) {j : ℕ} (hi : i ≤ j)
    (hj : j < i + tries) : taken (f j) = true := by
  induction tries generalizing i with
  | zero => omega
  | succ tries ih =>
    unfold firstFree at h
    by_cases htaken : taken (f i) = true
    · rw [if_pos htaken] at h
      rcases hi.eq_or_lt with rfl | hlt
      · exact htaken
      · exact ih h hlt (by omega)
    · rw [if_neg htaken] at h
      cases h

/-- Of distinct candidates, one more than are taken suffice. -/
theorem firstFree_isSome (hf : Function.Injective f) (hl : ∀ a, taken a = true → a ∈ l) (i : ℕ) :
    (firstFree f taken (l.length + 1) i).isSome := by
  by_contra hnone
  rw [Bool.not_eq_true, Option.isSome_eq_false_iff, Option.isNone_iff_eq_none] at hnone
  -- all candidates would be in the list, and they are too many
  have hsub : (List.range' i (l.length + 1)).map f ⊆ l := by
    intro a ha
    obtain ⟨j, hj, rfl⟩ := List.mem_map.1 ha
    obtain ⟨hlo, hhi⟩ := List.mem_range'_1.1 hj
    exact hl _ (taken_of_firstFree_eq_none hnone hlo hhi)
  have hnodup : ((List.range' i (l.length + 1)).map f).Nodup :=
    List.Nodup.map hf List.nodup_range'
  have hle := (hnodup.subperm hsub).length_le
  rw [List.length_map, List.length_range'] at hle
  omega

end Search

end FirstFree
