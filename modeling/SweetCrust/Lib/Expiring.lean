import Mathlib

/-!
# Key–value stores whose entries expire

An entry has a value and a deadline, and is there until the deadline.  Nothing sweeps the
store: an entry that has expired is not found any more.

* `get?`, `set`, `delete` — the operations.
* `get?_eq_some` — an entry is found exactly before its deadline.
* `get?_anti` — what is found later was found before.
-/

/-- Values under keys, each with its deadline. -/
def Expiring (κ ν τ : Type) : Type := κ → Option (ν × τ)

namespace Expiring

variable {κ ν τ : Type}

def empty : Expiring κ ν τ := fun _ => none

/-- The value under a key at a time. -/
def get? [LT τ] [DecidableLT τ] (s : Expiring κ ν τ) (now : τ) (k : κ) : Option ν :=
  match s k with
  | some (v, deadline) => if now < deadline then some v else none
  | none => none

def set [DecidableEq κ] (s : Expiring κ ν τ) (k : κ) (v : ν) (deadline : τ) : Expiring κ ν τ :=
  Function.update s k (some (v, deadline))

def delete [DecidableEq κ] (s : Expiring κ ν τ) (k : κ) : Expiring κ ν τ :=
  Function.update s k none

@[simp] theorem empty_apply (k : κ) : (empty : Expiring κ ν τ) k = none := rfl

section Updates

variable [DecidableEq κ] (s : Expiring κ ν τ) {j k : κ} (v : ν) (d : τ)

@[simp] theorem set_self (k : κ) : s.set k v d k = some (v, d) := Function.update_self ..

theorem set_of_ne (h : j ≠ k) : s.set k v d j = s j := Function.update_of_ne h ..

@[simp] theorem delete_self (k : κ) : s.delete k k = none := Function.update_self ..

theorem delete_of_ne (h : j ≠ k) : s.delete k j = s j := Function.update_of_ne h ..

end Updates

section Lookups

variable [LT τ] [DecidableLT τ] {s : Expiring κ ν τ} {now : τ} {k : κ} {v : ν}

theorem get?_eq_some : s.get? now k = some v ↔ ∃ d, s k = some (v, d) ∧ now < d := by
  unfold get?
  cases h : s k with
  | none => simp
  | some e =>
    obtain ⟨w, d⟩ := e
    by_cases hd : now < d
    · simp [hd]
    · simp [hd]

theorem get?_of_none (h : s k = none) : s.get? now k = none := by
  unfold get?
  rw [h]

end Lookups

section Orders

variable [LinearOrder τ] {s : Expiring κ ν τ} {now later : τ} {k : κ} {v : ν}

/-- An entry whose deadline has passed is not found. -/
theorem get?_eq_none (h : ∀ w d, s k = some (w, d) → d ≤ now) : s.get? now k = none := by
  by_contra hne
  obtain ⟨w, hw⟩ := Option.ne_none_iff_exists'.1 hne
  obtain ⟨d, hd, hlt⟩ := get?_eq_some.1 hw
  exact absurd (h w d hd) (not_le.2 hlt)

/-- What is found later was found before. -/
theorem get?_anti (hle : now ≤ later) (h : s.get? later k = some v) : s.get? now k = some v := by
  obtain ⟨d, hd, hlt⟩ := get?_eq_some.1 h
  exact get?_eq_some.2 ⟨d, hd, hle.trans_lt hlt⟩

end Orders

end Expiring
