import Mathlib

/-!
# Logs that replay

A log of amounts, each with the balance that was written beside it.  The log replays when
every written balance is the sum of the amounts up to its entry.  A balance is *balanced* by
a log that replays and adds up to it.

* `total`, `Replays`, `Balanced` — the notions.
* `balanced_concat` — one more entry keeps a log balanced exactly when it writes the old
  balance and its own amount.
-/

namespace Replay

variable {M : Type} [AddCommMonoid M]

/-- What the entries of a log add up to. -/
def total (l : List (M × M)) : M := (l.map Prod.fst).sum

/-- Every written balance is the sum of the amounts up to its entry. -/
def Replays (l : List (M × M)) : Prop := ∀ pre x, pre ++ [x] <+: l → x.2 = total pre + x.1

/-- The balance is what the log adds up to, and the log replays. -/
structure Balanced (l : List (M × M)) (balance : M) : Prop where
  balance : balance = total l
  replays : Replays l

@[simp] theorem total_nil : total ([] : List (M × M)) = 0 := rfl

@[simp] theorem total_concat (l : List (M × M)) (x : M × M) : total (l ++ [x]) = total l + x.1 := by
  simp [total]

@[simp] theorem replays_nil : Replays ([] : List (M × M)) := by
  intro pre x h
  simp at h

@[simp] theorem replays_concat (l : List (M × M)) (x : M × M) :
    Replays (l ++ [x]) ↔ Replays l ∧ x.2 = total l + x.1 := by
  constructor
  · intro h
    refine ⟨fun pre y hpre => ?_, h l x (List.prefix_refl _)⟩
    exact h pre y (hpre.trans (List.prefix_append l [x]))
  · rintro ⟨h, hx⟩ pre y hpre
    rcases List.prefix_concat_iff.1 hpre with heq | hpre
    · obtain ⟨rfl, hy⟩ := List.append_inj' heq rfl
      cases hy
      exact hx
    · exact h pre y hpre

theorem balanced_nil : Balanced ([] : List (M × M)) 0 := ⟨rfl, replays_nil⟩

/-- One more entry keeps a log balanced exactly when it writes the old balance and its own
amount. -/
theorem balanced_concat {l : List (M × M)} {b amount after : M} (h : Balanced l b) :
    Balanced (l ++ [(amount, after)]) after ↔ after = b + amount := by
  constructor
  · intro hnext
    rw [h.balance]
    simpa using hnext.balance
  · intro heq
    refine ⟨?_, ?_⟩
    · rw [total_concat, heq, h.balance]
    · rw [replays_concat, heq, h.balance]
      exact ⟨h.replays, rfl⟩

end Replay
