import SweetCrust.Lib.Runs

/-!
# Processes over a shared state

Processes that work on one shared state, each with a local state of its own; a schedule
says whose step is next.  An execution is a `Runs.run` of `advance`.

* `Annotated G A B` — `G` holds of the shared state, `A i` of the shared state and the local
  state of the process `i`, and `B i j` of the local states of two processes.
* `Annotated.advance` — what a step of one process has to show, so that all of it goes on
  to hold: the others' assertions must survive the step.
-/

namespace Processes

open Runs

variable {σ L ι : Type}

/-- A shared state, and the local state of each process. -/
structure Conf (σ L ι : Type) where
  shared : σ
  loc : ι → L

variable [DecidableEq ι] (step : ι → σ → L → σ × L)

/-- The next step of the process `i`. -/
def advance (c : Conf σ L ι) (i : ι) : Conf σ L ι where
  shared := (step i c.shared (c.loc i)).1
  loc := Function.update c.loc i (step i c.shared (c.loc i)).2

variable {step}

@[simp] theorem advance_shared (c : Conf σ L ι) (i : ι) :
    (advance step c i).shared = (step i c.shared (c.loc i)).1 := rfl

@[simp] theorem advance_loc_self (c : Conf σ L ι) (i : ι) :
    (advance step c i).loc i = (step i c.shared (c.loc i)).2 := by
  simp [advance]

theorem advance_loc_of_ne (c : Conf σ L ι) {i j : ι} (h : j ≠ i) :
    (advance step c i).loc j = c.loc j := by
  simp [advance, h]

/-- The assertions about the shared state, about each process, and about each two. -/
structure Annotated (G : σ → Prop) (A : ι → σ → L → Prop) (B : ι → ι → L → L → Prop)
    (c : Conf σ L ι) : Prop where
  shared : G c.shared
  own : ∀ i, A i c.shared (c.loc i)
  pair : ∀ i j, i ≠ j → B i j (c.loc i) (c.loc j)

variable {G : σ → Prop} {A : ι → σ → L → Prop} {B : ι → ι → L → L → Prop} {c : Conf σ L ι}

/-- A step keeps all assertions when it establishes its own, and interferes with no other. -/
theorem Annotated.advance (h : Annotated G A B c) {i : ι} {s : σ} {l : L}
    (hstep : step i c.shared (c.loc i) = (s, l)) (hG : G s) (hA : A i s l)
    (hother : ∀ j, j ≠ i → A j s (c.loc j))
    (hpair : ∀ j, j ≠ i → B i j l (c.loc j) ∧ B j i (c.loc j) l) :
    Annotated G A B (advance step c i) := by
  have hs : (Processes.advance step c i).shared = s := by rw [advance_shared, hstep]
  have hl : (Processes.advance step c i).loc i = l := by rw [advance_loc_self, hstep]
  refine ⟨by rw [hs]; exact hG, fun j => ?_, fun j k hjk => ?_⟩
  · rw [hs]
    by_cases hj : j = i
    · subst hj
      rw [hl]
      exact hA
    · rw [advance_loc_of_ne c hj]
      exact hother j hj
  · by_cases hj : j = i
    · subst hj
      rw [hl, advance_loc_of_ne c hjk.symm]
      exact (hpair k hjk.symm).1
    · rw [advance_loc_of_ne c hj]
      by_cases hk : k = i
      · subst hk
        rw [hl]
        exact (hpair j hj).2
      · rw [advance_loc_of_ne c hk]
        exact h.pair j k hjk

end Processes
