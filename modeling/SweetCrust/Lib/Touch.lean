import SweetCrust.Lib.Runs

/-!
# Properties that the last of certain calls decides

A property `R` of the state may be decided anew by some calls, the ones that *touch* it, and
left alone by all others.  After a run it holds exactly when the last call that touched it
got it right.

* `LastTouch` — the condition on the last call of a run that touches the property.
* `run_iff_lastTouch` — the rule.
-/

namespace Runs

variable {σ κ : Type} (step : σ → κ → σ) (Touch Ok : σ → κ → Prop)

/-- If some call of the run touches the property, the last one that does meets `Ok`. -/
def LastTouch (s : σ) (cs : List κ) : Prop :=
  ∀ pre c post, cs = pre ++ c :: post → Touch (run step s pre) c →
    Stepwise step (fun t d => ¬ Touch t d) (run step s (pre ++ [c])) post →
      Ok (run step s pre) c

variable {step Touch Ok}

theorem lastTouch_nil (s : σ) : LastTouch step Touch Ok s [] := by
  intro pre c post h
  simp at h

/-- A call that touches the property is the last one to do so. -/
theorem lastTouch_concat_of_touch {s : σ} {cs : List κ} {c : κ} (h : Touch (run step s cs) c) :
    LastTouch step Touch Ok s (cs ++ [c]) ↔ Ok (run step s cs) c := by
  constructor
  · intro hlast
    exact hlast cs c [] rfl h (stepwise_nil _ _)
  · intro hok pre d post heq htouch hrest
    rcases List.eq_nil_or_concat post with rfl | ⟨post', e, rfl⟩
    · obtain ⟨rfl, hd⟩ := List.append_inj' heq rfl
      cases hd
      exact hok
    · rw [List.concat_eq_append, ← List.cons_append, ← List.append_assoc] at heq
      obtain ⟨rfl, he⟩ := List.append_inj' heq rfl
      cases he
      rw [List.concat_eq_append, stepwise_concat, ← run_append] at hrest
      refine absurd ?_ hrest.2
      rw [List.append_assoc, List.singleton_append]
      exact h

/-- A call that does not touch the property leaves the last one that did. -/
theorem lastTouch_concat_of_not_touch {s : σ} {cs : List κ} {c : κ}
    (h : ¬ Touch (run step s cs) c) :
    LastTouch step Touch Ok s (cs ++ [c]) ↔ LastTouch step Touch Ok s cs := by
  constructor
  · intro hlast pre d post heq htouch hrest
    refine hlast pre d (post ++ [c]) (by rw [heq]; simp) htouch ?_
    rw [stepwise_concat, ← run_append]
    refine ⟨hrest, ?_⟩
    rw [List.append_assoc, List.singleton_append, ← heq]
    exact h
  · intro hlast pre d post heq htouch hrest
    rcases List.eq_nil_or_concat post with rfl | ⟨post', e, rfl⟩
    · obtain ⟨rfl, hd⟩ := List.append_inj' heq rfl
      cases hd
      exact absurd htouch h
    · rw [List.concat_eq_append, ← List.cons_append, ← List.append_assoc] at heq
      obtain ⟨rfl, he⟩ := List.append_inj' heq rfl
      rw [List.concat_eq_append, stepwise_concat] at hrest
      exact hlast pre d post' rfl htouch hrest.1

/-- When the calls that touch `R` make it hold exactly if they meet `Ok`, and the others leave
it alone, then `R` holds after a run exactly if the last call that touched it met `Ok`. -/
theorem run_iff_lastTouch {R : σ → Prop} (hskip : ∀ s c, ¬ Touch s c → (R (step s c) ↔ R s))
    (htouch : ∀ s c, Touch s c → (R (step s c) ↔ Ok s c)) {s : σ} (h0 : R s) (cs : List κ) :
    R (run step s cs) ↔ LastTouch step Touch Ok s cs := by
  induction cs using List.reverseRecOn with
  | nil => exact iff_of_true h0 (lastTouch_nil s)
  | append_singleton cs c ih =>
    rw [run_concat]
    by_cases h : Touch (run step s cs) c
    · rw [htouch _ _ h, lastTouch_concat_of_touch h]
    · rw [hskip _ _ h, lastTouch_concat_of_not_touch h, ih]

end Runs
