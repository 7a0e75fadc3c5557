import SweetCrust.Lib.Runs

/-!
# What has been so since

A switch is something that may be so of a state, that some calls put on and others put off.  It is
on after a run exactly if a call has put it on and none has put it off since.

* `Since` — a call of the run met `P`, and no call after it met `Q`.
* `Since.holds` — what calls that meet `P` bring about, and all but those that meet `Q` keep.
* `Switch` — what a call does to a switch.
* `Switch.on_iff` — a switch at the end of a run, from the calls of the run alone.
-/

namespace Runs

variable {σ κ : Type} {step : σ → κ → σ}

/-- Some call of the run met `P`, and no call after it met `Q`. -/
def Since (step : σ → κ → σ) (P Q : σ → κ → Prop) (s : σ) (cs : List κ) : Prop :=
  ∃ pre c post, cs = pre ++ c :: post ∧ P (run step s pre) c ∧
    Stepwise step (fun t d => ¬ Q t d) (step (run step s pre) c) post

variable {P Q : σ → κ → Prop} {s : σ} {cs : List κ} {c : κ}

theorem not_since_nil : ¬ Since step P Q s [] := by
  rintro ⟨pre, c, post, h, -⟩
  simp at h

/-- After one call more: the call met `P`, or it did not meet `Q` and it has been so before. -/
theorem since_concat : Since step P Q s (cs ++ [c]) ↔
    P (run step s cs) c ∨ Since step P Q s cs ∧ ¬ Q (run step s cs) c := by
  constructor
  · rintro ⟨pre, d, post, h, hd, hpost⟩
    induction post using List.reverseRecOn with
    | nil =>
      obtain ⟨rfl, hcd⟩ := List.append_inj' h rfl
      cases hcd
      exact .inl hd
    | append_singleton post e =>
      have happend : cs ++ [c] = (pre ++ d :: post) ++ [e] := by simpa using h
      obtain ⟨rfl, hce⟩ := List.append_inj' happend rfl
      cases hce
      obtain ⟨hbefore, hlast⟩ := stepwise_concat.1 hpost
      refine .inr ⟨⟨pre, d, post, rfl, hd, hbefore⟩, ?_⟩
      rw [run_append, run_cons]
      exact hlast
  · rintro (hc | ⟨⟨pre, d, post, rfl, hd, hpost⟩, hc⟩)
    · exact ⟨cs, c, [], rfl, hc, stepwise_nil _ _⟩
    · refine ⟨pre, d, post ++ [c], by simp, hd, stepwise_concat.2 ⟨hpost, ?_⟩⟩
      rw [run_append, run_cons] at hc
      exact hc

/-- What every call that meets `P` brings about, and only calls that meet `Q` undo, is so at the
end. -/
theorem Since.holds {flag : σ → Prop} (h : Since step P Q s cs)
    (hon : ∀ {s c}, P s c → flag (step s c))
    (hstays : ∀ {s c}, flag s → ¬ Q s c → flag (step s c)) : flag (run step s cs) := by
  induction cs using List.reverseRecOn with
  | nil => exact absurd h not_since_nil
  | append_singleton cs c ih =>
    rw [run_concat]
    obtain hc | ⟨hbefore, hc⟩ := since_concat.1 h
    · exact hon hc
    · exact hstays (ih hbefore) hc

/-- What a call does to a switch, in a state with the invariant `I`: it puts it on, or off, or
leaves it as it is. -/
structure Switch (step : σ → κ → σ) (I flag : σ → Prop) (P Q : σ → κ → Prop) : Prop where
  keeps : ∀ s c, I s → I (step s c)
  on : ∀ {s c}, I s → P s c → flag (step s c)
  off : ∀ {s c}, I s → Q s c → ¬ flag (step s c)
  stays : ∀ {s c}, I s → ¬ P s c → ¬ Q s c → (flag (step s c) ↔ flag s)

/-- A switch is on at the end if a call has put it on, or it was on at the start, and no call has
put it off since. -/
theorem Switch.on_iff {I flag : σ → Prop} (h : Switch step I flag P Q) (hs : I s) (cs : List κ) :
    flag (run step s cs) ↔
      Since step P Q s cs ∨ flag s ∧ Stepwise step (fun t d => ¬ Q t d) s cs := by
  induction cs using List.reverseRecOn with
  | nil => simp [not_since_nil, stepwise_nil]
  | append_singleton cs c ih =>
    have hinv : I (run step s cs) := run_induction h.keeps hs cs
    rw [run_concat, since_concat, stepwise_concat]
    by_cases hp : P (run step s cs) c
    · exact iff_of_true (h.on hinv hp) (.inl (.inl hp))
    by_cases hq : Q (run step s cs) c
    · refine iff_of_false (h.off hinv hq) ?_
      rintro ((hp' | ⟨-, hq'⟩) | ⟨-, -, hq'⟩)
      · exact hp hp'
      · exact hq' hq
      · exact hq' hq
    · rw [h.stays hinv hp hq, ih]
      simp [hp, hq]

/-- From a state in which the switch is off. -/
theorem Switch.on_iff_of_off {I flag : σ → Prop} (h : Switch step I flag P Q) (hs : I s)
    (hoff : ¬ flag s) (cs : List κ) : flag (run step s cs) ↔ Since step P Q s cs := by
  rw [h.on_iff hs]
  simp [hoff]

end Runs
