import Mathlib

/-!
# Guarded computations

A request handler that validates its input is a sequence of guards and look-ups
followed by a result.  Written in `Except ε`, the handler succeeds exactly when
every guard passes and every look-up finds something; the lemmas below turn an
equation `handler = .ok r` into the conjunction of those facts, so that no proof
has to walk through the branches of a handler again.

* `raiseIf` — `if c: raise e`.
* `orRaise` — a look-up that raises when it finds nothing.
* `bind_eq_ok`, `raiseIf_eq_ok`, `orRaise_eq_ok`, `pure_eq_ok` — the inversion set.
-/

namespace Guard

variable {ε α β : Type}

/-- `if c: raise e`. -/
def raiseIf (c : Prop) [Decidable c] (e : ε) : Except ε Unit :=
  if c then .error e else .ok ()

/-- The value looked up, or the error `e` when there is none. -/
def orRaise (o : Option α) (e : ε) : Except ε α :=
  match o with
  | some a => .ok a
  | none => .error e

/-- A sequence succeeds exactly when each of its steps does. -/
theorem bind_eq_ok {x : Except ε α} {f : α → Except ε β} {b : β} :
    (x >>= f) = .ok b ↔ ∃ a, x = .ok a ∧ f a = .ok b := by
  cases x <;> simp [bind, Except.bind]

theorem pure_eq_ok {a b : α} : (pure a : Except ε α) = .ok b ↔ a = b := by
  simp [pure, Except.pure]

/-- A guard passes exactly when its condition fails. -/
theorem raiseIf_eq_ok {c : Prop} [Decidable c] {e : ε} {u : Unit} :
    raiseIf c e = .ok u ↔ ¬ c := by
  unfold raiseIf
  by_cases h : c <;> simp [h]

theorem orRaise_eq_ok {o : Option α} {e : ε} {a : α} : orRaise o e = .ok a ↔ o = some a := by
  cases o <;> simp [orRaise]

/-- A guard in front of a computation adds its condition. -/
theorem raiseIf_bind_eq_ok {c : Prop} [Decidable c] {e : ε} {f : Unit → Except ε β} {b : β} :
    (raiseIf c e >>= f) = .ok b ↔ ¬ c ∧ f () = .ok b := by
  rw [bind_eq_ok]
  constructor
  · rintro ⟨⟨⟩, hc, hf⟩
    exact ⟨raiseIf_eq_ok.1 hc, hf⟩
  · rintro ⟨hc, hf⟩
    exact ⟨(), raiseIf_eq_ok.2 hc, hf⟩

/-- A look-up in front of a computation adds the row it found. -/
theorem orRaise_bind_eq_ok {o : Option α} {e : ε} {f : α → Except ε β} {b : β} :
    (orRaise o e >>= f) = .ok b ↔ ∃ a, o = some a ∧ f a = .ok b := by
  rw [bind_eq_ok]
  simp [orRaise_eq_ok]

end Guard
