import SweetCrust.Lib.Session

/-!
# Two runs of a handler

A handler, or two handlers of one shape, run in two databases.  The runs are paired if both raise
one error or neither does, and the databases that they commit are related, one by one.  There is a
rule for each way to go on.

* `Paired` — the runs, with what relates the databases that are committed and those that are left.
* `Paired.bind` — what follows is run in the databases that are left.
* `Paired.final`, `Paired.answer` — what the runs come to.
-/

namespace Session

variable {ε σ α β : Type} {R : σ → σ → Prop} {Q : α → α → σ → σ → Prop}
  {P : β → β → σ → σ → Prop} {m m' : Sess ε σ α} {f f' : α → Sess ε σ β} {s s' : σ}

/-- Two outcomes: one error, or values and databases that are related. -/
inductive EndAlike (Q : α → α → σ → σ → Prop) : Except ε (α × σ) → Except ε (α × σ) → Prop
  | error (e : ε) : EndAlike Q (.error e) (.error e)
  | ok {a a' : α} {t t' : σ} (h : Q a a' t t') : EndAlike Q (.ok (a, t)) (.ok (a', t'))

/-- The handlers commit databases that are related, and end alike. -/
structure Paired (R : σ → σ → Prop) (Q : α → α → σ → σ → Prop) (m m' : Sess ε σ α) (s s' : σ) :
    Prop where
  commits : List.Forall₂ R (commits m s) (commits m' s')
  outcome : EndAlike Q (m s).2 (m' s').2

theorem paired_pure {a a' : α} (h : Q a a' s s') :
    Paired R Q (pure a : Sess ε σ α) (pure a') s s' :=
  ⟨.nil, .ok h⟩

theorem paired_raise (e : ε) : Paired R Q (raise e : Sess ε σ α) (raise e) s s' := ⟨.nil, .error e⟩

theorem Paired.bind (hm : Paired R Q m m' s s')
    (hf : ∀ a a' t t', Q a a' t t' → Paired R P (f a) (f' a') t t') :
    Paired R P (m >>= f) (m' >>= f') s s' := by
  obtain ⟨hcommits, houtcome⟩ := hm
  unfold Session.commits at hcommits
  have hbind (m : Sess ε σ α) (f : α → Sess ε σ β) (s : σ) := bind_run m f s
  generalize hx : m s = x at hcommits houtcome
  generalize hx' : m' s' = x' at hcommits houtcome
  obtain ⟨l, r⟩ := x
  obtain ⟨l', r'⟩ := x'
  cases houtcome with
  | error e =>
    constructor
    · unfold Session.commits
      rw [hbind, hbind, hx, hx']
      exact hcommits
    · rw [hbind, hbind, hx, hx']
      exact .error e
  | ok ha =>
    obtain ⟨hnext, hend⟩ := hf _ _ _ _ ha
    constructor
    · unfold Session.commits at hnext ⊢
      rw [hbind, hbind, hx, hx']
      exact List.rel_append hcommits hnext
    · rw [hbind, hbind, hx, hx']
      exact hend

theorem Paired.get_bind {f f' : σ → Sess ε σ β} (h : Paired R P (f s) (f' s') s s') :
    Paired R P (get >>= f) (get >>= f') s s' := ⟨h.commits, h.outcome⟩

theorem Paired.modify_bind {g g' : σ → σ} {f f' : Unit → Sess ε σ β}
    (h : Paired R P (f ()) (f' ()) (g s) (g' s')) :
    Paired R P (modify g >>= f) (modify g' >>= f') s s' := ⟨h.commits, h.outcome⟩

theorem Paired.commit_bind {f f' : Unit → Sess ε σ β} (hR : R s s')
    (h : Paired R P (f ()) (f' ()) s s') : Paired R P (commit >>= f) (commit >>= f') s s' :=
  ⟨.cons hR h.commits, h.outcome⟩

/-- What is looked up is the same, or is nowhere. -/
theorem Paired.orRaise_bind {o o' : Option α} {e : ε} (ho : o = o')
    (h : ∀ a, o = some a → Paired R P (f a) (f' a) s s') :
    Paired R P (orRaise o e >>= f) (orRaise o' e >>= f') s s' := by
  subst ho
  cases o with
  | none => exact paired_raise e
  | some a => exact h a rfl

theorem Paired.ofExcept_bind {x x' : Except ε α} (hx : x = x')
    (h : ∀ a, x = .ok a → Paired R P (f a) (f' a) s s') :
    Paired R P (ofExcept x >>= f) (ofExcept x' >>= f') s s' := by
  subst hx
  cases x with
  | error e => exact paired_raise e
  | ok a => exact h a rfl

/-- The two runs answer the same, if their values are. -/
theorem Paired.answer (h : Paired R Q m m' s s') (hQ : ∀ a a' t t', Q a a' t t' → a = a') :
    (m s).2.map Prod.fst = (m' s').2.map Prod.fst := by
  have houtcome := h.outcome
  revert houtcome
  generalize (m s).2 = x, (m' s').2 = x'
  rintro (e | ha)
  · rfl
  · exact congrArg Except.ok (hQ _ _ _ _ ha)

/-- They leave databases that are related. -/
theorem Paired.final (h : Paired R Q m m' s s') (hR : R s s') :
    R (final m s) (final m' s') := by
  have hlast : ∀ {l l' : List σ} {t t' : σ}, List.Forall₂ R l l' → R t t' →
      R (l.getLastD t) (l'.getLastD t') := by
    intro l l' t t' hl
    induction hl generalizing t t' with
    | nil => exact id
    | cons ha _ ih =>
      intro _
      rw [List.getLastD_cons, List.getLastD_cons]
      exact ih ha
  exact hlast h.commits hR

end Session
