import Mathlib

/-!
# Request handlers over a database session

A request handler works on a session: it reads and changes a private copy of the
database, commits that copy any number of times, and either returns or raises.
Whatever it changed after its last commit is discarded when it raises.

A `Sess ε σ α` is such a handler over database states `σ`: from the state it
starts in it yields the states it committed, in order, and its outcome.  What a
caller, or another process looking at the database between two commits, can see
are exactly the committed states.

* `get`, `modify`, `commit`, `raise`, `raiseIf`, `orRaise` — the primitives.
* `commits`, `final` — the committed states, and the database afterwards.
* one `_bind` law for each primitive, so that `simp` runs a handler symbolically.
* `Quiet`, `CommitsOnly` — a handler that commits nothing, or one state only.
* `Keeps` — every committed state satisfies an invariant, with its rules.
* `Returns` — a handler that leaves nothing uncommitted; what follows it starts from the
  database it left (`Returns.final_bind`, `Returns.outcome_bind`).
* `Raises` — a handler that raises, and what it had committed until then.
* `Reads` — a handler that only reads, with its rules.
-/

namespace Session

/-- A handler: the committed states, in order, and the outcome. -/
def Sess (ε σ α : Type) : Type := σ → List σ × Except ε (α × σ)

variable {ε σ α β : Type}

instance : Monad (Sess ε σ) where
  pure a := fun s => ([], .ok (a, s))
  bind m f := fun s =>
    match m s with
    | (l, .error e) => (l, .error e)
    | (l, .ok (a, t)) => (l ++ (f a t).1, (f a t).2)

/-- The database as the session sees it. -/
def get : Sess ε σ σ := fun s => ([], .ok (s, s))

/-- Change the session's copy. -/
def modify (f : σ → σ) : Sess ε σ Unit := fun s => ([], .ok ((), f s))

/-- Commit the session's copy. -/
def commit : Sess ε σ Unit := fun s => ([s], .ok ((), s))

/-- `raise e`. -/
def raise (e : ε) : Sess ε σ α := fun _ => ([], .error e)

/-- `if c: raise e`. -/
def raiseIf (c : Prop) [Decidable c] (e : ε) : Sess ε σ Unit := if c then raise e else pure ()

/-- The value looked up, or the error `e` when there is none. -/
def orRaise (o : Option α) (e : ε) : Sess ε σ α :=
  match o with
  | some a => pure a
  | none => raise e

/-- Go on with a value, or raise the error it came with. -/
def ofExcept (x : Except ε α) : Sess ε σ α :=
  match x with
  | .ok a => pure a
  | .error e => raise e

/-- The states a handler commits, in order. -/
def commits (m : Sess ε σ α) (s : σ) : List σ := (m s).1

/-- The database after the handler: its last commit, if it made one. -/
def final (m : Sess ε σ α) (s : σ) : σ := (commits m s).getLastD s

/-! ## Running a handler -/

@[simp] theorem pure_run (a : α) (s : σ) : (pure a : Sess ε σ α) s = ([], .ok (a, s)) := rfl

@[simp] theorem raise_run (e : ε) (s : σ) : (raise e : Sess ε σ α) s = ([], .error e) := rfl

theorem bind_run (m : Sess ε σ α) (f : α → Sess ε σ β) (s : σ) :
    (m >>= f) s =
      match m s with
      | (l, .error e) => (l, .error e)
      | (l, .ok (a, t)) => (l ++ (f a t).1, (f a t).2) := rfl

@[simp] theorem pure_bind (a : α) (f : α → Sess ε σ β) (s : σ) : (pure a >>= f) s = f a s := rfl

@[simp] theorem get_bind (f : σ → Sess ε σ β) (s : σ) : (get >>= f) s = f s s := rfl

@[simp] theorem modify_bind (g : σ → σ) (f : Unit → Sess ε σ β) (s : σ) :
    (modify g >>= f) s = f () (g s) := rfl

@[simp] theorem commit_bind (f : Unit → Sess ε σ β) (s : σ) :
    (commit >>= f) s = (s :: (f () s).1, (f () s).2) := rfl

@[simp] theorem raise_bind (e : ε) (f : α → Sess ε σ β) (s : σ) :
    (raise e >>= f) s = ([], .error e) := rfl

theorem raiseIf_bind_of {c : Prop} [Decidable c] (h : c) (e : ε) (f : Unit → Sess ε σ β) (s : σ) :
    (raiseIf c e >>= f) s = ([], .error e) := by
  rw [raiseIf, if_pos h, raise_bind]

theorem raiseIf_bind_of_not {c : Prop} [Decidable c] (h : ¬ c) (e : ε) (f : Unit → Sess ε σ β)
    (s : σ) : (raiseIf c e >>= f) s = f () s := by
  rw [raiseIf, if_neg h, pure_bind]

@[simp] theorem orRaise_some_bind (a : α) (e : ε) (f : α → Sess ε σ β) (s : σ) :
    (orRaise (some a) e >>= f) s = f a s := rfl

@[simp] theorem orRaise_none_bind (e : ε) (f : α → Sess ε σ β) (s : σ) :
    (orRaise none e >>= f) s = ([], .error e) := rfl

@[simp] theorem ofExcept_ok_bind (a : α) (f : α → Sess ε σ β) (s : σ) :
    (ofExcept (.ok a) >>= f) s = f a s := rfl

@[simp] theorem ofExcept_error_bind (e : ε) (f : α → Sess ε σ β) (s : σ) :
    (ofExcept (.error e) >>= f) s = ([], .error e) := rfl

/-! ## What a handler commits -/

/-- The handler commits nothing. -/
def Quiet (m : Sess ε σ α) (s : σ) : Prop := commits m s = []

/-- The handler commits, and each time the state `t`. -/
def CommitsOnly (m : Sess ε σ α) (s t : σ) : Prop :=
  commits m s ≠ [] ∧ ∀ u ∈ commits m s, u = t

theorem Quiet.notMem_commits {m : Sess ε σ α} {s : σ} (h : Quiet m s) (t : σ) :
    t ∉ commits m s := by
  unfold Quiet at h
  rw [h]
  exact List.not_mem_nil

theorem Quiet.final {m : Sess ε σ α} {s : σ} (h : Quiet m s) : final m s = s := by
  unfold Session.final
  rw [h, List.getLastD_nil]

theorem CommitsOnly.final {m : Sess ε σ α} {s t : σ} (h : CommitsOnly m s t) :
    final m s = t := by
  obtain ⟨hne, hall⟩ := h
  unfold Session.final
  rw [List.getLastD_eq_getLast?, List.getLast?_eq_some_getLast hne]
  exact hall _ (List.getLast_mem hne)

/-- The last commit of a handler is one of its commits, or it made none. -/
theorem final_mem_or (m : Sess ε σ α) (s : σ) : final m s ∈ commits m s ∨ final m s = s := by
  by_cases h : commits m s = []
  · exact Or.inr (Quiet.final h)
  · left
    unfold Session.final
    rw [List.getLastD_eq_getLast?, List.getLast?_eq_some_getLast h]
    exact List.getLast_mem h

/-! ## Invariants of committed states -/

/-- Started in a state satisfying `I`, the handler commits only states satisfying
`I`, and hands a copy satisfying `I` on. -/
def Keeps (I : σ → Prop) (m : Sess ε σ α) : Prop :=
  ∀ s, I s → (∀ t ∈ (m s).1, I t) ∧ ∀ a t, (m s).2 = .ok (a, t) → I t

variable {I : σ → Prop}

theorem keeps_pure (a : α) : Keeps I (pure a : Sess ε σ α) := by
  intro s hs
  refine ⟨by simp, ?_⟩
  rintro b t h
  cases h
  exact hs

theorem keeps_raise (e : ε) : Keeps I (raise e : Sess ε σ α) := by
  intro s _
  exact ⟨by simp, by simp⟩

theorem keeps_get_bind {f : σ → Sess ε σ β} (h : ∀ t, Keeps I (f t)) : Keeps I (get >>= f) :=
  fun s hs => h s s hs

theorem keeps_commit : Keeps I (commit : Sess ε σ Unit) := by
  intro s hs
  refine ⟨by simpa [commit] using hs, ?_⟩
  rintro a t h
  cases h
  exact hs

theorem keeps_modify {g : σ → σ} (h : ∀ s, I s → I (g s)) :
    Keeps I (modify g : Sess ε σ Unit) := by
  intro s hs
  refine ⟨by simp [modify], ?_⟩
  rintro a t ht
  cases ht
  exact h s hs

theorem Keeps.bind {m : Sess ε σ α} {f : α → Sess ε σ β} (hm : Keeps I m)
    (hf : ∀ a, Keeps I (f a)) : Keeps I (m >>= f) := by
  intro s hs
  obtain ⟨hc, hr⟩ := hm s hs
  rw [bind_run]
  cases hms : m s with
  | mk l r =>
    rw [hms] at hc hr
    cases r with
    | error e => exact ⟨hc, by simp⟩
    | ok p =>
      obtain ⟨a, t⟩ := p
      obtain ⟨hc', hr'⟩ := hf a t (hr a t rfl)
      refine ⟨?_, hr'⟩
      intro u hu
      rcases List.mem_append.1 hu with h | h
      · exact hc u h
      · exact hc' u h

theorem keeps_raiseIf (c : Prop) [Decidable c] (e : ε) :
    Keeps I (raiseIf c e : Sess ε σ Unit) := by
  unfold raiseIf
  split_ifs
  · exact keeps_raise e
  · exact keeps_pure ()

theorem keeps_orRaise (o : Option α) (e : ε) : Keeps I (orRaise o e : Sess ε σ α) := by
  cases o with
  | none => exact keeps_raise e
  | some a => exact keeps_pure a

theorem keeps_ofExcept (x : Except ε α) : Keeps I (ofExcept x : Sess ε σ α) := by
  cases x with
  | error e => exact keeps_raise e
  | ok a => exact keeps_pure a

/-- The database after a handler that keeps an invariant satisfies it. -/
theorem Keeps.final {m : Sess ε σ α} (hm : Keeps I m) {s : σ} (hs : I s) : I (final m s) := by
  rcases final_mem_or m s with h | h
  · exact (hm s hs).1 _ h
  · rw [h]
    exact hs

/-! ## Handlers in sequence -/

variable {m : Sess ε σ α} {f : α → Sess ε σ β} {s t u : σ} {a : α} {b : β}

/-- A sequence goes on where its first handler left off. -/
theorem bind_run_of_ok (h : (m s).2 = .ok (a, t)) :
    (m >>= f) s = (commits m s ++ (f a t).1, (f a t).2) := by
  rw [bind_run]
  cases hm : m s with
  | mk l r =>
    rw [hm] at h
    cases h
    simp only [commits, hm]

/-- A sequence stops with the error of its first handler. -/
theorem bind_run_of_error {e : ε} (h : (m s).2 = .error e) :
    (m >>= f) s = (commits m s, .error e) := by
  rw [bind_run]
  cases hm : m s with
  | mk l r =>
    rw [hm] at h
    cases h
    simp only [commits, hm]

/-- A sequence returns when both its handlers do. -/
theorem bind_outcome_eq_ok {v : σ} :
    ((m >>= f) s).2 = .ok (b, v) ↔ ∃ a t, (m s).2 = .ok (a, t) ∧ (f a t).2 = .ok (b, v) := by
  cases h : (m s).2 with
  | error e => simp [bind_run_of_error h]
  | ok p =>
    obtain ⟨a, t⟩ := p
    rw [bind_run_of_ok h]
    simp

/-- From `s` the handler returns `a`, and leaves the database, like its own copy, at `t`. -/
structure Returns (m : Sess ε σ α) (s : σ) (a : α) (t : σ) : Prop where
  outcome : (m s).2 = .ok (a, t)
  final : final m s = t

theorem returns_pure (a : α) (s : σ) : Returns (pure a : Sess ε σ α) s a s := ⟨rfl, rfl⟩

theorem returns_get (s : σ) : Returns (get : Sess ε σ σ) s s s := ⟨rfl, rfl⟩

/-- From `s` the handler raises, and leaves the database at `t`. -/
structure Raises (m : Sess ε σ α) (s t : σ) : Prop where
  outcome : ∃ e, (m s).2 = .error e
  final : final m s = t

theorem raises_raise (e : ε) (s : σ) : Raises (raise e : Sess ε σ α) s s := ⟨⟨e, rfl⟩, rfl⟩

theorem Returns.outcome_bind (h : Returns m s a t) : ((m >>= f) s).2 = (f a t).2 := by
  rw [bind_run_of_ok h.outcome]

theorem Returns.final_bind (h : Returns m s a t) :
    Session.final (m >>= f) s = Session.final (f a) t := by
  have hleft : (commits m s).getLastD s = t := h.final
  unfold Session.final commits at *
  rw [bind_run_of_ok h.outcome]
  cases hf : (f a t).1.getLast? with
  | none =>
    rw [List.getLast?_eq_none_iff] at hf
    rw [hf, List.append_nil, List.getLastD_nil]
    exact hleft
  | some v => rw [List.getLastD_eq_getLast?, List.getLastD_eq_getLast?, List.getLast?_append, hf]; rfl

theorem Returns.bind (h : Returns m s a t) (hf : Returns (f a) t b u) : Returns (m >>= f) s b u :=
  ⟨h.outcome_bind.trans hf.outcome, h.final_bind.trans hf.final⟩

theorem Returns.bind_raises (h : Returns m s a t) (hf : Raises (f a) t u) : Raises (m >>= f) s u :=
  ⟨h.outcome_bind ▸ hf.outcome, h.final_bind.trans hf.final⟩

/-- What raises does not return. -/
theorem Raises.not_ok (h : Raises m s t) : ¬ ∃ r, (m s).2 = .ok r := by
  rintro ⟨r, hr⟩
  obtain ⟨e, he⟩ := h.outcome
  rw [hr] at he
  cases he

/-- What raises, raises in front of anything. -/
theorem Raises.bind (h : Raises m s t) (f : α → Sess ε σ β) : Raises (m >>= f) s t := by
  obtain ⟨⟨e, he⟩, hfinal⟩ := h
  have hrun : (m >>= f) s = (commits m s, .error e) := bind_run_of_error he
  refine ⟨⟨e, congrArg Prod.snd hrun⟩, ?_⟩
  rw [← hfinal]
  unfold Session.final
  rw [show commits (m >>= f) s = _ from congrArg Prod.fst hrun]

/-- A change and its commit, in front of a handler that raises. -/
theorem Raises.modify_commit {g : σ → σ} {m : Sess ε σ β} (h : Raises m (g s) u) :
    Raises (modify g >>= fun _ => commit >>= fun _ => m) s u where
  outcome := h.outcome
  final := by
    show (g s :: commits m (g s)).getLastD s = u
    rw [List.getLastD_cons]
    exact h.final

/-- A change and its commit, in front of a handler. -/
theorem Returns.modify_commit {g : σ → σ} {m : Sess ε σ β} (h : Returns m (g s) b u) :
    Returns (modify g >>= fun _ => commit >>= fun _ => m) s b u where
  outcome := h.outcome
  final := by
    show (g s :: commits m (g s)).getLastD s = u
    rw [List.getLastD_cons]
    exact h.final

theorem Returns.get_bind {f : σ → Sess ε σ β} (h : Returns (f s) s b u) :
    Returns (get >>= f) s b u := ⟨h.outcome, h.final⟩

theorem Raises.get_bind {f : σ → Sess ε σ β} (h : Raises (f s) s u) : Raises (get >>= f) s u :=
  ⟨h.outcome, h.final⟩

theorem Returns.orRaise_bind {o : Option α} (ho : o = some a) {e : ε} (h : Returns (f a) s b u) :
    Returns (orRaise o e >>= f) s b u := by
  subst ho
  exact ⟨h.outcome, h.final⟩

theorem raises_orRaise_bind {o : Option α} (ho : o = none) (e : ε) (f : α → Sess ε σ β) (s : σ) :
    Raises (orRaise o e >>= f) s s := by
  subst ho
  exact ⟨⟨e, rfl⟩, rfl⟩

theorem Raises.orRaise_bind {o : Option α} (ho : o = some a) {e : ε} (h : Raises (f a) s u) :
    Raises (orRaise o e >>= f) s u := by
  subst ho
  exact ⟨h.outcome, h.final⟩

theorem Returns.raiseIf_bind {c : Prop} [Decidable c] (hc : ¬ c) {e : ε} {f : Unit → Sess ε σ β}
    (h : Returns (f ()) s b u) : Returns (raiseIf c e >>= f) s b u := by
  unfold raiseIf
  rw [if_neg hc]
  exact ⟨h.outcome, h.final⟩

theorem raises_raiseIf_bind {c : Prop} [Decidable c] (hc : c) (e : ε) (f : Unit → Sess ε σ β)
    (s : σ) : Raises (raiseIf c e >>= f) s s := by
  unfold raiseIf
  rw [if_pos hc]
  exact ⟨⟨e, rfl⟩, rfl⟩

theorem Raises.raiseIf_bind {c : Prop} [Decidable c] (hc : ¬ c) {e : ε} {f : Unit → Sess ε σ β}
    (h : Raises (f ()) s u) : Raises (raiseIf c e >>= f) s u := by
  unfold raiseIf
  rw [if_neg hc]
  exact ⟨h.outcome, h.final⟩

theorem Returns.ofExcept_bind {x : Except ε α} (hx : x = .ok a) (h : Returns (f a) s b u) :
    Returns (ofExcept x >>= f) s b u := by
  subst hx
  exact ⟨h.outcome, h.final⟩

theorem Raises.ofExcept_bind {x : Except ε α} (hx : x = .ok a) (h : Raises (f a) s u) :
    Raises (ofExcept x >>= f) s u := by
  subst hx
  exact ⟨h.outcome, h.final⟩

theorem raises_ofExcept_bind {x : Except ε α} {e : ε} (hx : x = .error e)
    (f : α → Sess ε σ β) (s : σ) : Raises (ofExcept x >>= f) s s := by
  subst hx
  exact ⟨⟨e, rfl⟩, rfl⟩

/-- From `s` the handler only reads. -/
structure Reads (m : Sess ε σ α) (s : σ) : Prop where
  quiet : Quiet m s
  same : ∀ a t, (m s).2 = .ok (a, t) → t = s

theorem reads_pure (a : α) (s : σ) : Reads (pure a : Sess ε σ α) s :=
  ⟨rfl, by rintro b t ⟨⟩; rfl⟩

theorem reads_get (s : σ) : Reads (get : Sess ε σ σ) s :=
  ⟨rfl, by rintro a t ⟨⟩; rfl⟩

theorem reads_raise (e : ε) (s : σ) : Reads (raise e : Sess ε σ α) s :=
  ⟨rfl, by rintro a t ⟨⟩⟩

theorem reads_raiseIf (c : Prop) [Decidable c] (e : ε) (s : σ) :
    Reads (raiseIf c e : Sess ε σ Unit) s := by
  unfold raiseIf
  split_ifs
  · exact reads_raise e s
  · exact reads_pure () s

theorem reads_orRaise (o : Option α) (e : ε) (s : σ) : Reads (orRaise o e : Sess ε σ α) s := by
  cases o with
  | none => exact reads_raise e s
  | some a => exact reads_pure a s

theorem reads_ofExcept (x : Except ε α) (s : σ) : Reads (ofExcept x : Sess ε σ α) s := by
  cases x with
  | error e => exact reads_raise e s
  | ok a => exact reads_pure a s

/-- A handler that returns where it started only reads. -/
theorem Reads.bind (hm : Reads m s) (hf : ∀ a, Reads (f a) s) : Reads (m >>= f) s := by
  cases h : (m s).2 with
  | error e =>
    have hrun := bind_run_of_error (f := f) h
    refine ⟨?_, ?_⟩
    · show ((m >>= f) s).1 = []
      rw [hrun]
      exact hm.quiet
    · rw [hrun]
      rintro b t ⟨⟩
  | ok p =>
    obtain ⟨a, t⟩ := p
    obtain rfl := hm.same a t h
    have hrun := bind_run_of_ok (f := f) h
    refine ⟨?_, ?_⟩
    · show ((m >>= f) t).1 = []
      rw [hrun]
      show commits m t ++ commits (f a) t = []
      rw [show commits m t = [] from hm.quiet, show commits (f a) t = [] from (hf a).quiet]
      rfl
    · rw [hrun]
      exact (hf a).same

/-- What only reads leaves the database as it is. -/
theorem Reads.final (h : Reads m s) : Session.final m s = s := Quiet.final h.quiet

/-- A sequence that ends by reading leaves what its first handler left. -/
theorem final_bind_of_reads (hf : ∀ a t, Reads (f a) t) (s : σ) :
    Session.final (m >>= f) s = Session.final m s := by
  have hcommits : commits (m >>= f) s = commits m s := by
    cases h : (m s).2 with
    | error e => exact congrArg Prod.fst (bind_run_of_error h)
    | ok p =>
      obtain ⟨a, t⟩ := p
      have hquiet : (f a t).1 = [] := (hf a t).quiet
      have hrun := congrArg Prod.fst (bind_run_of_ok (f := f) h)
      rw [hquiet, List.append_nil] at hrun
      exact hrun
  unfold Session.final
  rw [hcommits]

@[simp] theorem final_get_bind (f : σ → Sess ε σ β) (s : σ) :
    Session.final (get >>= f) s = Session.final (f s) s := rfl

@[simp] theorem final_raiseIf_bind (c : Prop) [Decidable c] (e : ε) (f : Unit → Sess ε σ β)
    (s : σ) : Session.final (raiseIf c e >>= f) s = if c then s else Session.final (f ()) s := by
  by_cases h : c
  · rw [if_pos h]
    exact Quiet.final (congrArg Prod.fst (raiseIf_bind_of h e f s))
  · rw [if_neg h]
    unfold Session.final commits
    rw [raiseIf_bind_of_not h]

@[simp] theorem final_orRaise_some_bind (a : α) (e : ε) (f : α → Sess ε σ β) (s : σ) :
    Session.final (orRaise (some a) e >>= f) s = Session.final (f a) s := rfl

@[simp] theorem final_orRaise_none_bind (e : ε) (f : α → Sess ε σ β) (s : σ) :
    Session.final (orRaise none e >>= f) s = s := rfl

@[simp] theorem final_ofExcept_ok_bind (a : α) (f : α → Sess ε σ β) (s : σ) :
    Session.final (ofExcept (.ok a) >>= f) s = Session.final (f a) s := rfl

@[simp] theorem final_ofExcept_error_bind (e : ε) (f : α → Sess ε σ β) (s : σ) :
    Session.final (ofExcept (.error e) >>= f) s = s := rfl

/-- What is committed after a handler is the last commit of the sequence. -/
theorem final_bind_of_outcome (h : (m s).2 = .ok (a, t)) (hcommits : commits (f a) t ≠ []) :
    Session.final (m >>= f) s = Session.final (f a) t := by
  obtain ⟨l, v, hlv⟩ := List.eq_nil_or_concat (commits (f a) t) |>.resolve_left hcommits
  have hrun : commits (m >>= f) s = commits m s ++ commits (f a) t :=
    congrArg Prod.fst (bind_run_of_ok h)
  unfold Session.final
  rw [hrun, hlv, List.concat_eq_append, List.getLastD_concat, ← List.append_assoc,
    List.getLastD_concat]

/-- A change and its commit leave what the rest leaves. -/
theorem final_modify_commit_bind (g : σ → σ) (m : Sess ε σ β) (s : σ) :
    Session.final (modify g >>= fun _ => commit >>= fun _ => m) s = Session.final m (g s) :=
  List.getLastD_cons

@[simp] theorem outcome_get_bind (f : σ → Sess ε σ β) (s : σ) :
    ((get >>= f) s).2 = (f s s).2 := rfl

/-- A guard in front of a handler adds its condition. -/
theorem outcome_raiseIf_bind {c : Prop} [Decidable c] {e : ε} {f : Unit → Sess ε σ β} {r : β × σ} :
    ((raiseIf c e >>= f) s).2 = .ok r ↔ ¬ c ∧ (f () s).2 = .ok r := by
  by_cases h : c
  · simp [raiseIf_bind_of h, h]
  · simp [raiseIf_bind_of_not h, h]

/-- A look-up in front of a handler adds the row it found. -/
theorem outcome_orRaise_bind {o : Option α} {e : ε} {f : α → Sess ε σ β} {r : β × σ} :
    ((orRaise o e >>= f) s).2 = .ok r ↔ ∃ a, o = some a ∧ (f a s).2 = .ok r := by
  cases o with
  | none => simp
  | some a => simp

end Session
