import Mathlib

/-!
# Requests over a database and a cache

A request works on a copy of the database and commits it any number of times; beside it, it
writes to a cache at once.  When it raises, the changes it has not committed are discarded, and
what it did to the cache stays.

* `get`, `modify`, `commit`, `getCache`, `modifyCache`, `raise`, `raiseIf`, `orRaise` — the
  primitives.
* `request` — what is left of the database and the cache, and the outcome.
* `bind_ok_iff` — a sequence returns when both its parts do.
* `Keeps` — a part of a request that leaves an observation of its copy alone.
* `Frames`, `Seals` — one that leaves an observation of the database and the cache alone, and one
  that has committed it when it returns; with their rules.
-/

namespace Transaction

/-- The copy that a request works on, what is committed, and the cache. -/
structure World (δ κ : Type) where
  work : δ
  saved : δ
  cache : κ

/-- A request, or a part of one. -/
def Tx (ε δ κ α : Type) : Type := World δ κ → Except ε α × World δ κ

variable {ε δ κ γ α β : Type}

instance : Monad (Tx ε δ κ) where
  pure a := fun w => (.ok a, w)
  bind m f := fun w =>
    match m w with
    | (.error e, v) => (.error e, v)
    | (.ok a, v) => f a v

/-- The copy of the database. -/
def get : Tx ε δ κ δ := fun w => (.ok w.work, w)

def modify (f : δ → δ) : Tx ε δ κ Unit := fun w => (.ok (), { w with work := f w.work })

def commit : Tx ε δ κ Unit := fun w => (.ok (), { w with saved := w.work })

def getCache : Tx ε δ κ κ := fun w => (.ok w.cache, w)

def modifyCache (f : κ → κ) : Tx ε δ κ Unit := fun w => (.ok (), { w with cache := f w.cache })

/-- `raise e`. -/
def raise (e : ε) : Tx ε δ κ α := fun w => (.error e, w)

/-- `if c: raise e`. -/
def raiseIf (c : Prop) [Decidable c] (e : ε) : Tx ε δ κ Unit := if c then raise e else pure ()

/-- The value looked up, or the error `e` when there is none. -/
def orRaise (o : Option α) (e : ε) : Tx ε δ κ α :=
  match o with
  | some a => pure a
  | none => raise e

/-- A request begins with a fresh copy, and what it has not committed in the end is discarded. -/
def request (m : Tx ε δ κ α) (db : δ) (cache : κ) : Except ε α × δ × κ :=
  let r := m { work := db, saved := db, cache }
  (r.1, r.2.saved, r.2.cache)

/-! ## Running -/

section Running

variable {m : Tx ε δ κ α} {f : α → Tx ε δ κ β} {w v : World δ κ} {a : α} {e : ε}

@[simp] theorem pure_run (a : α) (w : World δ κ) : (pure a : Tx ε δ κ α) w = (.ok a, w) := rfl

@[simp] theorem raise_run (e : ε) (w : World δ κ) : (raise e : Tx ε δ κ α) w = (.error e, w) := rfl

theorem bind_run_of_ok (h : m w = (.ok a, v)) : (m >>= f) w = f a v := by
  show (match m w with
    | (.error e, v) => (.error e, v)
    | (.ok a, v) => f a v) = f a v
  rw [h]

theorem bind_run_of_error (h : m w = (.error e, v)) : (m >>= f) w = (.error e, v) := by
  show (match m w with
    | (.error e, v) => (.error e, v)
    | (.ok a, v) => f a v) = (.error e, v)
  rw [h]

@[simp] theorem pure_bind (a : α) (f : α → Tx ε δ κ β) (w : World δ κ) :
    (pure a >>= f) w = f a w := rfl

@[simp] theorem get_bind (f : δ → Tx ε δ κ β) (w : World δ κ) : (get >>= f) w = f w.work w := rfl

@[simp] theorem modify_bind (g : δ → δ) (f : Unit → Tx ε δ κ β) (w : World δ κ) :
    (modify g >>= f) w = f () { w with work := g w.work } := rfl

@[simp] theorem commit_bind (f : Unit → Tx ε δ κ β) (w : World δ κ) :
    (commit >>= f) w = f () { w with saved := w.work } := rfl

@[simp] theorem getCache_bind (f : κ → Tx ε δ κ β) (w : World δ κ) :
    (getCache >>= f) w = f w.cache w := rfl

@[simp] theorem modifyCache_bind (g : κ → κ) (f : Unit → Tx ε δ κ β) (w : World δ κ) :
    (modifyCache g >>= f) w = f () { w with cache := g w.cache } := rfl

@[simp] theorem raise_bind (e : ε) (f : α → Tx ε δ κ β) (w : World δ κ) :
    (raise e >>= f) w = (.error e, w) := rfl

@[simp] theorem raiseIf_bind (c : Prop) [Decidable c] (e : ε) (f : Unit → Tx ε δ κ β)
    (w : World δ κ) : (raiseIf c e >>= f) w = if c then (.error e, w) else f () w := by
  unfold raiseIf
  split_ifs <;> rfl

@[simp] theorem orRaise_some_bind (a : α) (e : ε) (f : α → Tx ε δ κ β) (w : World δ κ) :
    (orRaise (some a) e >>= f) w = f a w := rfl

@[simp] theorem orRaise_none_bind (e : ε) (f : α → Tx ε δ κ β) (w : World δ κ) :
    (orRaise none e >>= f) w = (.error e, w) := rfl

theorem bind_assoc_run {η : Type} (m : Tx ε δ κ α) (f : α → Tx ε δ κ β) (g : β → Tx ε δ κ η)
    (w : World δ κ) : ((m >>= f) >>= g) w = (m >>= fun a => f a >>= g) w := by
  cases h : m w with
  | mk r v =>
    cases r with
    | error e => rw [bind_run_of_error (bind_run_of_error h), bind_run_of_error h]
    | ok a =>
      rw [bind_run_of_ok h]
      cases hf : f a v with
      | mk r u =>
        have hm : (m >>= f) w = (r, u) := (bind_run_of_ok h).trans hf
        cases r with
        | error e => rw [bind_run_of_error hm, bind_run_of_error hf]
        | ok b => rw [bind_run_of_ok hm, bind_run_of_ok hf]

/-- A sequence returns when both its parts do. -/
theorem bind_ok_iff {b : β} : (m >>= f) w = (.ok b, v) ↔
    ∃ a u, m w = (.ok a, u) ∧ f a u = (.ok b, v) := by
  cases h : m w with
  | mk r u =>
    cases r with
    | error e =>
      rw [bind_run_of_error h]
      simp
    | ok a =>
      rw [bind_run_of_ok h]
      simp

/-- A sequence leaves what its first part left, or goes on from there. -/
theorem bind_run_cases (m : Tx ε δ κ α) (f : α → Tx ε δ κ β) (w : World δ κ) :
    ((m >>= f) w).2 = (m w).2 ∨ ∃ a, ((m >>= f) w).2 = (f a (m w).2).2 := by
  cases h : m w with
  | mk r v =>
    cases r with
    | error e => exact Or.inl (by rw [bind_run_of_error h])
    | ok a => exact Or.inr ⟨a, by rw [bind_run_of_ok h]⟩

end Running

/-! ## Parts that leave something alone -/

/-- The part leaves the observation `π` of its copy alone. -/
def Keeps (π : δ → γ) (m : Tx ε δ κ α) : Prop := ∀ w, π (m w).2.work = π w.work

/-- The part leaves the observation `π` of the database, and the cache, alone: it may have
committed what was there. -/
structure Frames (π : δ → γ) (m : Tx ε δ κ α) : Prop where
  cache : ∀ w, (m w).2.cache = w.cache
  work : ∀ w, π (m w).2.work = π w.work
  saved : ∀ w, π (m w).2.saved = π w.saved ∨ π (m w).2.saved = π w.work

/-- When the part returns, it has committed the observation `π`. -/
structure Seals (π : δ → γ) (m : Tx ε δ κ α) : Prop extends Frames π m where
  committed : ∀ w a v, m w = (.ok a, v) → π v.saved = π v.work

section Frame

variable {π : δ → γ} {m : Tx ε δ κ α} {f : α → Tx ε δ κ β}

theorem frames_pure (a : α) : Frames π (pure a : Tx ε δ κ α) :=
  ⟨fun _ => rfl, fun _ => rfl, fun _ => Or.inl rfl⟩

theorem frames_get : Frames π (get : Tx ε δ κ δ) :=
  ⟨fun _ => rfl, fun _ => rfl, fun _ => Or.inl rfl⟩

theorem seals_raise (e : ε) : Seals π (raise e : Tx ε δ κ α) :=
  ⟨⟨fun _ => rfl, fun _ => rfl, fun _ => Or.inl rfl⟩, fun _ _ _ h => by cases h⟩

theorem frames_modify {g : δ → δ} (h : ∀ s, π (g s) = π s) :
    Frames π (modify g : Tx ε δ κ Unit) :=
  ⟨fun _ => rfl, fun w => h w.work, fun _ => Or.inl rfl⟩

theorem seals_commit : Seals π (commit : Tx ε δ κ Unit) where
  cache _ := rfl
  work _ := rfl
  saved _ := Or.inr rfl
  committed w a v h := by
    cases h
    rfl

theorem frames_raiseIf (c : Prop) [Decidable c] (e : ε) :
    Frames π (raiseIf c e : Tx ε δ κ Unit) := by
  unfold raiseIf
  split_ifs
  · exact (seals_raise e).toFrames
  · exact frames_pure ()

theorem frames_orRaise (o : Option α) (e : ε) : Frames π (orRaise o e : Tx ε δ κ α) := by
  cases o with
  | none => exact (seals_raise e).toFrames
  | some a => exact frames_pure a

theorem Frames.bind (hm : Frames π m) (hf : ∀ a, Frames π (f a)) : Frames π (m >>= f) := by
  have hrun := bind_run_cases m f
  refine ⟨fun w => ?_, fun w => ?_, fun w => ?_⟩
  · rcases hrun w with heq | ⟨a, heq⟩
    · rw [heq, hm.cache]
    · rw [heq, (hf a).cache, hm.cache]
  · rcases hrun w with heq | ⟨a, heq⟩
    · rw [heq, hm.work]
    · rw [heq, (hf a).work, hm.work]
  · rcases hrun w with heq | ⟨a, heq⟩
    · rw [heq]
      exact hm.saved w
    · rw [heq]
      rcases (hf a).saved (m w).2 with hs | hs
      · rw [hs]
        exact hm.saved w
      · rw [hs, hm.work]
        exact Or.inr rfl

/-- What is committed in the end is committed. -/
theorem Frames.bind_seals (hm : Frames π m) (hf : ∀ a, Seals π (f a)) : Seals π (m >>= f) where
  toFrames := hm.bind fun a => (hf a).toFrames
  committed w b v h := by
    obtain ⟨a, u, -, hfu⟩ := bind_ok_iff.1 h
    exact (hf a).committed u b v hfu

/-- What is committed once stays committed. -/
theorem Seals.bind (hm : Seals π m) (hf : ∀ a, Frames π (f a)) : Seals π (m >>= f) where
  toFrames := hm.toFrames.bind hf
  committed w b v h := by
    obtain ⟨a, u, hmu, hfu⟩ := bind_ok_iff.1 h
    have hsealed := hm.committed w a u hmu
    have hwork := (hf a).work u
    rw [hfu] at hwork
    rcases (hf a).saved u with hs | hs
    · rw [hfu] at hs
      rw [hs, hsealed, hwork]
    · rw [hfu] at hs
      rw [hs, hwork]

theorem Frames.keeps (h : Frames π m) : Keeps π m := h.work

theorem keeps_getCache : Keeps π (getCache : Tx ε δ κ κ) := fun _ => rfl

theorem keeps_modifyCache (g : κ → κ) : Keeps π (modifyCache g : Tx ε δ κ Unit) := fun _ => rfl

theorem Keeps.bind (hm : Keeps π m) (hf : ∀ a, Keeps π (f a)) : Keeps π (m >>= f) := by
  intro w
  cases h : m w with
  | mk r v =>
    have hv : π v.work = π w.work := by
      rw [← hm w, h]
    cases r with
    | error e => rw [bind_run_of_error h, hv]
    | ok a => rw [bind_run_of_ok h, hf a v, hv]

theorem Keeps.of_run (hm : Keeps π m) {w v : World δ κ} {r : Except ε α} (h : m w = (r, v)) :
    π v.work = π w.work := by
  rw [← hm w, h]

end Frame

/-! ## Parts that move something by a relation -/

/-- The part moves the observation `π` only by `R`, in its copy and in what it commits. -/
structure Moves (R : γ → γ → Prop) (π : δ → γ) (m : Tx ε δ κ α) : Prop where
  work : ∀ w, R (π w.work) (π (m w).2.work)
  saved : ∀ w, π (m w).2.saved = π w.saved ∨ R (π w.work) (π (m w).2.saved)

section Move

variable {R : γ → γ → Prop} {π : δ → γ} {m : Tx ε δ κ α} {f : α → Tx ε δ κ β}

theorem moves_of_still (hR : ∀ x, R x x) (hm : ∀ w, (m w).2.work = w.work)
    (hsaved : ∀ w, (m w).2.saved = w.saved) : Moves R π m :=
  ⟨fun w => (congrArg π (hm w)).symm ▸ hR _, fun w => Or.inl (congrArg π (hsaved w))⟩

theorem moves_pure (hR : ∀ x, R x x) (a : α) : Moves R π (pure a : Tx ε δ κ α) :=
  moves_of_still hR (fun _ => rfl) fun _ => rfl

theorem moves_get (hR : ∀ x, R x x) : Moves R π (get : Tx ε δ κ δ) :=
  moves_of_still hR (fun _ => rfl) fun _ => rfl

theorem moves_getCache (hR : ∀ x, R x x) : Moves R π (getCache : Tx ε δ κ κ) :=
  moves_of_still hR (fun _ => rfl) fun _ => rfl

theorem moves_modifyCache (hR : ∀ x, R x x) (g : κ → κ) :
    Moves R π (modifyCache g : Tx ε δ κ Unit) :=
  moves_of_still hR (fun _ => rfl) fun _ => rfl

theorem moves_raise (hR : ∀ x, R x x) (e : ε) : Moves R π (raise e : Tx ε δ κ α) :=
  moves_of_still hR (fun _ => rfl) fun _ => rfl

theorem moves_raiseIf (hR : ∀ x, R x x) (c : Prop) [Decidable c] (e : ε) :
    Moves R π (raiseIf c e : Tx ε δ κ Unit) := by
  unfold raiseIf
  split_ifs
  · exact moves_raise hR e
  · exact moves_pure hR ()

theorem moves_orRaise (hR : ∀ x, R x x) (o : Option α) (e : ε) :
    Moves R π (orRaise o e : Tx ε δ κ α) := by
  cases o with
  | none => exact moves_raise hR e
  | some a => exact moves_pure hR a

theorem moves_modify {g : δ → δ} (h : ∀ s, R (π s) (π (g s))) :
    Moves R π (modify g : Tx ε δ κ Unit) :=
  ⟨fun w => h w.work, fun _ => Or.inl rfl⟩

theorem moves_commit (hR : ∀ x, R x x) : Moves R π (commit : Tx ε δ κ Unit) :=
  ⟨fun _ => hR _, fun _ => Or.inr (hR _)⟩

theorem Moves.bind (hR : ∀ x y z, R x y → R y z → R x z) (hm : Moves R π m)
    (hf : ∀ a, Moves R π (f a)) : Moves R π (m >>= f) := by
  have hrun := bind_run_cases m f
  refine ⟨fun w => ?_, fun w => ?_⟩
  · rcases hrun w with heq | ⟨a, heq⟩
    · rw [heq]
      exact hm.work w
    · rw [heq]
      exact hR _ _ _ (hm.work w) ((hf a).work _)
  · rcases hrun w with heq | ⟨a, heq⟩
    · rw [heq]
      exact hm.saved w
    · rw [heq]
      rcases (hf a).saved (m w).2 with hs | hs
      · rw [hs]
        exact hm.saved w
      · exact Or.inr (hR _ _ _ (hm.work w) hs)

/-- A whole request moves what is committed by the relation. -/
theorem Moves.request (hR : ∀ x, R x x) (hm : Moves R π m) (db : δ) (cache : κ) :
    R (π db) (π (request m db cache).2.1) := by
  rcases hm.saved ⟨db, db, cache⟩ with h | h
  · rw [show π (Transaction.request m db cache).2.1 = π db from h]
    exact hR _
  · exact h

end Move

end Transaction
