import SweetCrust.Lib.Runs

/-!
# Requests in two steps

Without row locks a request works in two steps: it reads the database and plans a
write, and some time later it commits that write, whatever has been committed in
between.  Requests of one *lane* read what the others of the lane write; requests of
different lanes do not see each other's writes.

* `call` — a request served alone: its plan is committed at once.
* `Conf`, `advance` — requests in flight, and the events that move them.
* `Undisturbed` — at a commit, no other request of the lane has committed since the
  request read.
* `db_eq_serial` — an execution whose commits are all undisturbed ends in the database
  that the committed requests produce one after another, in commit order.
-/

namespace Interleave

open Runs

variable {ε σ ρ ι Λ : Type}

/-- Plan a write, and commit it at once; a refused request changes nothing. -/
def call (plan : ρ → σ → Except ε (σ → σ)) (db : σ) (r : ρ) : σ :=
  match plan r db with
  | .ok write => write db
  | .error _ => db

theorem call_of_ok {plan : ρ → σ → Except ε (σ → σ)} {db : σ} {r : ρ} {write : σ → σ}
    (h : plan r db = .ok write) : call plan db r = write db := by
  rw [call, h]

theorem call_of_error {plan : ρ → σ → Except ε (σ → σ)} {db : σ} {r : ρ} {e : ε}
    (h : plan r db = .error e) : call plan db r = db := by
  rw [call, h]

/-- A call either is refused, or commits the write it planned. -/
theorem call_cases (plan : ρ → σ → Except ε (σ → σ)) (db : σ) (r : ρ) :
    (∃ e, plan r db = .error e ∧ call plan db r = db) ∨
      ∃ write, plan r db = .ok write ∧ call plan db r = write db := by
  cases h : plan r db with
  | error e => exact Or.inl ⟨e, rfl, call_of_error h⟩
  | ok write => exact Or.inr ⟨write, rfl, call_of_ok h⟩

/-- A step of the request number `i`. -/
inductive Event (ι : Type)
  | read (i : ι)
  | commit (i : ι)

/-- A request that has read: the write it planned, and whether another request of its
lane has committed since. -/
structure Planned (σ : Type) where
  write : σ → σ
  disturbed : Bool

/-- Requests in flight over a database. -/
structure Conf (σ ι : Type) where
  db : σ
  /-- The requests that have read and not committed. -/
  pending : ι → Option (Planned σ)
  /-- The requests that committed, in order. -/
  committed : List ι

/-- No request has read yet. -/
def Conf.start (db : σ) : Conf σ ι := ⟨db, fun _ => none, []⟩

/-- A commit finds no other commit of its lane since its read. -/
def Undisturbed (c : Conf σ ι) : Event ι → Prop
  | .read _ => True
  | .commit i => ∀ p, c.pending i = some p → p.disturbed = false

instance (c : Conf σ ι) : DecidablePred (Undisturbed c)
  | .read _ => isTrue trivial
  | .commit i => decidable_of_iff ((c.pending i).all (fun p => !p.disturbed) = true)
      (by simp only [Undisturbed, Option.all_eq_true, Bool.not_eq_true'])

/-- The database holds what the committed requests produce one after another, and an
undisturbed request would plan now what it planned when it read. -/
structure InStep (plan : ρ → σ → Except ε (σ → σ)) (request : ι → ρ) (db₀ : σ)
    (c : Conf σ ι) : Prop where
  serial : c.db = run (call plan) db₀ (c.committed.map request)
  planned : ∀ i p, c.pending i = some p → p.disturbed = false →
    plan (request i) c.db = .ok p.write

theorem inStep_start {plan : ρ → σ → Except ε (σ → σ)} {request : ι → ρ} (db : σ) :
    InStep plan request db (Conf.start db : Conf σ ι) where
  serial := rfl
  planned := by simp [Conf.start]

variable [DecidableEq ι] [DecidableEq Λ]

/-- A commit of request `i`, whose write was planned. -/
def Conf.commit (c : Conf σ ι) (lane : ρ → Λ) (request : ι → ρ) (i : ι) (p : Planned σ) :
    Conf σ ι where
  db := p.write c.db
  pending := fun j =>
    if j = i then none
    else (c.pending j).map fun q =>
      { q with disturbed := q.disturbed || decide (lane (request j) = lane (request i)) }
  committed := c.committed ++ [i]

/-- One event: a read plans the write of a request, a commit applies a planned write. -/
def advance (plan : ρ → σ → Except ε (σ → σ)) (lane : ρ → Λ) (request : ι → ρ)
    (c : Conf σ ι) : Event ι → Conf σ ι
  | .read i =>
    { c with
      pending := Function.update c.pending i
        ((plan (request i) c.db).toOption.map fun write => ⟨write, false⟩) }
  | .commit i =>
    match c.pending i with
    | none => c
    | some p => c.commit lane request i p

section Serial

variable {plan : ρ → σ → Except ε (σ → σ)} {lane : ρ → Λ} {request : ι → ρ} {db₀ : σ}
  {c : Conf σ ι}

/-- A read keeps step: what it plans is planned in the present database. -/
theorem InStep.read (h : InStep plan request db₀ c) (i : ι) :
    InStep plan request db₀ (advance plan lane request c (.read i)) where
  serial := h.serial
  planned := by
    intro j p hj hclean
    have hj' : Function.update c.pending i
        ((plan (request i) c.db).toOption.map fun write => ⟨write, false⟩) j = some p := hj
    by_cases hji : j = i
    · subst hji
      rw [Function.update_self, Option.map_eq_some_iff] at hj'
      obtain ⟨write, hwrite, rfl⟩ := hj'
      show plan (request j) c.db = .ok write
      cases hplan : plan (request j) c.db with
      | error e => rw [hplan] at hwrite; cases hwrite
      | ok w => rw [hplan] at hwrite; cases hwrite; rfl
    · rw [Function.update_of_ne hji] at hj'
      exact h.planned j p hj' hclean

/-- An undisturbed commit keeps step, when no write of one lane changes what a request
of another lane plans. -/
theorem InStep.commit
    (hlanes : ∀ i j s write, lane (request j) ≠ lane (request i) →
      plan (request j) s = .ok write → ∀ t, plan (request i) (write t) = plan (request i) t)
    (h : InStep plan request db₀ c) {i : ι} {p : Planned σ} (hi : c.pending i = some p)
    (hclean : p.disturbed = false) :
    InStep plan request db₀ (c.commit lane request i p) := by
  have hp : plan (request i) c.db = .ok p.write := h.planned i p hi hclean
  refine ⟨?_, ?_⟩
  · show p.write c.db = run (call plan) db₀ ((c.committed ++ [i]).map request)
    rw [List.map_append, List.map_singleton, run_concat, ← h.serial, call_of_ok hp]
  · intro j q hj hq
    have hj' : (if j = i then none
      else (c.pending j).map fun q =>
        { q with disturbed := q.disturbed || decide (lane (request j) = lane (request i)) }) =
        some q := hj
    split_ifs at hj' with hji
    obtain ⟨q', hq', rfl⟩ := Option.map_eq_some_iff.1 hj'
    simp only [Bool.or_eq_false_iff, decide_eq_false_iff_not] at hq
    show plan (request j) (p.write c.db) = .ok q'.write
    rw [hlanes j i c.db p.write (fun heq => hq.2 heq.symm) hp c.db]
    exact h.planned j q' hq' hq.1

/-- Every undisturbed event keeps step. -/
theorem InStep.advance
    (hlanes : ∀ i j s write, lane (request j) ≠ lane (request i) →
      plan (request j) s = .ok write → ∀ t, plan (request i) (write t) = plan (request i) t)
    (h : InStep plan request db₀ c) {e : Event ι} (he : Undisturbed c e) :
    InStep plan request db₀ (Interleave.advance plan lane request c e) := by
  cases e with
  | read i => exact h.read i
  | commit i =>
    cases hi : c.pending i with
    | none =>
      have hstay : Interleave.advance plan lane request c (.commit i) = c := by
        simp only [Interleave.advance, hi]
      rw [hstay]
      exact h
    | some p =>
      have hcommit : Interleave.advance plan lane request c (.commit i) =
          c.commit lane request i p := by
        simp only [Interleave.advance, hi]
      rw [hcommit]
      exact h.commit hlanes hi (he p hi)

/-- Requests whose commits are undisturbed leave the database that the committed ones
produce one after another, in commit order. -/
theorem db_eq_serial
    (hlanes : ∀ i j s write, lane (request j) ≠ lane (request i) →
      plan (request j) s = .ok write → ∀ t, plan (request i) (write t) = plan (request i) t)
    (db : σ) (es : List (Event ι))
    (hes : Stepwise (Interleave.advance plan lane request) Undisturbed (Conf.start db) es) :
    (run (Interleave.advance plan lane request) (Conf.start db) es).db =
      run (call plan) db
        ((run (Interleave.advance plan lane request) (Conf.start db) es).committed.map request) := by
  have hthrough : Throughout (Interleave.advance plan lane request)
      (InStep plan request db) (Conf.start db) es :=
    throughout_of_stepwise (fun _ _ h he => h.advance hlanes he) (inStep_start db) hes
  exact hthrough.final.serial

end Serial

end Interleave
