import SweetCrust.Lib.Expiring
import SweetCrust.Lib.Runs

/-!
# Caches that are read through

Readers share a cache in front of a table.  A reader looks its key up; on a miss it reads the
table, and stores what it has read for the length `ttl`.  A reader may have opened a snapshot of the
table before it looks its key up; then it reads the table as it was.  All these are steps of their
own, and other readers, writes to the table and deletions of keys come between them.

* `step` — one step.
* `ReadAt` — a value was read from the table at a time of the run.
* `Fresh` — whatever is stored or read under a key was read in the run, and until a time that a
  bound allows.
* `answer_fresh` — from a configuration where nothing is stored or about to be stored under a
  key, every answer under the key was read in the run, and is given within the bound.
* `answer_recent` — the bound is `ttl` and the time that a reader takes to store.
-/

namespace ReadThrough

open Runs

/-- Where a reader is. -/
inductive Phase (σ κ ν τ : Type)
  | idle
  /-- It has a snapshot of the table, of a time. -/
  | opened (table : σ) (time : τ)
  | missed (k : κ) (snapshot : Option (σ × τ))
  /-- It has read a value from the table, as it was at a time. -/
  | read (k : κ) (v : ν) (time : τ)

/-- A reader may look a key up, with a snapshot or without one. -/
def Phase.ready? {σ κ ν τ : Type} : Phase σ κ ν τ → Option (Option (σ × τ))
  | .idle => some none
  | .opened table time => some (some (table, time))
  | _ => none

/-- What the reader stores under the key, if it does, is fixed already. -/
def Phase.Fixed {σ κ ν τ : Type} (k : κ) : Phase σ κ ν τ → Prop
  | .idle => False
  | .opened _ _ => True
  | .missed j snapshot => j = k ∧ snapshot.isSome = true
  | .read j _ _ => j = k

structure Answer (ι κ ν τ : Type) where
  reader : ι
  key : κ
  value : ν
  time : τ
  deriving DecidableEq

structure Conf (ι σ κ ν τ : Type) where
  table : σ
  cache : Expiring κ ν τ
  phase : ι → Phase σ κ ν τ
  answers : List (Answer ι κ ν τ)

inductive Event (ι σ κ τ : Type)
  | write (f : σ → σ) (now : τ)
  | snapshot (i : ι) (now : τ)
  /-- A look-up, where the cache can be reached or not. -/
  | lookup (i : ι) (k : κ) (reachable : Bool) (now : τ)
  | query (i : ι) (now : τ)
  | store (i : ι) (accepted : Bool) (now : τ)
  | delete (k : κ) (now : τ)

/-- The reader sees the table as it is at the time. -/
def Event.Sees {ι σ κ τ : Type} (j : ι) (t : τ) : Event ι σ κ τ → Prop
  | .snapshot i now | .query i now => i = j ∧ now = t
  | _ => False

section Steps

variable {ι σ κ ν τ : Type} [DecidableEq ι] [DecidableEq κ] [AddCommGroup τ] [LinearOrder τ]
  (answer : ι → κ → σ → ν) (ttl : τ)

def start (table : σ) : Conf ι σ κ ν τ := ⟨table, .empty, fun _ => .idle, []⟩

/-- A reader answers and is idle again. -/
def Conf.reply (c : Conf ι σ κ ν τ) (i : ι) (k : κ) (v : ν) (now : τ) : Conf ι σ κ ν τ :=
  { c with phase := Function.update c.phase i .idle, answers := c.answers ++ [⟨i, k, v, now⟩] }

/-- The configuration after a step.  A step that its reader cannot take is none. -/
def step (c : Conf ι σ κ ν τ) : Event ι σ κ τ → Conf ι σ κ ν τ
  | .write f _ => { c with table := f c.table }
  | .snapshot i now =>
    match c.phase i with
    | .idle => { c with phase := Function.update c.phase i (.opened c.table now) }
    | _ => c
  | .lookup i k reachable now =>
    match (c.phase i).ready? with
    | some snapshot =>
      match if reachable then c.cache.get? now k else none with
      | some v => c.reply i k v now
      | none => { c with phase := Function.update c.phase i (.missed k snapshot) }
    | none => c
  | .query i now =>
    match c.phase i with
    | .missed k none =>
      { c with phase := Function.update c.phase i (.read k (answer i k c.table) now) }
    | .missed k (some (table, time)) =>
      { c with phase := Function.update c.phase i (.read k (answer i k table) time) }
    | _ => c
  | .store i accepted now =>
    match c.phase i with
    | .read k v _ =>
      Conf.reply { c with cache := if accepted then c.cache.set k v (now + ttl) else c.cache }
        i k v now
    | _ => c
  | .delete k _ => { c with cache := c.cache.delete k }

/-- The value was read under the key at the time, from the table as it was in the run. -/
def ReadAt (c₀ : Conf ι σ κ ν τ) (es : List (Event ι σ κ τ)) (k : κ) (v : ν) (t : τ) : Prop :=
  ∃ pre e j, pre ++ [e] <+: es ∧ e.Sees j t ∧ v = answer j k (run (step answer ttl) c₀ pre).table

/-- The reader has opened the snapshot at the time, of the table as it was in the run. -/
def OpenedAt (c₀ : Conf ι σ κ ν τ) (es : List (Event ι σ κ τ)) (i : ι) (table : σ) (t : τ) : Prop :=
  ∃ pre, pre ++ [.snapshot i t] <+: es ∧ table = (run (step answer ttl) c₀ pre).table

/-- What a reader stores ends within the bound for its reading. -/
def Bounded (B : τ → τ → Prop) (c : Conf ι σ κ ν τ) (e : Event ι σ κ τ) : Prop :=
  ∀ i accepted now, e = .store i accepted now →
    ∀ k v t, c.phase i = .read k v t → B t (now + ttl)

/-- A reader stores within `δ` of its reading. -/
def InTime (δ : τ) (c : Conf ι σ κ ν τ) (e : Event ι σ κ τ) : Prop :=
  ∀ i accepted now, e = .store i accepted now →
    ∀ k v t, c.phase i = .read k v t → now ≤ t + δ

/-- Nothing is stored under the key, and no reader is about to store what is fixed already. -/
structure Clear (c : Conf ι σ κ ν τ) (k : κ) : Prop where
  cache : c.cache k = none
  phase : ∀ i, ¬ (c.phase i).Fixed k

/-- What is stored, read or answered under the key was read in the run, and ends within the
bound. -/
structure Fresh (B : τ → τ → Prop) (c₀ : Conf ι σ κ ν τ) (es : List (Event ι σ κ τ)) (k : κ)
    (c : Conf ι σ κ ν τ) : Prop where
  phase : ∀ i v t, c.phase i = .read k v t → ReadAt answer ttl c₀ es k v t
  opened : ∀ i table t, c.phase i = .opened table t ∨ c.phase i = .missed k (some (table, t)) →
    OpenedAt answer ttl c₀ es i table t
  cache : ∀ v d, c.cache k = some (v, d) →
    ∃ t, ReadAt answer ttl c₀ es k v t ∧ B t d
  answers : ∃ new, c.answers = c₀.answers ++ new ∧
    ∀ a ∈ new, a.key = k → ∃ t, ReadAt answer ttl c₀ es k a.value t ∧ B t a.time

end Steps

section Proofs

variable {ι σ κ ν τ : Type} [DecidableEq ι] [DecidableEq κ] [AddCommGroup τ] [LinearOrder τ]
  [IsOrderedAddMonoid τ] {answer : ι → κ → σ → ν} {ttl δ : τ} {B : τ → τ → Prop}
  {c₀ c : Conf ι σ κ ν τ} {es : List (Event ι σ κ τ)} {k : κ}

omit [IsOrderedAddMonoid τ] in
theorem ReadAt.mono {v : ν} {t : τ} (h : ReadAt answer ttl c₀ es k v t) (e : Event ι σ κ τ) :
    ReadAt answer ttl c₀ (es ++ [e]) k v t := by
  obtain ⟨pre, d, j, hpre, hsees, hv⟩ := h
  exact ⟨pre, d, j, hpre.trans (List.prefix_append es [e]), hsees, hv⟩

omit [IsOrderedAddMonoid τ] in
theorem OpenedAt.mono {i : ι} {table : σ} {t : τ} (h : OpenedAt answer ttl c₀ es i table t)
    (e : Event ι σ κ τ) : OpenedAt answer ttl c₀ (es ++ [e]) i table t := by
  obtain ⟨pre, hpre, htable⟩ := h
  exact ⟨pre, hpre.trans (List.prefix_append es [e]), htable⟩

omit [IsOrderedAddMonoid τ] in
/-- What is read from a snapshot was read when it was opened. -/
theorem OpenedAt.readAt {i : ι} {table : σ} {t : τ} (h : OpenedAt answer ttl c₀ es i table t) :
    ReadAt answer ttl c₀ es k (answer i k table) t := by
  obtain ⟨pre, hpre, rfl⟩ := h
  exact ⟨pre, _, i, hpre, ⟨rfl, rfl⟩, rfl⟩

omit [IsOrderedAddMonoid τ] in
theorem fresh_nil (h : Clear c₀ k) : Fresh answer ttl B c₀ [] k c₀ where
  phase i v t hi := absurd (by rw [hi]; rfl) (h.phase i)
  opened i table t hi := by
    rcases hi with hi | hi
    · exact absurd (by rw [hi]; trivial) (h.phase i)
    · exact absurd (by rw [hi]; exact ⟨rfl, rfl⟩) (h.phase i)
  cache v d hc := by simp [h.cache] at hc
  answers := ⟨[], by simp, by simp⟩

omit [IsOrderedAddMonoid τ] in
/-- A configuration with the same entry under the key, whose readers have read nothing new. -/
theorem Fresh.mono (h : Fresh answer ttl B c₀ es k c) (e : Event ι σ κ τ) :
    Fresh answer ttl B c₀ (es ++ [e]) k c where
  phase i v t hi := (h.phase i v t hi).mono e
  opened i table t hi := (h.opened i table t hi).mono e
  cache v d hc := (h.cache v d hc).imp fun _ ht => ⟨ht.1.mono e, ht.2⟩
  answers := h.answers.imp fun _ hnew => ⟨hnew.1, fun a ha hk =>
    (hnew.2 a ha hk).imp fun _ ht => ⟨ht.1.mono e, ht.2⟩⟩

omit [IsOrderedAddMonoid τ] in
/-- What a reader holds was read in the run. -/
theorem Fresh.update (h : Fresh answer ttl B c₀ es k c) {i : ι} {p : Phase σ κ ν τ}
    (hp : ∀ v t, p = .read k v t → ReadAt answer ttl c₀ es k v t)
    (hopened : ∀ table t, p = .opened table t ∨ p = .missed k (some (table, t)) →
      OpenedAt answer ttl c₀ es i table t) :
    Fresh answer ttl B c₀ es k { c with phase := Function.update c.phase i p } where
  phase j v t hj := by
    by_cases hij : j = i
    · subst hij
      simp only [Function.update_self] at hj
      exact hp v t hj
    · simp only [Function.update_of_ne hij] at hj
      exact h.phase j v t hj
  opened j table t hj := by
    by_cases hij : j = i
    · subst hij
      simp only [Function.update_self] at hj
      exact hopened table t hj
    · simp only [Function.update_of_ne hij] at hj
      exact h.opened j table t hj
  cache := h.cache
  answers := h.answers

omit [IsOrderedAddMonoid τ] in
theorem Fresh.update_idle (h : Fresh answer ttl B c₀ es k c) (i : ι) :
    Fresh answer ttl B c₀ es k { c with phase := Function.update c.phase i .idle } :=
  h.update nofun fun _ _ => by rintro (hno | hno) <;> cases hno

omit [IsOrderedAddMonoid τ] in
/-- An answer that was read in time is one more. -/
theorem Fresh.reply (h : Fresh answer ttl B c₀ es k c) {i : ι} {j : κ} {v : ν} {now : τ}
    (hv : j = k → ∃ t, ReadAt answer ttl c₀ es k v t ∧ B t now) :
    Fresh answer ttl B c₀ es k (c.reply i j v now) where
  phase := (h.update_idle i).phase
  opened := (h.update_idle i).opened
  cache := h.cache
  answers := by
    obtain ⟨new, hnew, hall⟩ := h.answers
    refine ⟨new ++ [⟨i, j, v, now⟩], by simp [Conf.reply, hnew], fun a ha hk => ?_⟩
    rcases List.mem_append.1 ha with ha | ha
    · exact hall a ha hk
    · rw [List.mem_singleton.1 ha] at hk ⊢
      exact hv hk

omit [IsOrderedAddMonoid τ] in
/-- What is found under the key was read in the run, and ends later. -/
theorem Fresh.hit (h : Fresh answer ttl B c₀ es k c) (hB : ∀ t d d', d' ≤ d → B t d → B t d')
    {v : ν} {now : τ} (hv : c.cache.get? now k = some v) :
    ∃ t, ReadAt answer ttl c₀ es k v t ∧ B t now := by
  obtain ⟨d, hd, hlt⟩ := Expiring.get?_eq_some.1 hv
  obtain ⟨t, ht, hle⟩ := h.cache v d hd
  exact ⟨t, ht, hB t d now hlt.le hle⟩

omit [IsOrderedAddMonoid τ] in
/-- An entry that was read in time is stored. -/
theorem Fresh.set (h : Fresh answer ttl B c₀ es k c) {j : κ} {v : ν} {d : τ}
    (hv : j = k → ∃ t, ReadAt answer ttl c₀ es k v t ∧ B t d) :
    Fresh answer ttl B c₀ es k { c with cache := c.cache.set j v d } where
  phase := h.phase
  opened := h.opened
  cache w d' hw := by
    dsimp only at hw
    by_cases hjk : k = j
    · subst hjk
      rw [Expiring.set_self] at hw
      cases hw
      exact hv rfl
    · rw [Expiring.set_of_ne _ _ _ hjk] at hw
      exact h.cache w d' hw
  answers := h.answers

omit [IsOrderedAddMonoid τ] in
theorem Fresh.delete (h : Fresh answer ttl B c₀ es k c) (j : κ) :
    Fresh answer ttl B c₀ es k { c with cache := c.cache.delete j } where
  phase := h.phase
  opened := h.opened
  cache v d hd := by
    dsimp only at hd
    by_cases hj : k = j
    · simp [hj] at hd
    · rw [Expiring.delete_of_ne _ hj] at hd
      exact h.cache v d hd
  answers := h.answers

/-- One step keeps what is there fresh. -/
theorem Fresh.step (hc : c = run (step answer ttl) c₀ es) (h : Fresh answer ttl B c₀ es k c)
    (httl : 0 ≤ ttl) (hB : ∀ t d d', d' ≤ d → B t d → B t d') (e : Event ι σ κ τ)
    (he : Bounded ttl B c e) :
    Fresh answer ttl B c₀ (es ++ [e]) k (step answer ttl c e) := by
  have hm := h.mono e
  cases e with
  | write f now => exact ⟨hm.phase, hm.opened, hm.cache, hm.answers⟩
  | snapshot i now =>
    simp only [ReadThrough.step]
    split
    · refine hm.update nofun fun table t ht => ?_
      rcases ht with ht | ht
      · cases ht
        exact ⟨es, List.prefix_refl _, by rw [hc]⟩
      · cases ht
    · exact hm
  | lookup i j reachable now =>
    simp only [ReadThrough.step]
    split
    · rename_i snapshot hready
      split
      · rename_i v hv
        refine hm.reply fun hj => ?_
        subst hj
        split_ifs at hv
        exact hm.hit hB hv
      · refine hm.update nofun fun table t ht => ?_
        rcases ht with ht | ht
        · cases ht
        · -- the snapshot is the one that the reader has opened
          cases ht
          refine hm.opened i table t (.inl ?_)
          cases hphase : c.phase i <;> rw [hphase] at hready <;> cases hready
          rfl
    · exact hm
  | query i now =>
    simp only [ReadThrough.step]
    split
    · rename_i j hj
      refine hm.update (fun v t hread => ?_) fun _ _ => by rintro (hno | hno) <;> cases hno
      cases hread
      exact ⟨es, _, i, List.prefix_refl _, ⟨rfl, rfl⟩, by rw [hc]⟩
    · rename_i j table time hj
      refine hm.update (fun v t hread => ?_) fun _ _ => by rintro (hno | hno) <;> cases hno
      cases hread
      exact (hm.opened i table time (.inr hj)).readAt
    · exact hm
  | store i accepted now =>
    simp only [ReadThrough.step]
    split
    · rename_i j v t hread
      have hnow : B t (now + ttl) := he i accepted now rfl j v t hread
      have hkey : j = k → ReadAt answer ttl c₀ (es ++ [.store i accepted now]) k v t := by
        rintro rfl
        exact hm.phase i v t hread
      have hset : Fresh answer ttl B c₀ (es ++ [.store i accepted now]) k
          { c with cache := if accepted then c.cache.set j v (now + ttl) else c.cache } := by
        split_ifs
        · exact hm.set fun hj => ⟨t, hkey hj, hnow⟩
        · exact hm
      exact hset.reply fun hj =>
        ⟨t, hkey hj, hB t _ now (le_add_of_nonneg_right httl) hnow⟩
    · exact hm
  | delete j now => exact hm.delete j

/-- Along every run within the bound what is there is fresh. -/
theorem fresh_run (h : Clear c₀ k) (httl : 0 ≤ ttl) (hB : ∀ t d d', d' ≤ d → B t d → B t d')
    (hes : Stepwise (step answer ttl) (Bounded ttl B) c₀ es) :
    Fresh answer ttl B c₀ es k (run (step answer ttl) c₀ es) := by
  induction es using List.reverseRecOn with
  | nil => exact fresh_nil h
  | append_singleton es e ih =>
    obtain ⟨hold, hlast⟩ := stepwise_concat.1 hes
    rw [run_concat]
    exact (ih hold).step rfl httl hB e hlast

omit [IsOrderedAddMonoid τ] in
/-- The answers given in a run. -/
theorem Fresh.of_mem_drop (h : Fresh answer ttl B c₀ es k c) {a : Answer ι κ ν τ}
    (ha : a ∈ c.answers.drop c₀.answers.length) (hk : a.key = k) :
    ∃ t, ReadAt answer ttl c₀ es k a.value t ∧ B t a.time := by
  obtain ⟨new, hnew, hall⟩ := h.answers
  rw [hnew, List.drop_left] at ha
  exact hall a ha hk

/-- From a configuration where nothing is stored or about to be stored under a key, every answer
under the key was read in the run, however the steps lie. -/
theorem answer_fresh (h : Clear c₀ k) (httl : 0 ≤ ttl) {a : Answer ι κ ν τ}
    (ha : a ∈ (run (step answer ttl) c₀ es).answers.drop c₀.answers.length) (hk : a.key = k) :
    ∃ t, ReadAt answer ttl c₀ es k a.value t := by
  have hfresh : Fresh answer ttl (fun _ _ => True) c₀ es k (run (step answer ttl) c₀ es) :=
    fresh_run h httl (fun _ _ _ _ h => h) fun _ _ _ _ _ _ _ _ _ _ _ => trivial
  exact (hfresh.of_mem_drop ha hk).imp fun _ ht => ht.1

/-- Where each reader stores within `δ`, an answer is not older than `ttl` and `δ`. -/
theorem answer_recent (h : Clear c₀ k) (httl : 0 ≤ ttl)
    (hes : Stepwise (step answer ttl) (InTime δ) c₀ es) {a : Answer ι κ ν τ}
    (ha : a ∈ (run (step answer ttl) c₀ es).answers.drop c₀.answers.length) (hk : a.key = k) :
    ∃ t, ReadAt answer ttl c₀ es k a.value t ∧ a.time ≤ t + δ + ttl := by
  have hfresh : Fresh answer ttl (fun t d => d ≤ t + δ + ttl) c₀ es k
      (run (step answer ttl) c₀ es) := by
    refine fresh_run h httl (fun t d d' hle hd => hle.trans hd) fun pre e hpre => ?_
    intro i accepted now he j v t hread
    exact add_le_add_left (hes pre e hpre i accepted now he j v t hread) ttl
  exact hfresh.of_mem_drop ha hk

omit [IsOrderedAddMonoid τ] [LinearOrder τ] [AddCommGroup τ] [DecidableEq ι] [DecidableEq κ] in
theorem clear_start (table : σ) (k : κ) : Clear (start table : Conf ι σ κ ν τ) k :=
  ⟨rfl, fun _ h => h⟩

end Proofs

end ReadThrough
