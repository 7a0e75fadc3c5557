import Mathlib

/-!
# Runs of calls

A system that answers calls one after another is a state and a step function
`step : σ → κ → σ`; a call that is refused is a step that changes nothing.  A run
is a list of calls.

* `Throughout P` — `P` holds at the start of a run and after each of its calls.
* `Stepwise Ok` — each call of a run meets the condition `Ok` in the state it finds.
* `run_induction` — an invariant kept by every call holds after every run.
* `throughout_of_stepwise` — a property kept by every call that meets a condition
  holds throughout every run whose calls all meet it.
* `throughout_iff_stepwise` — when a call keeps the property *exactly* if it meets
  the condition, the property holds throughout a run exactly if each call of it
  meets the condition.
* `throughout_iff_of_inductive` — the same for a property that needs a stronger one, which
  the calls that meet the condition keep.
* `throughout_and_stepwise_iff`, `throughout_and_stepwise_iff_of_inductive` — the same beside a
  second condition on the calls.
* `stepwise_concat` — the calls of a run and one more; `stepwise_and` — two conditions at once.
* `Lasts`, `lasts_iff_stepwise` — what is settled once stays as it is.
* `trace`, `isChain_trace_iff` — the same for calls that pass through several states,
  and a relation between consecutive ones.
-/

namespace Runs

variable {σ κ : Type} (step : σ → κ → σ)

/-- The state after a run of calls. -/
def run (s : σ) (cs : List κ) : σ := cs.foldl step s

@[simp] theorem run_nil (s : σ) : run step s [] = s := rfl

@[simp] theorem run_cons (s : σ) (c : κ) (cs : List κ) :
    run step s (c :: cs) = run step (step s c) cs := rfl

theorem run_append (s : σ) (cs ds : List κ) :
    run step s (cs ++ ds) = run step (run step s cs) ds := List.foldl_append

theorem run_concat (s : σ) (cs : List κ) (c : κ) :
    run step s (cs ++ [c]) = step (run step s cs) c := by
  rw [run_append, run_cons, run_nil]

/-- `P` holds at the start of the run and after each of its calls. -/
def Throughout (P : σ → Prop) (s : σ) (cs : List κ) : Prop :=
  ∀ pre, pre <+: cs → P (run step s pre)

/-- Each call of the run meets `Ok` in the state it finds. -/
def Stepwise (Ok : σ → κ → Prop) (s : σ) (cs : List κ) : Prop :=
  ∀ pre c, pre ++ [c] <+: cs → Ok (run step s pre) c

variable {step}

theorem Stepwise.of_prefix {Ok : σ → κ → Prop} {s : σ} {cs ds : List κ}
    (h : Stepwise step Ok s ds) (hp : cs <+: ds) : Stepwise step Ok s cs :=
  fun pre c hc => h pre c (hc.trans hp)

/-- The calls of a run meet the condition from any point of it on. -/
theorem Stepwise.after {Ok : σ → κ → Prop} {s : σ} {pre cs ds : List κ}
    (h : Stepwise step Ok s ds) (hp : pre ++ cs <+: ds) : Stepwise step Ok (run step s pre) cs := by
  intro done c hc
  have hlong : (pre ++ done) ++ [c] <+: ds := by
    rw [List.append_assoc]
    exact ((List.prefix_append_right_inj pre).2 hc).trans hp
  rw [← run_append]
  exact h _ c hlong

theorem stepwise_nil (Ok : σ → κ → Prop) (s : σ) : Stepwise step Ok s [] := by
  intro pre c h
  exact absurd (List.eq_nil_of_prefix_nil h) (by simp)

theorem stepwise_cons {Ok : σ → κ → Prop} {s : σ} {c : κ} {cs : List κ} :
    Stepwise step Ok s (c :: cs) ↔ Ok s c ∧ Stepwise step Ok (step s c) cs := by
  constructor
  · intro h
    refine ⟨h [] c ⟨cs, rfl⟩, ?_⟩
    intro pre d hd
    exact h (c :: pre) d ((List.prefix_cons_inj c).2 hd)
  · rintro ⟨hc, h⟩ pre d hd
    cases pre with
    | nil =>
      rw [List.nil_append, List.cons_prefix_cons] at hd
      rw [hd.1]
      exact hc
    | cons e pre =>
      rw [List.cons_append, List.cons_prefix_cons] at hd
      rw [hd.1]
      exact h pre d hd.2

theorem stepwise_and {Ok Q : σ → κ → Prop} {s : σ} {cs : List κ} :
    Stepwise step (fun t c => Ok t c ∧ Q t c) s cs ↔ Stepwise step Ok s cs ∧ Stepwise step Q s cs := by
  constructor
  · intro h
    exact ⟨fun pre c hc => (h pre c hc).1, fun pre c hc => (h pre c hc).2⟩
  · rintro ⟨hok, hq⟩ pre c hc
    exact ⟨hok pre c hc, hq pre c hc⟩

instance decidableStepwise {Ok : σ → κ → Prop} [∀ s c, Decidable (Ok s c)] :
    ∀ s cs, Decidable (Stepwise step Ok s cs)
  | s, [] => isTrue (stepwise_nil Ok s)
  | s, c :: cs =>
    have : Decidable (Stepwise step Ok (step s c) cs) := decidableStepwise (step s c) cs
    decidable_of_iff (Ok s c ∧ Stepwise step Ok (step s c) cs) stepwise_cons.symm

/-- A condition that all calls from `s` on meet, the last one included. -/
theorem stepwise_concat {Ok : σ → κ → Prop} {s : σ} {cs : List κ} {c : κ} :
    Stepwise step Ok s (cs ++ [c]) ↔ Stepwise step Ok s cs ∧ Ok (run step s cs) c := by
  constructor
  · intro h
    exact ⟨h.of_prefix (List.prefix_append cs [c]), h cs c (List.prefix_refl _)⟩
  · rintro ⟨h, hc⟩ pre d hpre
    rcases List.prefix_concat_iff.1 hpre with heq | hpre
    · obtain ⟨rfl, hd⟩ := List.append_inj' heq rfl
      cases hd
      exact hc
    · exact h pre d hpre

/-- What `v` says of the state lasts: once it says something, it says the same to the end. -/
def Lasts {β : Type} (step : σ → κ → σ) (v : σ → Option β) (s : σ) (cs : List κ) : Prop :=
  ∀ pre post, pre ++ post <+: cs → ∀ b, v (run step s pre) = some b →
    v (run step s (pre ++ post)) = some b

/-- What is said lasts exactly if every call leaves it. -/
theorem lasts_iff_stepwise {β : Type} {v : σ → Option β} {s : σ} {cs : List κ} :
    Lasts step v s cs ↔ Stepwise step (fun t c => ∀ b, v t = some b → v (step t c) = some b) s cs := by
  constructor
  · intro h pre c hpre b hb
    have hafter := h pre [c] hpre b hb
    rwa [run_concat] at hafter
  · intro h pre post
    induction post using List.reverseRecOn with
    | nil =>
      intro _ b hb
      rwa [List.append_nil]
    | append_singleton post c ih =>
      intro hpre b hb
      rw [← List.append_assoc] at hpre ⊢
      rw [run_concat]
      exact h _ c hpre b (ih ((List.prefix_append _ _).trans hpre) b hb)

theorem Throughout.final {P : σ → Prop} {s : σ} {cs : List κ} (h : Throughout step P s cs) :
    P (run step s cs) := h cs (List.prefix_refl cs)

/-- An invariant kept by every call holds after every run. -/
theorem run_induction {I : σ → Prop} (hstep : ∀ s c, I s → I (step s c)) {s : σ} (h0 : I s)
    (cs : List κ) : I (run step s cs) := by
  induction cs generalizing s with
  | nil => exact h0
  | cons c cs ih => exact ih (hstep s c h0)

/-- A property kept by every call that meets a condition holds throughout every
run whose calls all meet it. -/
theorem throughout_of_stepwise {P : σ → Prop} {Ok : σ → κ → Prop}
    (hstep : ∀ s c, P s → Ok s c → P (step s c)) {s : σ} (h0 : P s) {cs : List κ}
    (hok : Stepwise step Ok s cs) : Throughout step P s cs := by
  intro pre
  induction pre using List.reverseRecOn with
  | nil => exact fun _ => h0
  | append_singleton pre c ih =>
    intro hp
    rw [run_concat]
    exact hstep _ _ (ih ((List.prefix_append pre [c]).trans hp)) (hok pre c hp)

/-- When, under an invariant `I` of every call, a call keeps `P` exactly if it
meets `Ok`, then `P` holds throughout a run exactly if each call of it meets `Ok`. -/
theorem throughout_iff_stepwise {I P : σ → Prop} {Ok : σ → κ → Prop}
    (hI : ∀ s c, I s → I (step s c)) (hstep : ∀ s c, I s → P s → (P (step s c) ↔ Ok s c))
    {s : σ} (hi : I s) (hp : P s) (cs : List κ) :
    Throughout step P s cs ↔ Stepwise step Ok s cs := by
  have hI' : ∀ pre : List κ, I (run step s pre) := run_induction hI hi
  constructor
  · intro h pre c hc
    have hpre : P (run step s pre) := h pre ((List.prefix_append pre [c]).trans hc)
    have hnext : P (run step s (pre ++ [c])) := h _ hc
    rw [run_concat] at hnext
    exact (hstep _ c (hI' pre) hpre).1 hnext
  · intro h pre
    induction pre using List.reverseRecOn with
    | nil => exact fun _ => hp
    | append_singleton pre c ih =>
      intro hc
      rw [run_concat]
      exact (hstep _ c (hI' pre) (ih ((List.prefix_append pre [c]).trans hc))).2 (h pre c hc)

/-- When calls that meet `Ok` keep `J`, which is stronger than `P`, and meet `Q`, and the others
break `P` or do not meet `Q`, then `P` holds throughout a run whose calls all meet `Q` exactly
if each call of it meets `Ok`. -/
theorem throughout_and_stepwise_iff_of_inductive {J P : σ → Prop} {Q Ok : σ → κ → Prop}
    (hJ : ∀ s, J s → P s) (hkeep : ∀ s c, J s → Ok s c → J (step s c) ∧ Q s c)
    (hbreak : ∀ s c, J s → P (step s c) → Q s c → Ok s c) {s : σ} (h0 : J s) (cs : List κ) :
    Throughout step P s cs ∧ Stepwise step Q s cs ↔ Stepwise step Ok s cs := by
  constructor
  · rintro ⟨hP, hQ⟩
    induction cs generalizing s with
    | nil => exact stepwise_nil Ok s
    | cons c cs ih =>
      obtain ⟨hq, hQ⟩ := stepwise_cons.1 hQ
      have hc : Ok s c := hbreak s c h0 (hP [c] ⟨cs, rfl⟩) hq
      refine stepwise_cons.2 ⟨hc, ih (hkeep s c h0 hc).1 (fun pre hpre => ?_) hQ⟩
      exact hP (c :: pre) ((List.prefix_cons_inj c).2 hpre)
  · intro hok
    have hJs : Throughout step J s cs :=
      throughout_of_stepwise (fun t c ht hc => (hkeep t c ht hc).1) h0 hok
    refine ⟨fun pre hpre => hJ _ (hJs pre hpre), fun pre c hc => ?_⟩
    exact (hkeep _ c (hJs pre ((List.prefix_append pre [c]).trans hc)) (hok pre c hc)).2

/-- When calls that meet `Ok` keep `J`, which is stronger than `P`, and the others break `P`,
then `P` holds throughout a run exactly if each call of it meets `Ok`. -/
theorem throughout_iff_of_inductive {J P : σ → Prop} {Ok : σ → κ → Prop} (hJ : ∀ s, J s → P s)
    (hkeep : ∀ s c, J s → Ok s c → J (step s c)) (hbreak : ∀ s c, J s → P (step s c) → Ok s c)
    {s : σ} (h0 : J s) (cs : List κ) : Throughout step P s cs ↔ Stepwise step Ok s cs := by
  have h := throughout_and_stepwise_iff_of_inductive (Q := fun _ _ => True) hJ
    (fun s c hs hc => ⟨hkeep s c hs hc, trivial⟩) (fun s c hs hp _ => hbreak s c hs hp) h0 cs
  rw [← h]
  exact (and_iff_left fun _ _ _ => trivial).symm

/-- When a call that finds `P` keeps it and meets `Q` *exactly* if it meets `Ok`, then `P`
holds throughout a run whose calls all meet `Q` exactly if each call of it meets `Ok`. -/
theorem throughout_and_stepwise_iff {P : σ → Prop} {Q Ok : σ → κ → Prop}
    (hstep : ∀ s c, P s → (P (step s c) ∧ Q s c ↔ Ok s c)) {s : σ} (hp : P s) (cs : List κ) :
    Throughout step P s cs ∧ Stepwise step Q s cs ↔ Stepwise step Ok s cs := by
  constructor
  · rintro ⟨hP, hQ⟩ pre c hc
    have hnext : P (run step s (pre ++ [c])) := hP _ hc
    rw [run_concat] at hnext
    exact (hstep _ c (hP pre ((List.prefix_append pre [c]).trans hc))).1 ⟨hnext, hQ pre c hc⟩
  · intro h
    have hP : Throughout step P s cs :=
      throughout_of_stepwise (fun t c ht hok => ((hstep t c ht).2 hok).1) hp h
    refine ⟨hP, fun pre c hc => ?_⟩
    exact ((hstep _ c (hP pre ((List.prefix_append pre [c]).trans hc))).2 (h pre c hc)).2

/-! ## Calls that pass through several states -/

section Traces

variable (emits : σ → κ → List σ)

/-- The states a run of calls passes through, when one call passes through several:
`emits s c` are the states after `s` that the call `c` goes through, in order. -/
def trace (s : σ) : List κ → List σ
  | [] => []
  | c :: cs => emits s c ++ trace ((emits s c).getLastD s) cs

variable {emits}

/-- The last state of a list of states of an invariant has it too. -/
theorem getLastD_of_forall {I : σ → Prop} {s : σ} {l : List σ} (hs : I s) (hl : ∀ t ∈ l, I t) :
    I (l.getLastD s) := by
  cases h : l.getLast? with
  | none =>
    rw [List.getLastD_eq_getLast?, h]
    exact hs
  | some t =>
    rw [List.getLastD_eq_getLast?, h]
    exact hl t (List.mem_of_getLast? h)

/-- A chain from a state through a list goes on from the list's last state. -/
theorem isChain_of_append {R : σ → σ → Prop} {s : σ} {l m : List σ}
    (h : List.IsChain R (s :: (l ++ m))) : List.IsChain R (l.getLastD s :: m) := by
  induction l generalizing s with
  | nil => exact h
  | cons t l ih =>
    rw [List.cons_append, List.isChain_cons_cons] at h
    rw [List.getLastD_cons]
    exact ih h.2

/-- When calls that meet `Ok` keep the invariant `I` in every state they pass
through, the others break `R` with their first state, and `R` relates any two states
of the invariant, then a run is a chain of `R` exactly if all its calls meet `Ok`. -/
theorem isChain_trace_iff {I : σ → Prop} {R : σ → σ → Prop} {Ok : κ → Prop}
    (hR : ∀ a b, I a → I b → R a b) (hok : ∀ s c, I s → Ok c → ∀ t ∈ emits s c, I t)
    (hbad : ∀ s c, I s → ¬ Ok c → ∃ t l, emits s c = t :: l ∧ ¬ R s t) {s : σ} (hs : I s)
    (cs : List κ) : List.IsChain R (s :: trace emits s cs) ↔ ∀ c ∈ cs, Ok c := by
  constructor
  · intro hchain c hc
    induction cs generalizing s with
    | nil => exact absurd hc (by simp)
    | cons d ds ih =>
      have hd : Ok d := by
        by_contra hnot
        obtain ⟨t, l, hemit, hbroken⟩ := hbad s d hs hnot
        rw [trace, hemit, List.cons_append, List.isChain_cons_cons] at hchain
        exact hbroken hchain.1
      rcases List.mem_cons.1 hc with rfl | hc'
      · exact hd
      · exact ih (getLastD_of_forall hs (hok s d hs hd)) (isChain_of_append hchain) hc'
  · intro hall
    have hI : ∀ t ∈ s :: trace emits s cs, I t := by
      induction cs generalizing s with
      | nil => simpa [trace] using hs
      | cons c cs ih =>
        have hc := hok s c hs (hall c (by simp))
        have hrest := ih (getLastD_of_forall hs hc) fun d hd => hall d (by simp [hd])
        intro t ht
        rw [trace, List.mem_cons, List.mem_append] at ht
        rcases ht with rfl | ht | ht
        · exact hs
        · exact hc t ht
        · exact hrest t (List.mem_cons_of_mem _ ht)
    exact (List.pairwise_iff_forall_sublist.2 fun {a b} hab =>
      hR a b (hI a (hab.subset (by simp))) (hI b (hab.subset (by simp)))).isChain

end Traces

end Runs
