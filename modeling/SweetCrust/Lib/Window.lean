import SweetCrust.Lib.Runs

/-!
# Logs of the newest entries

A log keeps the newest `n` entries, the newest first.  Entries have keys, and an entry is
changed in place: the first one with the key.

* `step` — an entry is pushed, and the oldest may fall out; or one is changed.
* `run_step_eq_take` — the log is what a log without a limit keeps, cut off.
* `entry`, `history` — the history of one entry, by the events with its key alone.
* `Follows`, `follows_run` — where no key is pushed twice, every entry of the log is what the
  events with its key have made of it, however they lie among the others.
-/

namespace Window

open Runs

variable {α κ : Type} [DecidableEq κ] (keyOf : α → κ)

inductive Event (α κ : Type)
  | push (x : α)
  | change (k : κ) (f : α → α)

def Event.key : Event α κ → κ
  | .push x => keyOf x
  | .change k _ => k

/-- The first entry with the key is changed. -/
def changeFirst (k : κ) (f : α → α) : List α → List α
  | [] => []
  | x :: l => if keyOf x = k then f x :: l else x :: changeFirst k f l

/-- A log of at most `n` entries. -/
def step (n : ℕ) (l : List α) : Event α κ → List α
  | .push x => (x :: l).take n
  | .change k f => changeFirst keyOf k f l

/-- A log without a limit. -/
def fullStep (l : List α) : Event α κ → List α
  | .push x => x :: l
  | .change k f => changeFirst keyOf k f l

/-! ## The limit -/

variable {keyOf}

theorem take_changeFirst (k : κ) (f : α → α) (l : List α) (n : ℕ) :
    changeFirst keyOf k f (l.take n) = (changeFirst keyOf k f l).take n := by
  induction l generalizing n with
  | nil => simp [changeFirst]
  | cons x l ih =>
    cases n with
    | zero => simp [changeFirst]
    | succ n =>
      by_cases hx : keyOf x = k
      · simp [changeFirst, hx]
      · simp [changeFirst, hx, ih]

theorem step_take (n : ℕ) (l : List α) (e : Event α κ) :
    step keyOf n (l.take n) e = (fullStep keyOf l e).take n := by
  cases e with
  | push x =>
    cases n with
    | zero => rfl
    | succ n => simp [step, fullStep, List.take_take]
  | change k f => exact take_changeFirst k f l n

/-- The log is the log without a limit, cut off. -/
theorem run_step_eq_take (n : ℕ) (es : List (Event α κ)) :
    run (step keyOf n) [] es = (run (fullStep keyOf) [] es).take n := by
  induction es using List.reverseRecOn with
  | nil => simp
  | append_singleton es e ih => rw [run_concat, run_concat, ih, step_take]

/-! ## One entry -/

/-- What an event with its key makes of an entry. -/
def entry (o : Option α) : Event α κ → Option α
  | .push x => some x
  | .change _ f => o.map f

variable (keyOf) in
/-- What the events with a key make of its entry. -/
def history (es : List (Event α κ)) (k : κ) : Option α :=
  (es.filter fun e => e.key keyOf = k).foldl entry none

variable (keyOf) in
/-- The keys of the entries pushed, in their order. -/
def pushed (es : List (Event α κ)) : List κ :=
  es.filterMap fun
    | .push x => some (keyOf x)
    | .change _ _ => none

omit [DecidableEq κ] in
@[simp] theorem key_push (x : α) : (Event.push x : Event α κ).key keyOf = keyOf x := rfl

omit [DecidableEq κ] in
@[simp] theorem key_change (k : κ) (f : α → α) : (Event.change k f).key keyOf = k := rfl

theorem history_concat_of_ne {es : List (Event α κ)} {e : Event α κ} {k : κ}
    (h : e.key keyOf ≠ k) : history keyOf (es ++ [e]) k = history keyOf es k := by
  simp [history, List.filter_append, h]

theorem history_concat {es : List (Event α κ)} {e : Event α κ} :
    history keyOf (es ++ [e]) (e.key keyOf) = entry (history keyOf es (e.key keyOf)) e := by
  simp [history, List.filter_append, List.foldl_append]

omit [DecidableEq κ] in
theorem pushed_sublist {es fs : List (Event α κ)} (h : es.Sublist fs) :
    (pushed keyOf es).Sublist (pushed keyOf fs) := h.filterMap _

theorem pushed_filter (es : List (Event α κ)) (k : κ) :
    pushed keyOf (es.filter fun e => e.key keyOf = k) = (pushed keyOf es).filter fun j => j = k := by
  induction es with
  | nil => rfl
  | cons e es ih =>
    cases e with
    | push x =>
      by_cases hx : keyOf x = k
      · simpa [pushed, hx] using ih
      · simpa [pushed, hx] using ih
    | change j f =>
      by_cases hj : j = k
      · simpa [pushed, hj] using ih
      · simpa [pushed, hj] using ih

/-- No key is pushed twice if none is among the events with its key. -/
theorem nodup_pushed {es : List (Event α κ)}
    (h : ∀ k, (pushed keyOf (es.filter fun e => e.key keyOf = k)).length ≤ 1) :
    (pushed keyOf es).Nodup := by
  rw [List.nodup_iff_count_le_one]
  intro k
  have hk := h k
  rw [pushed_filter] at hk
  rw [List.count_eq_countP, List.countP_eq_length_filter]
  exact hk

/-- With distinct keys a change is one of the entry with the key and of no other. -/
theorem mem_changeFirst {k : κ} {f : α → α} {l : List α} (hnodup : (l.map keyOf).Nodup) {y : α}
    (h : y ∈ changeFirst keyOf k f l) : (y ∈ l ∧ keyOf y ≠ k) ∨ ∃ x ∈ l, keyOf x = k ∧ y = f x := by
  induction l with
  | nil => simp [changeFirst] at h
  | cons x l ih =>
    simp only [List.map_cons, List.nodup_cons] at hnodup
    by_cases hx : keyOf x = k
    · simp only [changeFirst, if_pos hx, List.mem_cons] at h
      rcases h with rfl | hy
      · exact Or.inr ⟨x, by simp, hx, rfl⟩
      · refine Or.inl ⟨by simp [hy], fun hyk => hnodup.1 ?_⟩
        rw [hx, ← hyk]
        exact List.mem_map_of_mem hy
    · simp only [changeFirst, if_neg hx, List.mem_cons] at h
      rcases h with rfl | hy
      · exact Or.inl ⟨by simp, hx⟩
      · rcases ih hnodup.2 hy with ⟨hmem, hne⟩ | ⟨z, hz, hk, hf⟩
        · exact Or.inl ⟨by simp [hmem], hne⟩
        · exact Or.inr ⟨z, by simp [hz], hk, hf⟩

theorem map_key_changeFirst {k : κ} {f : α → α} (hf : ∀ x, keyOf (f x) = keyOf x) (l : List α) :
    (changeFirst keyOf k f l).map keyOf = l.map keyOf := by
  induction l with
  | nil => rfl
  | cons x l ih =>
    by_cases hx : keyOf x = k
    · simp [changeFirst, hx, hf]
    · simp [changeFirst, hx, ih]

variable (keyOf) in
/-- The entries are those pushed, the newest first, each with its own history. -/
structure Follows (es : List (Event α κ)) (l : List α) : Prop where
  keys : l.map keyOf = (pushed keyOf es).reverse
  entries : ∀ x ∈ l, history keyOf es (keyOf x) = some x

variable (keyOf) in
/-- A change keeps the key of what it changes. -/
def KeepsKey (e : Event α κ) : Prop := ∀ k f, e = .change k f → ∀ x, keyOf (f x) = keyOf x

theorem Follows.step {es : List (Event α κ)} {l : List α} {e : Event α κ} (h : Follows keyOf es l)
    (hkeep : KeepsKey keyOf e) (hnodup : (pushed keyOf (es ++ [e])).Nodup) :
    Follows keyOf (es ++ [e]) (fullStep keyOf l e) := by
  cases e with
  | push x =>
    have hpushed : pushed keyOf (es ++ [.push x]) = pushed keyOf es ++ [keyOf x] := by
      simp [pushed, List.filterMap_append]
    rw [hpushed, List.nodup_append] at hnodup
    refine ⟨by simp [fullStep, hpushed, h.keys], fun y hy => ?_⟩
    rcases List.mem_cons.1 hy with rfl | hy
    · exact history_concat
    · have hne : keyOf y ∈ pushed keyOf es := by
        rw [← List.mem_reverse, ← h.keys]
        exact List.mem_map_of_mem hy
      have hxy : (Event.push x : Event α κ).key keyOf ≠ keyOf y :=
        (hnodup.2.2 _ hne _ (by simp)).symm
      rw [history_concat_of_ne hxy]
      exact h.entries y hy
  | change k f =>
    have hpushed : pushed keyOf (es ++ [.change k f]) = pushed keyOf es := by
      simp [pushed, List.filterMap_append]
    have hf : ∀ x, keyOf (f x) = keyOf x := hkeep k f rfl
    have hl : (l.map keyOf).Nodup := by
      rw [h.keys, List.nodup_reverse, ← hpushed]
      exact hnodup
    refine ⟨?_, fun y hy => ?_⟩
    · rw [fullStep, map_key_changeFirst hf, h.keys, hpushed]
    · rcases mem_changeFirst hl hy with ⟨hmem, hne⟩ | ⟨x, hx, rfl, rfl⟩
      · have hky : (Event.change k f).key keyOf ≠ keyOf y := hne.symm
        rw [history_concat_of_ne hky]
        exact h.entries y hmem
      · have hconcat : history keyOf (es ++ [.change (keyOf x) f]) (keyOf x) =
            entry (history keyOf es (keyOf x)) (.change (keyOf x) f) := history_concat
        rw [hf, hconcat, h.entries x hx]
        rfl

/-- Where no key is pushed twice, the log without a limit follows the events. -/
theorem follows_run {es : List (Event α κ)} (hkeep : ∀ e ∈ es, KeepsKey keyOf e)
    (hnodup : (pushed keyOf es).Nodup) : Follows keyOf es (run (fullStep keyOf) [] es) := by
  induction es using List.reverseRecOn with
  | nil => exact ⟨rfl, by simp⟩
  | append_singleton es e ih =>
    have hold : (pushed keyOf es).Nodup :=
      hnodup.sublist (pushed_sublist (List.sublist_append_left es [e]))
    rw [run_concat]
    exact (ih (fun e he => hkeep e (by simp [he])) hold).step (hkeep e (by simp)) hnodup

/-- So does the log: it has the newest keys, and every entry has its own history. -/
theorem run_step_spec (n : ℕ) {es : List (Event α κ)} (hkeep : ∀ e ∈ es, KeepsKey keyOf e)
    (hnodup : (pushed keyOf es).Nodup) :
    (run (step keyOf n) [] es).map keyOf = (pushed keyOf es).reverse.take n ∧
      ∀ x ∈ run (step keyOf n) [] es, history keyOf es (keyOf x) = some x := by
  have h := follows_run hkeep hnodup
  rw [run_step_eq_take]
  exact ⟨by rw [List.map_take, h.keys], fun x hx => h.entries x (List.mem_of_mem_take hx)⟩

end Window
