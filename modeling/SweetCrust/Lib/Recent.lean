import Mathlib

/-!
# The last entries of a list

A reader that looks at the last `n` entries of a log sees an entry exactly if fewer than `n`
follow it.

* `split_rtake`, `mem_rtake` — what stands among the last `n` entries.
* `mem_rtake_filterMap` — the same where entries are skipped.
* `latest` — the rows with the greatest keys, greatest first.
* `firsts` — the entries of a list, each where it stands first.
* `filter_mem_take_eq_iff` — when looking up the first `n` entries in a table, which keeps its own
  order, finds the first `n` distinct ones in theirs.
-/

namespace Recent

variable {α β : Type} {n : ℕ} {l post : List α} {a : α}

/-- The last entries end like the list. -/
theorem split_rtake : (∃ pre, l.rtake n = pre ++ a :: post) ↔
    (∃ pre, l = pre ++ a :: post) ∧ post.length < n := by
  unfold List.rtake
  constructor
  · rintro ⟨pre, h⟩
    refine ⟨⟨l.take (l.length - n) ++ pre, ?_⟩, ?_⟩
    · rw [List.append_assoc, ← h, List.take_append_drop]
    · have hlen := congrArg List.length h
      simp only [List.length_drop, List.length_append, List.length_cons] at hlen
      omega
  · rintro ⟨⟨pre, rfl⟩, hlen⟩
    have hle : (pre ++ a :: post).length - n ≤ pre.length := by
      simp only [List.length_append, List.length_cons]
      omega
    exact ⟨pre.drop _, List.drop_append_of_le_length hle⟩

theorem mem_rtake : a ∈ l.rtake n ↔ ∃ pre post, l = pre ++ a :: post ∧ post.length < n := by
  constructor
  · intro h
    obtain ⟨pre, post, hsplit⟩ := List.append_of_mem h
    obtain ⟨⟨pre, hl⟩, hlen⟩ := split_rtake.1 ⟨pre, hsplit⟩
    exact ⟨pre, post, hl, hlen⟩
  · rintro ⟨pre, post, hl, hlen⟩
    obtain ⟨pre, hsplit⟩ := split_rtake.2 ⟨⟨pre, hl⟩, hlen⟩
    rw [hsplit]
    simp

/-- The last `n` of the entries that are kept. -/
theorem mem_rtake_filterMap {f : α → Option β} {b : β} : b ∈ (l.filterMap f).rtake n ↔
    ∃ pre a post, l = pre ++ a :: post ∧ f a = some b ∧ (post.filterMap f).length < n := by
  rw [mem_rtake]
  constructor
  · rintro ⟨pre, post, hsplit, hlen⟩
    obtain ⟨front, back, rfl, rfl, hback⟩ := List.filterMap_eq_append_iff.1 hsplit
    obtain ⟨skipped, a, rest, rfl, -, ha, rfl⟩ := List.filterMap_eq_cons_iff.1 hback
    exact ⟨front ++ skipped, a, rest, by simp, ha, hlen⟩
  · rintro ⟨pre, a, post, rfl, ha, hlen⟩
    exact ⟨pre.filterMap f, post.filterMap f, by simp [ha], hlen⟩

/-! ## The latest rows -/

section Latest

/-- The `limit` rows with the greatest keys, greatest first. -/
def latest (key : α → ℕ) (limit : ℕ) (rows : List α) : List α :=
  (rows.insertionSort fun a b => key b ≤ key a).take limit

variable {key : α → ℕ} {limit : ℕ} {rows : List α}

/-- Where there are no more rows than asked for, all of them are latest. -/
theorem perm_latest (h : rows.length ≤ limit) : (latest key limit rows).Perm rows := by
  have hsort := List.perm_insertionSort (fun a b => key b ≤ key a) rows
  rw [latest, List.take_of_length_le (hsort.length_eq.trans_le h)]
  exact hsort

end Latest

/-! ## Distinct entries -/

section Firsts

variable [DecidableEq α]

/-- The entries of a list, each where it stands first. -/
def firsts (l : List α) : List α := l.reverse.dedup.reverse

@[simp] theorem mem_firsts : a ∈ firsts l ↔ a ∈ l := by simp [firsts]

theorem nodup_firsts (l : List α) : (firsts l).Nodup :=
  List.nodup_reverse.2 (List.nodup_dedup _)

theorem firsts_of_nodup (h : l.Nodup) : firsts l = l := by
  rw [firsts, (List.nodup_reverse.2 h).dedup, List.reverse_reverse]

/-- What stands first in front of a list stands first in the whole. -/
theorem firsts_prefix (l m : List α) : firsts l <+: firsts (l ++ m) := by
  unfold firsts
  rw [List.reverse_append, List.dedup_append]
  exact List.reverse_prefix.2 (List.suffix_union_right _ _)

theorem firsts_take_prefix (l : List α) (n : ℕ) : firsts (l.take n) <+: firsts l := by
  have h := firsts_prefix (l.take n) (l.drop n)
  rwa [List.take_append_drop] at h

theorem length_firsts_le (l : List α) : (firsts l).length ≤ l.length := by
  rw [firsts, List.length_reverse]
  exact (List.dedup_sublist _).length_le.trans_eq List.length_reverse

/-- As many entries are distinct as there are, exactly if none stands twice. -/
theorem length_firsts_eq_iff : (firsts l).length = l.length ↔ l.Nodup := by
  constructor
  · intro h
    have hsub : l.reverse.dedup.length = l.reverse.length := by simpa [firsts] using h
    have heq := (List.dedup_sublist l.reverse).eq_of_length hsub
    exact List.nodup_reverse.1 (heq ▸ List.nodup_dedup _)
  · intro h
    rw [firsts_of_nodup h]

/-- The first `n` entries hold the first `n` distinct ones exactly if none of them stands twice,
or they hold all. -/
theorem firsts_take_eq_iff (n : ℕ) : firsts (l.take n) = (firsts l).take n ↔
    (l.take n).Nodup ∨ ∀ a ∈ l, a ∈ l.take n := by
  have hprefix := firsts_take_prefix l n
  have hlen : (firsts (l.take n)).length ≤ n :=
    (length_firsts_le _).trans (List.length_take_le n l)
  have hmin : firsts (l.take n) = (firsts l).take n ↔
      (firsts (l.take n)).length = min n (firsts l).length := by
    constructor
    · intro h
      rw [h, List.length_take]
    · intro h
      refine (List.prefix_of_prefix_length_le hprefix (List.take_prefix _ _) ?_).eq_of_length ?_
      · rw [h, List.length_take]
      · rw [h, List.length_take]
  rw [hmin]
  constructor
  · intro h
    rcases le_total n (firsts l).length with hle | hle
    · -- all of the `n` entries are distinct
      left
      rw [min_eq_left hle] at h
      refine length_firsts_eq_iff.1 (le_antisymm (length_firsts_le _) ?_)
      rw [h]
      exact List.length_take_le n l
    · right
      rw [min_eq_right hle] at h
      intro a ha
      have hall := hprefix.eq_of_length h
      rw [← mem_firsts, hall, mem_firsts]
      exact ha
  · rintro (hnodup | hall)
    · rw [length_firsts_eq_iff.2 hnodup, List.length_take]
      rcases le_total n l.length with hle | hle
      · rw [min_eq_left hle]
        refine (min_eq_left ?_).symm
        calc n = (l.take n).length := by rw [List.length_take, min_eq_left hle]
          _ = (firsts (l.take n)).length := (length_firsts_eq_iff.2 hnodup).symm
          _ ≤ (firsts l).length := hprefix.length_le
      · rw [List.take_of_length_le hle] at hnodup
        rw [length_firsts_eq_iff.2 hnodup]
    · have hperm : (firsts (l.take n)).Perm (firsts l) := by
        refine (List.perm_ext_iff_of_nodup (nodup_firsts _) (nodup_firsts _)).2 fun a => ?_
        rw [mem_firsts, mem_firsts]
        exact ⟨fun h => List.mem_of_mem_take h, hall a⟩
      rw [hperm.length_eq] at hlen ⊢
      exact (min_eq_right hlen).symm

/-- A table, sorted by its keys, in which the first `n` entries of a list are looked up gives the
first `n` distinct ones exactly if these are enough and stand in the order of the keys. -/
theorem filter_mem_take_eq_iff [LinearOrder α] {keys : List α} (hkeys : keys.Pairwise (· < ·))
    (hl : ∀ a ∈ l, a ∈ keys) (n : ℕ) :
    keys.filter (fun a => a ∈ l.take n) = (firsts l).take n ↔
      ((l.take n).Nodup ∨ ∀ a ∈ l, a ∈ l.take n) ∧ (firsts (l.take n)).Pairwise (· < ·) := by
  have hsorted : (keys.filter fun a => a ∈ l.take n).Pairwise (· < ·) := hkeys.filter _
  have hperm : (keys.filter fun a => a ∈ l.take n).Perm (firsts (l.take n)) := by
    refine (List.perm_ext_iff_of_nodup (hsorted.imp fun h => h.ne) (nodup_firsts _)).2 fun a => ?_
    rw [mem_firsts, List.mem_filter, decide_eq_true_eq]
    exact ⟨fun h => h.2, fun h => ⟨hl a (List.mem_of_mem_take h), h⟩⟩
  rw [← firsts_take_eq_iff]
  constructor
  · intro h
    have hprefix := firsts_take_prefix l n
    have heq : firsts (l.take n) = (firsts l).take n := by
      have hlen := hperm.length_eq
      rw [h] at hlen
      refine (List.prefix_of_prefix_length_le hprefix (List.take_prefix _ _) ?_).eq_of_length ?_
      · exact hlen.ge
      · exact hlen.symm
    refine ⟨heq, ?_⟩
    rw [heq, ← h]
    exact hsorted
  · rintro ⟨heq, hpairwise⟩
    rw [← heq]
    exact hperm.eq_of_pairwise' hsorted hpairwise

end Firsts

end Recent
